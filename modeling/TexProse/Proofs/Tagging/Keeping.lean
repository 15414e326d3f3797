import TexProse.Proofs.Tagging.Spans

/-!
# Renderings that last

An edit can destroy a rendering: by replacing it, or by a tag that takes the place of its segment.
`Edit.Spares` says when it does not, and `Takes` that no edit at a character does. The edits so taken add
to the prose what they attach, in their order, and then the character itself if its tag is plain. Whatever
is rendered in between is rendered behind them too.
-/

namespace TexProse

section Keeps
variable {τ : Type}

/-- Every rendering of the one list of boundaries stands in the other at the same segment, where it may go
on. -/
def Keeps (earlier later : List (Boundary τ)) : Prop :=
  ∀ boundary ∈ earlier, ∀ text, boundary.rendering = some text →
    ∃ more, { boundary with rendering := some (text ++ more) } ∈ later

namespace Keeps
variable {first second third : List (Boundary τ)}

theorem of_subset (h : ∀ boundary ∈ first, boundary.rendering ≠ none → boundary ∈ second) :
    Keeps first second := by
  intro boundary hb text htext
  refine ⟨"", ?_⟩
  rw [String.append_empty, ← htext]
  exact h boundary hb (by simp [htext])

theorem refl (boundaries : List (Boundary τ)) : Keeps boundaries boundaries :=
  of_subset fun _ hb _ => hb

theorem trans (hfirst : Keeps first second) (hsecond : Keeps second third) : Keeps first third := by
  intro boundary hb text htext
  obtain ⟨more, hmore⟩ := hfirst boundary hb text htext
  obtain ⟨further, hfurther⟩ := hsecond _ hmore _ rfl
  refine ⟨more ++ further, ?_⟩
  rwa [← String.append_assoc]

/-- What stands before the last boundary is kept if it stays, and the last one if it goes on. -/
theorem concat {boundary boundary' : Boundary τ} (h : Keeps [boundary] [boundary'])
    (before : List (Boundary τ)) : Keeps (before ++ [boundary]) (before ++ [boundary']) := by
  intro found hf text htext
  rcases List.mem_append.mp hf with hf | hf
  · obtain ⟨more, hmore⟩ := refl before found hf text htext
    exact ⟨more, List.mem_append_left _ hmore⟩
  · obtain ⟨more, hmore⟩ := h found hf text htext
    exact ⟨more, List.mem_append_right _ hmore⟩

end Keeps

end Keeps

/-- What an edit adds to the prose. -/
def Edit.attached {τ : Type} : Edit τ → String
  | .render text => text.getD ""
  | .append text => text
  | .tagHere _ | .tagNext _ => ""

namespace Ribbon
variable {τ : Type}

/-- A segment that nothing was read into has no rendering yet. -/
def IsClean (ribbon : Ribbon τ) : Prop :=
  ∀ last ∈ ribbon.head?, last.chars = [] → last.rendering = none

/-- The tag of each character that was read. -/
def charTags : Ribbon τ → List τ
  | [] => []
  | last :: rest => charTags rest ++ List.replicate last.chars.length last.tag

theorem length_charTags (ribbon : Ribbon τ) : (charTags ribbon).length = (chars ribbon).length := by
  induction ribbon with
  | nil => rfl
  | cons last rest ih => simp [charTags, chars, ih]

theorem touches_span (stretch : Stretch τ) (start offset : Nat) :
    (stretch.span start).touches offset (offset + 1) = true ↔
      start ≤ offset ∧ offset < start + stretch.chars.length := by
  rw [Span.touches, Bool.and_eq_true, decide_eq_true_iff, decide_eq_true_iff]
  simp only [Stretch.span, Stretch.boundary]
  omega

/-- One segment holds a character, and has its tag. -/
theorem exists_touches {ribbon : Ribbon τ} {offset : Nat} (h : offset < (chars ribbon).length) :
    ∃ span, (spans ribbon).filter (·.touches offset (offset + 1)) = [span] ∧
      (charTags ribbon)[offset]? = some span.tag := by
  induction ribbon with
  | nil => cases h
  | cons last rest ih =>
      rw [chars, List.length_append] at h
      rw [spans, List.filter_append, charTags]
      by_cases hrest : offset < (chars rest).length
      · obtain ⟨span, hfilter, htag⟩ := ih hrest
        refine ⟨span, ?_, ?_⟩
        · rw [hfilter, List.filter_cons_of_neg (by rw [touches_span]; omega)]
          rfl
        · rwa [List.getElem?_append_left ((length_charTags rest).symm ▸ hrest)]
      · refine ⟨last.span (chars rest).length, ?_, ?_⟩
        · have hnone : (spans rest).filter (·.touches offset (offset + 1)) = [] := by
            apply List.filter_eq_nil_iff.mpr
            intro span hspan
            have := stop_le_of_mem_spans hspan
            simp only [Span.touches, Bool.and_eq_true, decide_eq_true_eq]
            omega
          rw [hnone, List.filter_cons_of_pos (by rw [touches_span]; omega)]
          rfl
        · rw [List.getElem?_append_right (by rw [length_charTags]; omega), length_charTags,
            List.getElem?_replicate, if_pos (by omega)]
          rfl

theorem charTags_settle (ribbon : Ribbon τ) : charTags ribbon.settle = charTags ribbon := by
  unfold settle
  split
  · split <;> simp_all [charTags]
  · rfl

theorem keeps_settle {ribbon : Ribbon τ} (h : ribbon.IsClean) :
    Keeps ribbon.boundaries ribbon.settle.boundaries := by
  unfold settle
  split
  next last previous rest =>
    split
    next hchars =>
      apply Keeps.of_subset
      intro boundary hb hsome
      rcases List.mem_append.mp hb with hb | hb
      · exact hb
      · rw [List.mem_singleton.mp hb] at hsome
        exact absurd (h last rfl hchars) hsome
    next => exact Keeps.refl _
  next => exact Keeps.refl _

variable [DecidableEq τ]

@[simp] theorem charTags_turn (tag : τ) (ribbon : Ribbon τ) :
    charTags (turn tag ribbon) = charTags ribbon := by
  cases ribbon with
  | nil => rfl
  | cons last rest =>
      simp only [turn]
      split_ifs with _ hchars <;> simp_all [charTags]

@[simp] theorem charTags_edit (ribbon : Ribbon τ) (e : Edit τ) :
    charTags (ribbon.edit e) = charTags ribbon := by
  cases e with
  | tagHere tag => exact charTags_turn tag ribbon
  | tagNext tag => rfl
  | render text => cases ribbon <;> rfl
  | append text => cases ribbon <;> rfl

theorem charTags_foldl_edit (ribbon : Ribbon τ) (edits : List (Edit τ)) :
    charTags (edits.foldl edit ribbon) = charTags ribbon := by
  induction edits generalizing ribbon with
  | nil => rfl
  | cons e rest ih => exact (ih (ribbon.edit e)).trans (charTags_edit ribbon e)

theorem keeps_turn {ribbon : Ribbon τ} (h : ribbon.IsClean) (tag : τ) :
    Keeps ribbon.boundaries (turn tag ribbon).boundaries := by
  cases ribbon with
  | nil => exact fun _ hb => absurd hb List.not_mem_nil
  | cons last rest =>
      have hgone (hchars : last.chars = []) (later : List (Boundary τ)) :
          Keeps (boundaries (last :: rest)) (boundaries rest ++ later) := by
        apply Keeps.of_subset
        intro boundary hb hsome
        rcases List.mem_append.mp hb with hb | hb
        · exact List.mem_append_left _ hb
        · rw [List.mem_singleton.mp hb] at hsome
          exact absurd (h last rfl hchars) hsome
      simp only [turn]
      split_ifs with htag hchars hprevious
      · exact Keeps.refl _
      · simpa using hgone hchars []
      · exact hgone hchars _
      · exact Keeps.of_subset fun boundary hb _ => List.mem_append_left _ hb

theorem keeps_lay (ribbon : Ribbon τ) (edits : List (Edit τ)) (c : Char) :
    Keeps (edits.foldl edit ribbon).boundaries (ribbon.lay edits c).boundaries := by
  rw [lay, Progress.finish, foldl_edit_ribbon, ← boundaries_put c]
  cases (edits.foldl Progress.edit ⟨ribbon, none⟩).ahead with
  | none => exact Keeps.refl _
  | some tag => exact Keeps.of_subset fun boundary hb _ => List.mem_append_left _ hb

end Ribbon

section Spares
variable {τ : Type} [SegmentTag τ]

/-- An edit leaves all renderings and adds to the prose what it attaches. -/
def Edit.Spares (ribbon : Ribbon τ) : Edit τ → Prop
  | .tagHere _ => ribbon.IsClean
  | .tagNext _ => True
  | .render _ => ∃ last rest, ribbon = last :: rest ∧ SegmentTag.isPlain last.tag = false ∧
      last.rendering = none
  | .append _ => ∃ last rest, ribbon = last :: rest ∧ SegmentTag.isPlain last.tag = false

theorem Ribbon.IsClean.prose_eq {ribbon : Ribbon τ} (h : ribbon.IsClean) :
    ∀ last ∈ ribbon.head?, last.chars = [] → last.prose = "" := by
  intro last hlast hchars
  rw [Stretch.prose, hchars, h last hlast hchars]
  split <;> rfl

theorem Stretch.prose_render {stretch : Stretch τ} (hplain : SegmentTag.isPlain stretch.tag = false)
    (hnone : stretch.rendering = none) (text : Option String) :
    (stretch.amend (·.render text)).prose = stretch.prose ++ text.getD "" := by
  rw [prose, prose, tag_amend, hplain, hnone]
  cases text with
  | none => rfl
  | some text => by_cases htext : text = "" <;> simp [amend, Boundary.render, Option.filter, htext]

theorem Stretch.prose_append {stretch : Stretch τ} (hplain : SegmentTag.isPlain stretch.tag = false)
    (text : String) : (stretch.amend (·.append text)).prose = stretch.prose ++ text := by
  rw [prose, prose, tag_amend, hplain]
  exact (stretch.boundary 0).getD_append text

namespace Ribbon
variable [DecidableEq τ]

theorem prose_edit {ribbon : Ribbon τ} {e : Edit τ} (h : e.Spares ribbon) :
    (ribbon.edit e).prose = ribbon.prose ++ e.attached := by
  cases e with
  | tagHere tag =>
      rw [Edit.attached, String.append_empty]
      exact told_turn Stretch.prose_fresh tag h.prose_eq
  | tagNext tag => exact String.append_empty.symm
  | render text =>
      obtain ⟨last, rest, rfl, hplain, hnone⟩ := h
      simp only [edit, List.modifyHead_cons, prose, told, Stretch.prose_render hplain hnone,
        String.append_assoc, Edit.attached]
  | append text =>
      obtain ⟨last, rest, rfl, hplain⟩ := h
      simp only [edit, List.modifyHead_cons, prose, told, Stretch.prose_append hplain,
        String.append_assoc, Edit.attached]

theorem keeps_edit {ribbon : Ribbon τ} {e : Edit τ} (h : e.Spares ribbon) :
    Keeps ribbon.boundaries (ribbon.edit e).boundaries := by
  cases e with
  | tagHere tag => exact keeps_turn h tag
  | tagNext tag => exact Keeps.refl _
  | render text =>
      obtain ⟨last, rest, rfl, -, hnone⟩ := h
      apply Keeps.concat
      intro boundary hb found hfound
      rw [List.mem_singleton.mp hb] at hfound
      exact absurd (hnone.symm.trans hfound) (by simp)
  | append text =>
      obtain ⟨last, rest, rfl, -⟩ := h
      apply Keeps.concat
      intro boundary hb found hfound
      obtain rfl := List.mem_singleton.mp hb
      rw [Stretch.boundary_append, Boundary.append]
      split
      next => exact Keeps.refl _ _ List.mem_cons_self found hfound
      next => exact ⟨text, by simp [hfound]⟩

/-- The edits at a character leave all renderings, and the tag that it has behind them. -/
inductive Takes : Ribbon τ → List (Edit τ) → τ → Prop
  | nil {last : Stretch τ} {rest : Ribbon τ} : Takes (last :: rest) [] last.tag
  | cons {ribbon : Ribbon τ} {e : Edit τ} {edits : List (Edit τ)} {tag : τ} (hedit : e.Spares ribbon)
      (hrest : Takes (ribbon.edit e) edits tag) : Takes ribbon (e :: edits) tag

namespace Takes
variable {ribbon : Ribbon τ} {first second edits : List (Edit τ)} {tag tag' : τ}

theorem append (hfirst : Takes ribbon first tag)
    (hsecond : Takes (first.foldl edit ribbon) second tag') : Takes ribbon (first ++ second) tag' := by
  induction hfirst with
  | nil => exact hsecond
  | cons hedit hrest ih => exact .cons hedit (ih hsecond)

theorem of_append (h : Takes ribbon (first ++ second) tag) :
    Takes (first.foldl edit ribbon) second tag := by
  induction first generalizing ribbon with
  | nil => exact h
  | cons e first ih =>
      cases h with
      | cons hedit hrest => exact ih hrest

theorem tagHere (hclean : ribbon.IsClean) (tag : τ) : Takes ribbon [.tagHere tag] tag := by
  obtain ⟨last, rest, hturn, rfl⟩ := exists_turn tag ribbon
  apply Takes.cons (show Edit.Spares ribbon (.tagHere last.tag) from hclean)
  rw [edit, hturn]
  exact .nil

theorem head (h : Takes ribbon edits tag) :
    ∃ last rest, edits.foldl edit ribbon = last :: rest ∧ last.tag = tag := by
  induction h with
  | nil => exact ⟨_, _, rfl, rfl⟩
  | cons hedit hrest ih => exact ih

theorem prose (h : Takes ribbon edits tag) :
    (edits.foldl edit ribbon).prose = ribbon.prose ++ String.join (edits.map Edit.attached) := by
  induction h with
  | nil => simp
  | cons hedit hrest ih =>
      rw [List.foldl_cons, ih, prose_edit hedit, List.map_cons, String.join_cons, String.append_assoc]

theorem keeps (h : Takes ribbon edits tag) :
    Keeps ribbon.boundaries (edits.foldl edit ribbon).boundaries := by
  induction h with
  | nil => exact Keeps.refl _
  | cons hedit hrest ih => exact (keeps_edit hedit).trans ih

/-- A character with a plain tag adds itself to the prose, behind all that its edits attach. -/
theorem prose_lay (h : Takes ribbon edits tag) (c : Char) :
    (ribbon.lay edits c).prose = ribbon.prose ++ String.join (edits.map Edit.attached) ++
      if SegmentTag.isPlain tag then String.ofList [c] else "" := by
  obtain ⟨last, rest, hfold, rfl⟩ := h.head
  have hput : Ribbon.prose (put c (last :: rest)) = Ribbon.prose (last :: rest) ++
      if SegmentTag.isPlain last.tag then String.ofList [c] else "" := by
    simp only [put, List.modifyHead_cons, Ribbon.prose, told, Stretch.prose, String.append_assoc]
    split
    · rw [String.ofList_append]
    · rw [String.append_empty]
  have hsame : (ribbon.lay edits c).prose = Ribbon.prose (put c (last :: rest)) := by
    rw [lay, Progress.finish, foldl_edit_ribbon, hfold]
    cases (edits.foldl Progress.edit ⟨ribbon, none⟩).ahead with
    | none => rfl
    | some tag => exact (congrArg _ (Stretch.prose_fresh tag)).trans String.append_empty
  rw [hsame, hput, ← h.prose, hfold]

theorem charTags_lay (h : Takes ribbon edits tag) (c : Char) :
    charTags (ribbon.lay edits c) = charTags ribbon ++ [tag] := by
  obtain ⟨last, rest, hfold, rfl⟩ := h.head
  have hput : charTags (put c (last :: rest)) = charTags ribbon ++ [last.tag] := by
    rw [← charTags_foldl_edit ribbon edits, hfold]
    simp [put, charTags, List.replicate_succ']
  rw [lay, Progress.finish, foldl_edit_ribbon, hfold, ← hput]
  cases (edits.foldl Progress.edit ⟨ribbon, none⟩).ahead with
  | none => rfl
  | some tag => exact List.append_nil _

end Takes

end Ribbon

end Spares

namespace Window
variable {τ : Type} [DecidableEq τ] {window : Window τ} {ribbon : Ribbon τ} {later : List (Boundary τ)}

/-- What is rendered in the course of the edits at a character is rendered on the ribbon. -/
theorem keeps_editAll (hsolid : ribbon.IsSolid) (hoffset : window.offset = ribbon.chars.length)
    (hlist : window.segments.toList = ribbon.boundaries) {edits : List (Edit τ)}
    (h : Keeps (edits.foldl Ribbon.edit ribbon).boundaries later) :
    Keeps (window.editAll edits).segments.toList later := by
  have hstart : window.segments.toList = Progress.boundaries ⟨ribbon, none⟩ window.source.length := by
    simp [hlist, Progress.boundaries, Progress.boundaryAhead]
  rw [Progress.toList_editAll hsolid hoffset hstart edits, Progress.boundaries,
    Ribbon.foldl_edit_ribbon]
  refine Keeps.trans (Keeps.of_subset ?_) h
  intro boundary hb hsome
  rcases List.mem_append.mp hb with hb | hb
  · exact hb
  · -- what starts behind the character is not rendered yet
    unfold Progress.boundaryAhead at hb
    split at hb
    · cases hb
    · obtain ⟨tag, -, rfl⟩ := List.mem_map.mp hb
      exact absurd rfl hsome

/-- What is rendered after some of the edits at the last character is rendered at the end of the text,
where only the last segment can change. -/
theorem keeps_editAll_retake (hsolid : ribbon.IsSolid) (hfull : ∀ stretch ∈ ribbon, stretch.chars ≠ [])
    (hoffset : window.offset + 1 = ribbon.chars.length)
    (hlist : window.segments.toList = ribbon.boundaries) {edits : List (Edit τ)}
    (hamending : ∀ e ∈ edits, e.IsAmending)
    (h : Keeps (edits.foldl Ribbon.edit ribbon).boundaries later) :
    Keeps (window.editAll edits).segments.toList later := by
  apply keeps_editAll hsolid.retake
  · rw [Ribbon.chars_retake hfull, List.length_dropLast]
    omega
  · rw [Ribbon.boundaries_retake, hlist]
  · obtain ⟨last, rest, rfl⟩ := List.exists_cons_of_ne_nil hsolid.ne_nil
    obtain ⟨rendering, hfold⟩ := Ribbon.foldl_amending hamending last rest
    have hretake := hfold last.chars.dropLast
    have hwhole := hfold last.chars
    change List.foldl Ribbon.edit (last :: rest) edits = _ at hwhole
    rw [hwhole] at h
    change Keeps
      (edits.foldl Ribbon.edit ({ last with chars := last.chars.dropLast } :: rest)).boundaries later
    rw [hretake]
    exact h

end Window

end TexProse
