import TexProse.Proofs.Tagging.Ribbon

/-!
# The steps of a scan

A scan never reaches back: what it edits is the segment of the current character, or the one that starts
right behind it. Main statement: `toList_editAll`, which says that the edits at one character, whatever
they are and in whatever order they come, change the boundaries as they change the ribbon. Edits that
leave the current character alone once the next one is tagged keep neighbours apart.
-/

namespace TexProse

/-- The segments up to the current character in the course of its edits, and the tag that starts right
behind it if one does. -/
structure Progress (τ : Type) where
  ribbon : Ribbon τ
  ahead : Option τ := none

namespace Progress
variable {τ : Type} [DecidableEq τ]

/-- The tag that starts behind the current character after an edit. -/
def aheadAfter (progress : Progress τ) : Edit τ → Option τ
  | .tagNext tag =>
    if progress.ahead = some tag then some tag
    else if progress.ribbon.head?.map (·.tag) = some tag then none
    else some tag
  | .tagHere _ => progress.ahead
  | .render _ => progress.ahead
  | .append _ => progress.ahead

def edit (progress : Progress τ) (e : Edit τ) : Progress τ :=
  ⟨progress.ribbon.edit e, progress.aheadAfter e⟩

/-- Goes on to the next character. -/
def finish (c : Char) (progress : Progress τ) : Ribbon τ :=
  progress.ahead.toList.map (fun tag => { tag := tag }) ++ progress.ribbon.put c

/-- The boundary right behind the current character, if the text goes on there. -/
def boundaryAhead (progress : Progress τ) (length : Nat) : List (Boundary τ) :=
  if length ≤ progress.ribbon.chars.length + 1 then []
  else progress.ahead.toList.map fun tag =>
    { start := progress.ribbon.chars.length + 1, tag := tag }

/-- The boundaries from left to right. -/
def boundaries (progress : Progress τ) (length : Nat) : List (Boundary τ) :=
  progress.ribbon.boundaries ++ progress.boundaryAhead length

omit [DecidableEq τ] in
theorem start_of_mem_boundaryAhead {progress : Progress τ} {length : Nat} {boundary : Boundary τ}
    (h : boundary ∈ progress.boundaryAhead length) :
    boundary.start = progress.ribbon.chars.length + 1 := by
  unfold boundaryAhead at h
  split at h
  · cases h
  · obtain ⟨tag, _, rfl⟩ := List.mem_map.mp h
    rfl

omit [DecidableEq τ] in
theorem isAnchored {progress : Progress τ} (h : progress.ribbon.IsSolid) (length : Nat) :
    Segmentation.IsAnchored (progress.boundaries length) := by
  unfold boundaries boundaryAhead
  split
  · simpa using h.isAnchored
  · cases progress.ahead with
    | none => simpa using h.isAnchored
    | some tag =>
        apply Ribbon.isAnchored_concat h.isAnchored
        intro earlier he
        exact Nat.lt_succ_of_le (h.start_le earlier he)

theorem boundaryAhead_edit {progress : Progress τ} {e : Edit τ} (length : Nat)
    (h : ∀ tag, e ≠ .tagNext tag) :
    (progress.edit e).boundaryAhead length = progress.boundaryAhead length := by
  cases e with
  | tagNext tag => exact absurd rfl (h tag)
  | _ => simp [boundaryAhead, edit, aheadAfter]

omit [DecidableEq τ] in
/-- The cut of the boundaries around the current character. -/
theorem cut_eq {progress : Progress τ} {last : Stretch τ} {rest : Ribbon τ} (length : Nat)
    (h : progress.ribbon = last :: rest) :
    progress.boundaries length = Ribbon.boundaries rest ++
      last.boundary (Ribbon.chars rest).length :: progress.boundaryAhead length := by
  rw [boundaries, h, Ribbon.boundaries, List.append_assoc, List.singleton_append]

section Shown
variable {window : Window τ} {progress : Progress τ} (hsolid : progress.ribbon.IsSolid)
variable (hoffset : window.offset = progress.ribbon.chars.length)
variable (hlist : window.segments.toList = progress.boundaries window.source.length)
include hsolid hoffset hlist

theorem toList_tagHere (tag : τ) :
    (window.edit (.tagHere tag)).segments.toList =
      (progress.edit (.tagHere tag)).boundaries window.source.length := by
  obtain ⟨last, rest, hribbon⟩ := List.exists_cons_of_ne_nil hsolid.ne_nil
  have hanchored := hlist ▸ isAnchored hsolid window.source.length
  have hcut := hlist.trans (cut_eq window.source.length hribbon)
  have hlength : window.offset = (Ribbon.chars rest).length + last.chars.length := by
    rw [hoffset, hribbon, Ribbon.chars, List.length_append]
  have hle : (last.boundary (Ribbon.chars rest).length).start ≤ window.offset := by
    simp only [Stretch.boundary]
    omega
  have hlt : ∀ later ∈ progress.boundaryAhead window.source.length, window.offset < later.start := by
    intro later hl
    rw [start_of_mem_boundaryAhead hl, hoffset]
    omega
  have hstart : (last.boundary (Ribbon.chars rest).length).start = window.offset ↔
      last.chars = [] := by
    simp only [Stretch.boundary, hlength, ← List.length_eq_zero_iff]
    omega
  rw [boundaries, boundaryAhead_edit _ (by simp)]
  simp only [Window.edit, edit, Ribbon.edit, hribbon, Ribbon.turn]
  rw [Segmentation.toList_retag hanchored hcut hle hlt]
  simp only [hstart, Ribbon.getLast?_boundaries]
  by_cases htag : last.tag = tag
  · simp [htag, Stretch.boundary, Ribbon.boundaries]
  · by_cases hchars : last.chars = []
    · simp only [Stretch.boundary, htag, hchars, if_false, if_true]
      split
      · rfl
      · simp [Ribbon.boundaries, Stretch.boundary, hlength, hchars]
    · simp [Stretch.boundary, htag, hchars, Ribbon.boundaries, Ribbon.chars, hlength]

theorem toList_tagNext (tag : τ) :
    (window.edit (.tagNext tag)).segments.toList =
      (progress.edit (.tagNext tag)).boundaries window.source.length := by
  simp only [Window.edit]
  split
  next hend =>
    rw [hlist]
    simp [boundaries, boundaryAhead, edit, Ribbon.edit, ← hoffset, hend]
  next hend =>
    have hanchored := hlist ▸ isAnchored hsolid window.source.length
    have hmore : ¬ window.source.length ≤ progress.ribbon.chars.length + 1 := by omega
    have hshow : (progress.edit (.tagNext tag)).boundaries window.source.length =
        progress.ribbon.boundaries ++ (progress.edit (.tagNext tag)).ahead.toList.map
          fun tag => { start := window.offset + 1, tag := tag } := by
      simp [boundaries, boundaryAhead, edit, Ribbon.edit, hmore, hoffset]
    rw [hshow]
    cases hahead : progress.ahead with
    | none =>
        obtain ⟨last, rest, hribbon⟩ := List.exists_cons_of_ne_nil hsolid.ne_nil
        have hcut : window.segments.toList = Ribbon.boundaries rest ++
            last.boundary (Ribbon.chars rest).length :: [] := by
          simp [hlist, boundaries, boundaryAhead, hahead, hribbon, Ribbon.boundaries]
        have hstart : (last.boundary (Ribbon.chars rest).length).start < window.offset + 1 := by
          simp only [Stretch.boundary, hoffset, hribbon, Ribbon.chars, List.length_append]
          omega
        rw [Segmentation.toList_retag hanchored hcut (Nat.le_of_lt hstart) (by simp)]
        simp only [edit, aheadAfter, hahead, hribbon, List.head?_cons, Option.map_some, Option.some.injEq,
          Nat.ne_of_lt hstart, if_false, reduceCtorEq]
        by_cases htag : last.tag = tag
        · simp [htag, Stretch.boundary, Ribbon.boundaries]
        · simp [htag, Stretch.boundary, Ribbon.boundaries]
    | some next =>
        have hcut : window.segments.toList = progress.ribbon.boundaries ++
            { start := window.offset + 1, tag := next } :: [] := by
          simp [hlist, boundaries, boundaryAhead, hahead, hmore, hoffset]
        rw [Segmentation.toList_retag hanchored hcut (Nat.le_refl _) (by simp)]
        simp only [edit, aheadAfter, hahead, Ribbon.getLast?_boundaries, Option.some.injEq, if_true]
        split_ifs <;> simp_all

omit [DecidableEq τ] in
theorem toList_change (change : Boundary τ → Boundary τ)
    (hchange : ∀ (stretch : Stretch τ) start,
      (stretch.amend change).boundary start = change (stretch.boundary start)) :
    (window.segments.modify window.offset change).toList =
      boundaries ⟨progress.ribbon.modifyHead (·.amend change), progress.ahead⟩
        window.source.length := by
  obtain ⟨last, rest, hribbon⟩ := List.exists_cons_of_ne_nil hsolid.ne_nil
  have hanchored := hlist ▸ isAnchored hsolid window.source.length
  have hcut := hlist.trans (cut_eq window.source.length hribbon)
  have hle : (last.boundary (Ribbon.chars rest).length).start ≤ window.offset := by
    simp only [Stretch.boundary, hoffset, hribbon, Ribbon.chars, List.length_append]
    omega
  have hlt : ∀ later ∈ progress.boundaryAhead window.source.length, window.offset < later.start := by
    intro later hl
    rw [start_of_mem_boundaryAhead hl, hoffset]
    omega
  rw [Segmentation.toList_modify hanchored hcut hle hlt, ← hchange]
  simp [boundaries, boundaryAhead, hribbon, Ribbon.boundaries, Ribbon.chars]

/-- One edit of a segmentation is the same edit of the ribbon. -/
theorem toList_edit (e : Edit τ) :
    (window.edit e).segments.toList = (progress.edit e).boundaries window.source.length := by
  cases e with
  | tagHere tag => exact toList_tagHere hsolid hoffset hlist tag
  | tagNext tag => exact toList_tagNext hsolid hoffset hlist tag
  | render text =>
      exact toList_change hsolid hoffset hlist (·.render text)
        fun stretch start => stretch.boundary_render text start
  | append text =>
      exact toList_change hsolid hoffset hlist (·.append text)
        fun stretch start => stretch.boundary_append text start

end Shown

/-- The edits of a whole step, whatever they are and in whatever order they come. -/
theorem toList_editAll {window : Window τ} {progress : Progress τ}
    (hsolid : progress.ribbon.IsSolid) (hoffset : window.offset = progress.ribbon.chars.length)
    (hlist : window.segments.toList = progress.boundaries window.source.length)
    (edits : List (Edit τ)) :
    (window.editAll edits).segments.toList =
      (edits.foldl edit progress).boundaries window.source.length := by
  induction edits generalizing window progress with
  | nil => exact hlist
  | cons e rest ih =>
      have hcursor := Window.toCursor_edit window e
      have hsource : (window.edit e).source = window.source := congrArg Cursor.source hcursor
      have hstep := @ih (window.edit e) (progress.edit e) (hsolid.edit e)
        (by rw [congrArg Cursor.offset hcursor, hoffset]; simp [edit])
        (by rw [hsource]; exact toList_edit hsolid hoffset hlist e)
      rw [hsource] at hstep
      exact hstep

omit [DecidableEq τ] in
/-- The boundaries behind a step are those of the next ribbon, and at the end of the text those of the
settled one. -/
theorem boundaries_finish {progress : Progress τ} (h : progress.ribbon.IsSolid) (c : Char)
    (length : Nat) :
    progress.boundaries length =
      if length ≤ progress.ribbon.chars.length + 1 then (progress.finish c).settle.boundaries
      else (progress.finish c).boundaries := by
  obtain ⟨last, rest, hribbon⟩ := List.exists_cons_of_ne_nil h.ne_nil
  unfold boundaries boundaryAhead finish
  split
  · have hput : (progress.ribbon.put c).settle = progress.ribbon.put c := by
      cases rest <;> simp [hribbon, Ribbon.put, Ribbon.settle]
    cases progress.ahead with
    | none => simp [hput]
    | some tag =>
        rw [List.append_nil, ← Ribbon.boundaries_put c, hribbon]
        simp [Ribbon.put, Ribbon.settle]
  · cases progress.ahead with
    | none => simp
    | some tag =>
        simp [Ribbon.boundaries, Stretch.boundary, Ribbon.chars_put c h.ne_nil]

end Progress

namespace Edit
variable {τ : Type} {first second : List (Edit τ)}

/-- No edit retags the current character once the next one is tagged. -/
def IsOrderly (edits : List (Edit τ)) : Prop :=
  edits.Pairwise fun first later => ∀ tag tag', first = .tagNext tag → later ≠ .tagHere tag'

/-- No edit tags the next character. -/
def IsCalm (edits : List (Edit τ)) : Prop := ∀ tag, .tagNext tag ∉ edits

/-- An edit that only changes the rendering of the current segment. -/
def IsAmending : Edit τ → Prop
  | .render _ | .append _ => True
  | .tagHere _ | .tagNext _ => False

theorem isCalm_of_isAmending {edits : List (Edit τ)} (h : ∀ e ∈ edits, e.IsAmending) : IsCalm edits := by
  intro tag ht
  exact (h _ ht).elim

theorem IsCalm.append (hfirst : IsCalm first) (hsecond : IsCalm second) : IsCalm (first ++ second) := by
  intro tag ht
  rcases List.mem_append.mp ht with ht | ht
  · exact hfirst tag ht
  · exact hsecond tag ht

theorem IsCalm.isOrderly_append (hfirst : IsCalm first) (hsecond : IsOrderly second) :
    IsOrderly (first ++ second) := by
  have hcalm : ∀ e ∈ first, ∀ (later : Edit τ) (tag tag' : τ), e = .tagNext tag → later ≠ .tagHere tag' := by
    rintro _ he _ tag _ rfl
    exact absurd he (hfirst tag)
  apply List.pairwise_append.mpr
  refine ⟨?_, hsecond, ?_⟩
  · apply List.pairwise_of_forall_mem_list
    intro e he later _
    exact hcalm e he later
  · intro e he later _
    exact hcalm e he later

theorem IsCalm.isOrderly (hfirst : IsCalm first) : IsOrderly first := by
  simpa using hfirst.isOrderly_append List.Pairwise.nil

end Edit

namespace Ribbon
variable {τ : Type} [DecidableEq τ]

/-- One step of a scan: the edits at a character, and then the character. -/
def lay (ribbon : Ribbon τ) (edits : List (Edit τ)) (c : Char) : Ribbon τ :=
  (edits.foldl Progress.edit ⟨ribbon, none⟩).finish c

theorem foldl_edit_ribbon (progress : Progress τ) (edits : List (Edit τ)) :
    (edits.foldl Progress.edit progress).ribbon = edits.foldl edit progress.ribbon := by
  induction edits generalizing progress with
  | nil => rfl
  | cons e rest ih => exact ih (progress.edit e)

theorem chars_foldl_edit (ribbon : Ribbon τ) (edits : List (Edit τ)) :
    chars (edits.foldl edit ribbon) = chars ribbon := by
  induction edits generalizing ribbon with
  | nil => rfl
  | cons e rest ih => exact (ih (ribbon.edit e)).trans (chars_edit ribbon e)

theorem IsSolid.foldl_edit {ribbon : Ribbon τ} (h : ribbon.IsSolid) (edits : List (Edit τ)) :
    (edits.foldl Ribbon.edit ribbon).IsSolid := by
  induction edits generalizing ribbon with
  | nil => exact h
  | cons e rest ih => exact ih (h.edit e)

theorem IsSolid.lay {ribbon : Ribbon τ} (h : ribbon.IsSolid) (edits : List (Edit τ)) (c : Char) :
    (ribbon.lay edits c).IsSolid := by
  have hput := (h.foldl_edit edits).put c
  unfold Ribbon.lay Progress.finish
  rw [foldl_edit_ribbon]
  cases (edits.foldl Progress.edit ⟨ribbon, none⟩).ahead with
  | none => exact hput
  | some tag =>
      obtain ⟨last, rest, hribbon⟩ := List.exists_cons_of_ne_nil (h.foldl_edit edits).ne_nil
      constructor
      · simp
      · intro stretch hs
        rw [hribbon] at hs hput
        rcases List.mem_cons.mp (show stretch ∈ _ :: rest from hs) with rfl | hs
        · simp
        · exact hput.tail_ne_nil stretch hs

theorem chars_lay {ribbon : Ribbon τ} (h : ribbon.IsSolid) (edits : List (Edit τ)) (c : Char) :
    chars (ribbon.lay edits c) = chars ribbon ++ [c] := by
  have hput := chars_put c (h.foldl_edit edits).ne_nil
  rw [chars_foldl_edit] at hput
  unfold lay Progress.finish
  rw [foldl_edit_ribbon]
  cases (edits.foldl Progress.edit ⟨ribbon, none⟩).ahead <;> simp [chars, hput]

end Ribbon

namespace Ribbon
variable {τ : Type} [DecidableEq τ] {edits : List (Edit τ)}

/-- Starts a segment behind the last one, unless that has the tag already. -/
def beginNext (tag : τ) (ribbon : Ribbon τ) : Ribbon τ :=
  if ribbon.head?.map (·.tag) = some tag then ribbon else { tag := tag } :: ribbon

theorem ahead_foldl_calm (h : Edit.IsCalm edits) (progress : Progress τ) :
    (edits.foldl Progress.edit progress).ahead = progress.ahead := by
  induction edits generalizing progress with
  | nil => rfl
  | cons e rest ih =>
      have hrest : Edit.IsCalm rest := by
        intro tag ht
        exact h tag (List.mem_cons_of_mem e ht)
      apply (ih hrest (progress.edit e)).trans
      cases e with
      | tagNext tag => exact absurd List.mem_cons_self (h tag)
      | _ => rfl

/-- A step without a tag for the next character. -/
theorem lay_calm (h : Edit.IsCalm edits) (ribbon : Ribbon τ) (c : Char) :
    ribbon.lay edits c = (edits.foldl edit ribbon).put c := by
  rw [lay, Progress.finish, ahead_foldl_calm h, foldl_edit_ribbon]
  rfl

/-- A step that tags the next character at its end. -/
theorem lay_tagNext (h : Edit.IsCalm edits) (ribbon : Ribbon τ) (tag : τ) (c : Char) :
    ribbon.lay (edits ++ [.tagNext tag]) c = ((edits.foldl edit ribbon).put c).beginNext tag := by
  simp only [lay, List.foldl_append, List.foldl_cons, List.foldl_nil, Progress.finish, Progress.edit,
    Progress.aheadAfter, ahead_foldl_calm h, foldl_edit_ribbon, edit, beginNext]
  cases hribbon : edits.foldl edit ribbon with
  | nil => simp [put]
  | cons last rest => by_cases htag : last.tag = tag <;> simp [put, htag]

theorem lay_singleton_tagNext (ribbon : Ribbon τ) (tag : τ) (c : Char) :
    ribbon.lay [.tagNext tag] c = (ribbon.put c).beginNext tag :=
  lay_tagNext (fun _ => List.not_mem_nil) ribbon tag c

end Ribbon

namespace Progress
variable {τ : Type}

def tags (progress : Progress τ) : List τ := progress.ahead.toList ++ progress.ribbon.tags

@[simp] theorem tags_finish (c : Char) (progress : Progress τ) :
    (progress.finish c).tags = progress.tags := by
  have hput : (progress.ribbon.put c).map (·.tag) = progress.ribbon.tags :=
    Ribbon.tags_put c progress.ribbon
  unfold finish tags
  rw [← hput]
  cases progress.ahead <;> simp [Ribbon.tags]

variable [DecidableEq τ]

theorem isChain_tags_tagNext {progress : Progress τ} (h : progress.tags.IsChain (· ≠ ·)) (tag : τ) :
    (progress.edit (.tagNext tag)).tags.IsChain (· ≠ ·) := by
  have hribbon : progress.ribbon.IsVaried := List.IsChain.right_of_append h
  simp only [tags, edit, aheadAfter, Ribbon.edit]
  split_ifs with hsame htop
  · rwa [tags, hsame] at h
  · exact hribbon
  · cases hcases : progress.ribbon with
    | nil => exact List.isChain_singleton _
    | cons last rest =>
        rw [hcases] at htop hribbon
        exact List.isChain_cons_cons.mpr ⟨fun he => htop (congrArg some he.symm), hribbon⟩

/-- As long as the next character has no tag the current one may get any. -/
theorem isChain_tags_foldl {progress : Progress τ} (h : progress.tags.IsChain (· ≠ ·))
    {edits : List (Edit τ)} (hedits : Edit.IsOrderly edits)
    (hahead : progress.ahead = none ∨ ∀ tag, .tagHere tag ∉ edits) :
    (edits.foldl edit progress).tags.IsChain (· ≠ ·) := by
  induction edits generalizing progress with
  | nil => exact h
  | cons e rest ih =>
      rw [List.foldl_cons]
      obtain ⟨hlater, hrest⟩ := List.pairwise_cons.mp hedits
      have hshrink : progress.ahead = none ∨ ∀ tag, .tagHere tag ∉ rest :=
        hahead.imp_right fun hnone tag ht => hnone tag (List.mem_cons_of_mem e ht)
      cases e with
      | tagHere tag =>
          have hnone : progress.ahead = none :=
            hahead.resolve_right fun hall => hall tag (by simp)
          refine ih ?_ hrest (.inl hnone)
          have hribbon : progress.ribbon.IsVaried := List.IsChain.right_of_append h
          have hturn : (progress.ribbon.turn tag).IsVaried := hribbon.turn tag
          rwa [tags, edit, aheadAfter, hnone]
      | tagNext tag =>
          apply ih (isChain_tags_tagNext h tag) hrest
          right
          intro tag' ht
          exact hlater _ ht tag tag' rfl rfl
      | render text =>
          refine ih ?_ hrest hshrink
          rwa [tags, edit, aheadAfter, Ribbon.tags_edit _ (by simp)]
      | append text =>
          refine ih ?_ hrest hshrink
          rwa [tags, edit, aheadAfter, Ribbon.tags_edit _ (by simp)]

end Progress

namespace Ribbon
variable {τ : Type} [DecidableEq τ]

/-- Orderly edits leave no two neighbours with one tag. -/
theorem IsVaried.lay {ribbon : Ribbon τ} (h : ribbon.IsVaried) {edits : List (Edit τ)}
    (hedits : Edit.IsOrderly edits) (c : Char) : (ribbon.lay edits c).IsVaried := by
  have hstart : (Progress.tags ⟨ribbon, none⟩).IsChain (· ≠ ·) := h
  rw [IsVaried, Ribbon.lay, Progress.tags_finish]
  exact Progress.isChain_tags_foldl hstart hedits (.inl rfl)

omit [DecidableEq τ] in
theorem IsVaried.settle {ribbon : Ribbon τ} (h : ribbon.IsVaried) : ribbon.settle.IsVaried := by
  unfold Ribbon.settle
  split
  · split
    · exact List.IsChain.tail h
    · exact h
  · exact h

omit [DecidableEq τ] in
theorem IsSolid.settle {ribbon : Ribbon τ} (h : ribbon.IsSolid) : ribbon.settle.IsSolid := by
  unfold Ribbon.settle
  split
  · split
    · exact ⟨by simp, fun stretch hs => h.tail_ne_nil stretch (List.mem_of_mem_tail hs)⟩
    · exact h
  · exact h

omit [DecidableEq τ] in
/-- Once something is read, no segment of the settled ribbon is empty. -/
theorem IsSolid.full_settle {ribbon : Ribbon τ} (h : ribbon.IsSolid) (hchars : chars ribbon ≠ []) :
    ∀ stretch ∈ ribbon.settle, stretch.chars ≠ [] := by
  have htail := h.tail_ne_nil
  unfold Ribbon.settle
  split
  next last previous rest =>
    split
    · exact htail
    next hlast => exact List.forall_mem_cons.mpr ⟨hlast, htail⟩
  next hshort =>
    match ribbon, h.ne_nil, hshort with
    | [last], _, _ => simpa [chars] using hchars
    | last :: previous :: rest, _, hshort => exact absurd rfl (hshort last previous rest)

omit [DecidableEq τ] in
theorem chars_settle (ribbon : Ribbon τ) : chars ribbon.settle = chars ribbon := by
  unfold settle
  split
  · split <;> simp_all [chars]
  · rfl

/-- Without the last character that was read. -/
def retake (ribbon : Ribbon τ) : Ribbon τ :=
  ribbon.modifyHead fun last => { last with chars := last.chars.dropLast }

omit [DecidableEq τ] in
@[simp] theorem boundaries_retake (ribbon : Ribbon τ) : boundaries ribbon.retake = boundaries ribbon := by
  cases ribbon <;> rfl

omit [DecidableEq τ] in
theorem IsSolid.retake {ribbon : Ribbon τ} (h : ribbon.IsSolid) : ribbon.retake.IsSolid := by
  obtain ⟨last, rest, rfl⟩ := List.exists_cons_of_ne_nil h.ne_nil
  exact ⟨by simp [Ribbon.retake], h.tail_ne_nil⟩

omit [DecidableEq τ] in
theorem chars_retake {ribbon : Ribbon τ} (h : ∀ stretch ∈ ribbon, stretch.chars ≠ []) :
    chars ribbon.retake = (chars ribbon).dropLast := by
  cases ribbon with
  | nil => rfl
  | cons last rest =>
      simp [retake, chars, List.dropLast_append_of_ne_nil (h last (by simp))]

/-- The edits at the end of the text, which are made at its last character. -/
def close (ribbon : Ribbon τ) (edits : List (Edit τ)) : Ribbon τ :=
  match (chars ribbon).getLast? with
  | some c => (ribbon.retake.lay edits c).settle
  | none => ribbon

/-- What closing does to a ribbon that ends with a character. -/
theorem close_eq {ribbon : Ribbon τ} {chars : List Char} {c : Char}
    (h : ribbon.chars = chars ++ [c]) (edits : List (Edit τ)) :
    ribbon.close edits = (ribbon.retake.lay edits c).settle := by
  simp [close, h]

omit [DecidableEq τ] in
theorem settle_cons {last : Stretch τ} (h : last.chars ≠ []) (rest : Ribbon τ) :
    settle (last :: rest) = last :: rest := by
  cases rest with
  | nil => rfl
  | cons previous rest => simp [settle, h]

theorem foldl_amending {edits : List (Edit τ)} (h : ∀ e ∈ edits, e.IsAmending) (last : Stretch τ)
    (rest : Ribbon τ) :
    ∃ rendering, ∀ chars, edits.foldl edit ({ last with chars := chars } :: rest) =
      { last with chars := chars, rendering := rendering } :: rest := by
  induction edits generalizing last with
  | nil => exact ⟨last.rendering, fun chars => rfl⟩
  | cons e edits ih =>
      have hrest := fun later hl => h later (List.mem_cons_of_mem e hl)
      cases e with
      | render text => exact ih hrest (last.amend (·.render text))
      | append text => exact ih hrest (last.amend (·.append text))
      | tagHere tag => exact (h _ List.mem_cons_self).elim
      | tagNext tag => exact (h _ List.mem_cons_self).elim

/-- At the end of a text the rendering of its last segment may change. -/
theorem close_amending {edits : List (Edit τ)} (h : ∀ e ∈ edits, e.IsAmending) {last : Stretch τ}
    (hlast : last.chars ≠ []) (rest : Ribbon τ) :
    close (last :: rest) edits = edits.foldl edit (last :: rest) := by
  obtain ⟨rendering, hfold⟩ := foldl_amending h last rest
  obtain ⟨chars, c, hchars⟩ := (List.eq_nil_or_concat' last.chars).resolve_left hlast
  have hread : Ribbon.chars (last :: rest) = Ribbon.chars rest ++ chars ++ [c] := by
    rw [Ribbon.chars, hchars, List.append_assoc]
  have hretake : retake (last :: rest) = { last with chars := chars } :: rest := by
    simp [retake, hchars]
  rw [close_eq hread, lay_calm (Edit.isCalm_of_isAmending h), hretake, hfold chars]
  rw [show last :: rest = { last with chars := chars ++ [c] } :: rest by rw [← hchars], hfold]
  exact settle_cons (by simp) rest

theorem IsVaried.close {ribbon : Ribbon τ} (h : ribbon.IsVaried) {edits : List (Edit τ)}
    (hedits : Edit.IsOrderly edits) : (ribbon.close edits).IsVaried := by
  have hretake : ribbon.retake.IsVaried := by
    cases ribbon with
    | nil => exact h
    | cons last rest => exact h
  rw [Ribbon.close]
  split
  · exact (hretake.lay hedits _).settle
  · exact h

end Ribbon
end TexProse
