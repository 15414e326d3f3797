import TexProse.Proofs.Segmentation.Refinement
import TexProse.Proofs.Tagging.Scan

/-!
# What is past

A visit reaches back to the segment of its character and no further: the tags of all characters before it
stay, and so does every segment that has ended before it. Main statement: `scan_leaves_past`. So the tag of a
character is final once the last visit to it is over, whatever edits come later.
-/

namespace TexProse

namespace Segmentation
variable {τ : Type} {segments segments' : Segmentation τ} {offset place : Nat}

/-- The boundaries before an offset. -/
def past (offset : Nat) (boundaries : List (Boundary τ)) : List (Boundary τ) :=
  boundaries.filter (·.start < offset)

section Past
variable {before after : List (Boundary τ)} {boundary : Boundary τ}

theorem past_append (before after : List (Boundary τ)) :
    past offset (before ++ after) = past offset before ++ past offset after :=
  List.filter_append ..

theorem past_cons_of_lt (h : boundary.start < offset) :
    past offset (boundary :: after) = boundary :: past offset after :=
  List.filter_cons_of_pos (by simpa using h)

theorem past_cons_of_le (h : offset ≤ boundary.start) :
    past offset (boundary :: after) = past offset after :=
  List.filter_cons_of_neg (by simpa using h)

theorem past_eq_self (h : ∀ earlier ∈ before, earlier.start < offset) : past offset before = before :=
  List.filter_eq_self.mpr fun earlier he => by simpa using h earlier he

theorem past_eq_nil (h : ∀ later ∈ after, offset ≤ later.start) : past offset after = [] :=
  List.filter_eq_nil_iff.mpr fun later hl => by simpa using h later hl

theorem past_past (h : place ≤ offset) (boundaries : List (Boundary τ)) :
    past place (past offset boundaries) = past place boundaries := by
  rw [past, past, past, List.filter_filter]
  apply List.filter_congr
  intro boundary _
  simp only [Bool.and_eq_left_iff_imp, decide_eq_true_eq]
  omega

theorem past_isPrefix {boundaries : List (Boundary τ)}
    (h : boundaries.Pairwise fun a b => a.start < b.start) : past offset boundaries <+: boundaries := by
  induction boundaries with
  | nil => exact List.prefix_refl _
  | cons first rest ih =>
      obtain ⟨hfirst, hrest⟩ := List.pairwise_cons.mp h
      by_cases hlt : first.start < offset
      · rw [past_cons_of_lt hlt]
        exact (List.prefix_cons_inj first).mpr (ih hrest)
      · rw [past_eq_nil]
        · exact List.nil_prefix
        · intro later hl
          rcases List.mem_cons.mp hl with rfl | hl
          · omega
          · have := hfirst later hl
            omega

end Past

/-- The boundary of a segment is the last one at or before each of its offsets. -/
theorem getLast?_past (h : IsAnchored segments.toList) (offset : Nat) :
    (past (offset + 1) segments.toList).getLast? = some (segments.holding offset) := by
  obtain ⟨before, boundary, after, hlist, hle, hlt⟩ := exists_cut h offset
  have hbefore : ∀ earlier ∈ before, earlier.start < offset + 1 := by
    intro earlier he
    have := (hlist ▸ h).start_lt.1 earlier he
    omega
  rw [holding_eq h hlist hle hlt, hlist, past_append, past_eq_self hbefore,
    past_cons_of_lt (Nat.lt_succ_of_le hle), past_eq_nil hlt, List.getLast?_concat]

/-- What the edits of a visit at an offset leave of the boundaries: those before the offset keep their places
and their tags, and all but the last of them are as they were. -/
structure Leaves (offset : Nat) (earlier later : List (Boundary τ)) : Prop where
  anchored : IsAnchored later
  ended : (past offset later).dropLast = (past offset earlier).dropLast
  tagged : (past offset later).map (fun b => (b.start, b.tag)) =
    (past offset earlier).map fun b => (b.start, b.tag)
  near : ∀ boundary ∈ later, boundary ∈ earlier ∨ boundary.start ≤ offset + 1

namespace Leaves
variable {first second third : List (Boundary τ)}

theorem refl (h : IsAnchored first) (offset : Nat) : Leaves offset first first :=
  ⟨h, rfl, rfl, fun _ hb => .inl hb⟩

theorem trans (hfirst : Leaves offset first second) (hsecond : Leaves offset second third) :
    Leaves offset first third where
  anchored := hsecond.anchored
  ended := hsecond.ended.trans hfirst.ended
  tagged := hsecond.tagged.trans hfirst.tagged
  near boundary hb := (hsecond.near boundary hb).elim (hfirst.near boundary) .inr

/-- Boundaries that agree before the offset. -/
theorem of_past_eq (hanchored : IsAnchored second) (hpast : past offset second = past offset first)
    (hnear : ∀ boundary ∈ second, boundary ∈ first ∨ boundary.start ≤ offset + 1) :
    Leaves offset first second :=
  ⟨hanchored, by rw [hpast], by rw [hpast], hnear⟩

end Leaves

section Edit
variable {before after : List (Boundary τ)} {boundary : Boundary τ}

theorem subset_cons (before : List (Boundary τ)) (boundary : Boundary τ) (after : List (Boundary τ)) :
    before ++ after ⊆ before ++ boundary :: after :=
  ((List.sublist_cons_self boundary after).append_left before).subset

theorem near_cons (hnear : boundary.start ≤ offset + 1) :
    ∀ found ∈ before ++ boundary :: after, found ∈ before ++ after ∨ found.start ≤ offset + 1 := by
  intro found hf
  rw [List.perm_middle.mem_iff, List.mem_cons] at hf
  rcases hf with rfl | hf
  · exact .inr hnear
  · exact .inl hf

/-- A new tag from an offset on changes nothing before it. -/
theorem leaves_retag [DecidableEq τ] (h : IsAnchored segments.toList) (hle : offset ≤ place)
    (hnear : place ≤ offset + 1) (tag : τ) :
    Leaves offset segments.toList (segments.retag place tag).toList := by
  obtain ⟨before, boundary, after, hlist, hboundary, hafter⟩ := exists_cut h place
  rw [toList_retag h hlist hboundary hafter]
  rw [hlist] at h ⊢
  have hpast : past offset ({ start := place, tag := tag } :: after) = past offset after := past_cons_of_le hle
  split_ifs with htag hstart hjoin
  · exact Leaves.refl h offset
  · have hbefore : before ≠ [] := by
      rintro rfl
      simp at hjoin
    apply Leaves.of_past_eq (h.remove hbefore)
    · rw [past_append, past_append, past_cons_of_le (hstart ▸ hle)]
    · exact fun found hf => .inl (subset_cons before boundary after hf)
  · apply Leaves.of_past_eq (h.replace hstart.symm)
    · rw [past_append, past_append, hpast, past_cons_of_le (hstart ▸ hle)]
    · exact fun found hf => (near_cons hnear found hf).imp_left (subset_cons before boundary after ·)
  · have hlt : boundary.start < place := by omega
    apply Leaves.of_past_eq (h.splice hlt hafter)
    · rw [List.append_cons, List.append_cons before boundary after]
      simp only [past_append, hpast]
    · rw [List.append_cons, List.append_cons before boundary after]
      exact near_cons hnear

/-- A change of the rendering at an offset concerns the last boundary at or before it. -/
theorem leaves_modify (h : IsAnchored segments.toList) (offset : Nat) {change : Boundary τ → Boundary τ}
    (hstart : ∀ boundary, (change boundary).start = boundary.start)
    (htag : ∀ boundary, (change boundary).tag = boundary.tag) :
    Leaves offset segments.toList (segments.modify offset change).toList := by
  obtain ⟨before, boundary, after, hlist, hboundary, hafter⟩ := exists_cut h offset
  rw [toList_modify h hlist hboundary hafter]
  rw [hlist] at h ⊢
  have hanchored := h.replace (hstart boundary)
  have hchanged : (change boundary).start ≤ offset := (hstart boundary).trans_le hboundary
  have hnear : ∀ found ∈ before ++ change boundary :: after,
      found ∈ before ++ boundary :: after ∨ found.start ≤ offset + 1 :=
    fun found hf => (near_cons (Nat.le_succ_of_le hchanged) found hf).imp_left
      (subset_cons before boundary after ·)
  by_cases hlt : boundary.start < offset
  · have hnone : past offset after = [] := past_eq_nil fun later hl => Nat.le_of_lt (hafter later hl)
    have hpast (last : Boundary τ) (hlast : last.start = boundary.start) :
        past offset (before ++ last :: after) = past offset before ++ [last] := by
      rw [past_append, past_cons_of_lt (hlast ▸ hlt), hnone]
    refine ⟨hanchored, ?_, ?_, hnear⟩
    · rw [hpast _ (hstart boundary), hpast _ rfl, List.dropLast_concat, List.dropLast_concat]
    · rw [hpast _ (hstart boundary), hpast _ rfl, List.map_append, List.map_append, List.map_singleton,
        List.map_singleton, hstart, htag]
  · -- the segment starts at the offset itself and is not past yet
    apply Leaves.of_past_eq hanchored _ hnear
    rw [past_append, past_append, past_cons_of_le (by rw [hstart]; omega), past_cons_of_le (by omega)]

end Edit

end Segmentation

namespace Window
open Segmentation (IsAnchored Leaves leaves_retag leaves_modify)
variable {τ : Type} [DecidableEq τ] {window : Window τ}

theorem leaves_edit (h : IsAnchored window.segments.toList) (e : Edit τ) :
    Leaves window.offset window.segments.toList (window.edit e).segments.toList := by
  cases e with
  | tagHere tag => exact leaves_retag h (Nat.le_refl _) (Nat.le_succ _) tag
  | tagNext tag =>
      rw [edit]
      split
      · exact .refl h _
      · exact leaves_retag h (Nat.le_succ _) (Nat.le_refl _) tag
  | render text => exact leaves_modify h _ (fun _ => rfl) fun _ => rfl
  | append text => exact leaves_modify h _ (Boundary.start_append · text) (Boundary.tag_append · text)

theorem leaves_editAll (h : IsAnchored window.segments.toList) (edits : List (Edit τ)) :
    Leaves window.offset window.segments.toList (window.editAll edits).segments.toList := by
  induction edits generalizing window with
  | nil => exact .refl h _
  | cons e rest ih =>
      have hfirst := leaves_edit h e
      have hrest := ih hfirst.anchored
      rw [congrArg Cursor.offset (toCursor_edit window e)] at hrest
      exact hfirst.trans hrest

end Window

namespace Segmentation
variable {τ : Type} {offset : Nat}

/-- How a visit at an offset goes on with a segmentation: the tags before the offset stay, every segment that
has ended before it stays where it stands, and nothing starts further away than right behind it. -/
structure Continues (offset : Nat) (before after : Segmentation τ) : Prop where
  tag_eq : ∀ earlier < offset, (after.holding earlier).tag = (before.holding earlier).tag
  ended : ∀ first boundary next rest, before.toList = first ++ boundary :: next :: rest →
    next.start < offset → first ++ [boundary] <+: after.toList
  start_le : ∀ boundary ∈ after.toList, boundary.start ≤ offset + 1

theorem Leaves.tag_eq {before after : Segmentation τ} (h : Leaves offset before.toList after.toList)
    (hbefore : IsAnchored before.toList) {earlier : Nat} (hlt : earlier < offset) :
    (after.holding earlier).tag = (before.holding earlier).tag := by
  have hlist (boundaries : List (Boundary τ)) :
      (past (earlier + 1) boundaries).map (fun b => (b.start, b.tag)) =
        ((past offset boundaries).map fun b => (b.start, b.tag)).filter (·.1 < earlier + 1) := by
    rw [← past_past hlt, List.filter_map]
    rfl
  have hlast {segments : Segmentation τ} (hanchored : IsAnchored segments.toList) :
      ((past (earlier + 1) segments.toList).map fun b => (b.start, b.tag)).getLast?.map Prod.snd =
        some (segments.holding earlier).tag := by
    rw [List.getLast?_map, getLast?_past hanchored]
    rfl
  apply Option.some.inj
  rw [← hlast h.anchored, ← hlast hbefore, hlist, hlist, h.tagged]

theorem Leaves.continues {before after : Segmentation τ} (h : Leaves offset before.toList after.toList)
    (hbefore : IsAnchored before.toList) (hstart : ∀ boundary ∈ before.toList, boundary.start ≤ offset) :
    Continues offset before after where
  tag_eq earlier hlt := h.tag_eq hbefore hlt
  ended first boundary next rest hlist hnext := by
    have hlist' : before.toList = first ++ [boundary] ++ next :: rest := hlist.trans (List.append_cons ..)
    rw [hlist'] at hbefore
    have hfirst : ∀ earlier ∈ first ++ [boundary], earlier.start < offset :=
      fun earlier he => (hbefore.start_lt.1 earlier he).trans hnext
    calc first ++ [boundary]
        <+: (past offset before.toList).dropLast := by
          rw [hlist', past_append, past_eq_self hfirst, past_cons_of_lt hnext,
            List.dropLast_append_cons]
          exact List.prefix_append ..
      _ = (past offset after.toList).dropLast := h.ended.symm
      _ <+: past offset after.toList := List.dropLast_prefix _
      _ <+: after.toList := past_isPrefix h.anchored.ascending
  start_le boundary hb := by
    rcases h.near boundary hb with hb | hb
    · exact Nat.le_succ_of_le (hstart boundary hb)
    · exact hb

end Segmentation

namespace Tagger
open Segmentation (IsAnchored Leaves Continues)
variable {τ σ : Type} [DecidableEq τ]

section Run
variable (tagger : Tagger τ σ) (source : Source) (initial : σ)

/-- The windows that a scan comes to: one on each character, and the last one again. -/
inductive ComesTo : Window τ → Prop
  | onChar {count : Nat} {segments : Segmentation τ} {state : σ} (hcount : count < source.length)
      (hscan : (tagger.scanTo source count).outcome initial = (.ok segments, state)) :
      ComesTo ⟨⟨source, count⟩, segments.seek count⟩
  | onEnd {segments : Segmentation τ} {state : σ} (hlength : 0 < source.length)
      (hscan : (tagger.scanTo source source.length).outcome initial = (.ok segments, state)) :
      ComesTo ⟨⟨source, source.length - 1⟩, segments.seek (source.length - 1)⟩

/-- What a scan comes to with its last visit to a character. -/
def lastVisitTo (offset : Nat) : Action σ (Segmentation τ) :=
  if offset + 1 < source.length then tagger.scanTo source (offset + 1) else tagger.scan source

end Run

variable {tagger : Tagger τ σ} {source : Source} {initial : σ}

theorem ComesTo.isAnchored_and_le {window : Window τ} (h : tagger.ComesTo source initial window) :
    IsAnchored window.segments.toList ∧ ∀ boundary ∈ window.segments.toList, boundary.start ≤ window.offset := by
  cases h with
  | onChar hcount hscan =>
      obtain ⟨ribbon, hreach, hlist⟩ := exists_reaches (Nat.le_of_lt hcount) hscan
      rw [shown, if_pos hcount] at hlist
      simp only [Segmentation.toList_seek, hlist]
      refine ⟨hreach.isSolid.isAnchored, ?_⟩
      intro boundary hb
      exact (hreach.isSolid.start_le boundary hb).trans_eq hreach.length_chars
  | onEnd hlength hscan =>
      obtain ⟨ribbon, hreach, hlist⟩ := exists_reaches (Nat.le_refl _) hscan
      rw [shown, if_neg (Nat.lt_irrefl _)] at hlist
      obtain ⟨hchars, hfull⟩ := hreach.settled hlength
      simp only [Segmentation.toList_seek, hlist]
      refine ⟨hreach.isSolid.settle.isAnchored, ?_⟩
      intro boundary hb
      have hlt := Ribbon.start_lt_of_mem hfull boundary hb
      rw [hchars] at hlt
      exact Nat.le_sub_one_of_lt hlt

/-- Whatever edits a visit makes, the tags before it stay. -/
theorem ComesTo.tag_eq {window : Window τ} (h : tagger.ComesTo source initial window)
    {segments : Segmentation τ} (hlist : window.segments.toList = segments.toList) (edits : List (Edit τ))
    {earlier : Nat} (hlt : earlier < window.offset) :
    ((window.editAll edits).segments.holding earlier).tag = (segments.holding earlier).tag := by
  have hanchored := h.isAnchored_and_le.1
  have hleaves := Window.leaves_editAll hanchored edits
  rw [hlist] at hanchored hleaves
  exact hleaves.tag_eq hanchored hlt

/-- What a scan has made of the characters that it has left stays so, however far it gets. -/
theorem exists_scanTo_of_le {count more : Nat} {later : Segmentation τ} {state : σ} (hle : count ≤ more)
    (hmore : more ≤ source.length) (h : (tagger.scanTo source more).outcome initial = (.ok later, state)) :
    ∃ segments middle, (tagger.scanTo source count).outcome initial = (.ok segments, middle) ∧
      ∀ earlier < count, (later.holding earlier).tag = (segments.holding earlier).tag := by
  induction hle generalizing later state with
  | refl => exact ⟨later, state, h, fun _ _ => rfl⟩
  | @step reached hle ih =>
      rw [scanTo_succ, Action.outcome_bind_ok] at h
      obtain ⟨before, middle, hbefore, hvisit⟩ := h
      obtain ⟨edits, -, rfl⟩ := outcome_visit_ok.mp hvisit
      obtain ⟨segments, middle', hsegments, htags⟩ := ih (Nat.le_of_succ_le hmore) hbefore
      have hcomes : tagger.ComesTo source initial ⟨⟨source, reached⟩, before.seek reached⟩ :=
        .onChar hmore hbefore
      refine ⟨segments, middle', hsegments, fun earlier hlt => ?_⟩
      rw [hcomes.tag_eq (Segmentation.toList_seek ..) edits (Nat.lt_of_lt_of_le hlt hle), htags earlier hlt]

/-- Before a visit no segment starts behind its character. Whatever edits the visit makes, they leave the tags
of all characters before it and every segment that has ended before it, and they start none further away than
right behind it. So each character ends up with the tag that it has when the last visit to it is over. -/
theorem scan_leaves_past (tagger : Tagger τ σ) (source : Source) (initial : σ) :
    (∀ window, tagger.ComesTo source initial window →
      (∀ boundary ∈ window.segments.toList, boundary.start ≤ window.offset) ∧
      ∀ edits, Continues window.offset window.segments (window.editAll edits).segments) ∧
    ∀ segments state, (tagger.scan source).outcome initial = (.ok segments, state) →
      ∀ offset < source.length, ∃ last middle,
        (tagger.lastVisitTo source offset).outcome initial = (.ok last, middle) ∧
          (segments.holding offset).tag = (last.holding offset).tag := by
  constructor
  · intro window hcomes
    obtain ⟨hanchored, hstart⟩ := hcomes.isAnchored_and_le
    exact ⟨hstart, fun edits => (Window.leaves_editAll hanchored edits).continues hanchored hstart⟩
  · intro segments state hscan offset hoffset
    rw [lastVisitTo]
    split
    next hmore =>
      have hlength : 0 < source.length := Nat.zero_lt_of_lt hoffset
      rw [scan_of_length_pos hlength, Action.outcome_bind_ok] at hscan
      obtain ⟨before, middle, hbefore, hend⟩ := hscan
      obtain ⟨edits, -, rfl⟩ := outcome_visit_ok.mp hend
      obtain ⟨last, middle', hlast, htags⟩ := exists_scanTo_of_le (Nat.le_of_lt hmore) (Nat.le_refl _) hbefore
      refine ⟨last, middle', hlast, ?_⟩
      rw [(ComesTo.onEnd hlength hbefore).tag_eq (Segmentation.toList_seek ..) edits (Nat.lt_sub_of_add_lt hmore),
        htags offset (Nat.lt_succ_self _)]
    next => exact ⟨segments, state, hscan, rfl⟩

end Tagger

end TexProse
