import TexProse.Segmentation
import Mathlib.Data.List.Basic

/-!
# The focus of a segmentation

Boundaries that ascend from the start of the text have exactly one cut with the focus at or before an
offset and all later boundaries behind it. Moving the focus finds that cut from wherever it stands, so
each access can be read off the list of the boundaries.
-/

namespace TexProse.Segmentation
variable {τ : Type} {segments : Segmentation τ} {offset : Nat}

/-- The boundaries ascend, and the first stands at the start of the text. -/
structure IsAnchored (boundaries : List (Boundary τ)) : Prop where
  ascending : boundaries.Pairwise fun a b => a.start < b.start
  head : boundaries.head?.map (·.start) = some 0

theorem IsAnchored.start_lt {before after : List (Boundary τ)} {boundary : Boundary τ}
    (h : IsAnchored (before ++ boundary :: after)) :
    (∀ earlier ∈ before, earlier.start < boundary.start) ∧
      ∀ later ∈ after, boundary.start < later.start := by
  obtain ⟨_, hafter, hbefore⟩ := List.pairwise_append.mp h.ascending
  exact ⟨fun earlier he => hbefore earlier he boundary (by simp),
    (List.pairwise_cons.mp hafter).1⟩

theorem forward_spec (before : List (Boundary τ)) (focus : Boundary τ) (after : List (Boundary τ))
    (hfocus : focus.start ≤ offset) (hafter : after.Pairwise fun a b => a.start < b.start) :
    (forward offset before focus after).focus.start ≤ offset ∧
      ∀ later ∈ (forward offset before focus after).after, offset < later.start := by
  induction after generalizing before focus with
  | nil =>
      constructor
      · exact hfocus
      · intro later hl
        exact absurd hl List.not_mem_nil
  | cons next after ih =>
      obtain ⟨hnext, hrest⟩ := List.pairwise_cons.mp hafter
      rw [forward]
      split
      next hle => exact ih (focus :: before) next hle hrest
      next hgt =>
        constructor
        · exact hfocus
        · intro later hl
          rcases List.mem_cons.mp hl with rfl | hl
          · omega
          · have := hnext later hl
            omega

theorem backward_spec (focus : Boundary τ) (after before : List (Boundary τ))
    (hhead : (before.reverse ++ [focus]).head?.map (·.start) = some 0)
    (hafter : ∀ later ∈ after, offset < later.start) :
    (backward offset focus after before).focus.start ≤ offset ∧
      ∀ later ∈ (backward offset focus after before).after, offset < later.start := by
  induction before generalizing focus after with
  | nil =>
      have hzero : focus.start = 0 := by simpa using hhead
      exact ⟨by simp [backward, hzero], hafter⟩
  | cons previous before ih =>
      rw [backward]
      split
      next hle => exact ⟨hle, hafter⟩
      next hgt =>
        apply ih
        · simpa [List.head?_append] using hhead
        · intro later hl
          rcases List.mem_cons.mp hl with rfl | hl
          · omega
          · exact hafter later hl

/-- The focus comes to stand at or before the offset and everything behind it lies behind the offset. -/
theorem seek_spec (h : IsAnchored segments.toList) (offset : Nat) :
    (segments.seek offset).focus.start ≤ offset ∧
      ∀ later ∈ (segments.seek offset).after, offset < later.start := by
  obtain ⟨_, hafter⟩ := IsAnchored.start_lt h
  rw [seek]
  split
  next hle =>
    have hright := (List.pairwise_append.mp h.ascending).2.1
    exact forward_spec _ _ _ hle (List.pairwise_cons.mp hright).2
  next hgt =>
    apply backward_spec
    · have hhead := h.head
      rw [toList, ← List.singleton_append, ← List.append_assoc, List.head?_append] at hhead
      simpa using hhead
    · intro later hl
      have := hafter later hl
      omega

/-- Only one cut of the boundaries has the offset between its parts. -/
theorem cut_unique {A B C D : List (Boundary τ)} {x y : Boundary τ}
    (h : A ++ x :: B = C ++ y :: D)
    (hx : x.start ≤ offset) (hB : ∀ later ∈ B, offset < later.start)
    (hy : y.start ≤ offset) (hD : ∀ later ∈ D, offset < later.start) :
    A = C ∧ x = y ∧ B = D := by
  induction A generalizing C with
  | nil =>
      cases C with
      | nil => simpa using h
      | cons c C =>
          obtain ⟨rfl, rfl⟩ : x = c ∧ B = C ++ y :: D := by simpa using h
          have := hB y (by simp)
          omega
  | cons a A ih =>
      cases C with
      | nil =>
          obtain ⟨rfl, rfl⟩ : a = y ∧ A ++ x :: B = D := by simpa using h
          have := hD x (by simp)
          omega
      | cons c C =>
          obtain ⟨rfl, hrest⟩ : a = c ∧ A ++ x :: B = C ++ y :: D := by simpa using h
          obtain ⟨rfl, rfl, rfl⟩ := ih hrest
          exact ⟨rfl, rfl, rfl⟩

section Cut
variable {before after : List (Boundary τ)} {boundary : Boundary τ}
variable (h : IsAnchored segments.toList) (hlist : segments.toList = before ++ boundary :: after)
variable (hle : boundary.start ≤ offset) (hlt : ∀ later ∈ after, offset < later.start)
include h hlist hle hlt

/-- Wherever the focus stood, it moves to the cut around the offset. -/
theorem seek_eq : segments.seek offset = ⟨before.reverse, boundary, after⟩ := by
  obtain ⟨hfocus, hafter⟩ := seek_spec h offset
  have hcut : (segments.seek offset).before.reverse ++
      (segments.seek offset).focus :: (segments.seek offset).after = before ++ boundary :: after :=
    (toList_seek segments offset).trans hlist
  obtain ⟨hb, hf, ha⟩ := cut_unique hcut hfocus hafter hle hlt
  rw [← hb, ← hf, ← ha, List.reverse_reverse]

theorem holding_eq : segments.holding offset = boundary := by
  rw [holding, seek_eq h hlist hle hlt]

theorem preceding?_eq : segments.preceding? offset = before.getLast? := by
  rw [preceding?, seek_eq h hlist hle hlt, List.head?_reverse]

theorem toList_modify (change : Boundary τ → Boundary τ) :
    (segments.modify offset change).toList = before ++ change boundary :: after := by
  simp only [modify, seek_eq h hlist hle hlt, toList, List.reverse_reverse]

theorem toList_insert (tag : τ) :
    (segments.insert offset tag).toList =
      if boundary.start = offset then before ++ { start := offset, tag := tag } :: after
      else before ++ boundary :: { start := offset, tag := tag } :: after := by
  simp only [insert, seek_eq h hlist hle hlt]
  split <;> simp [toList]

/-- A boundary that stands at the offset goes, if it is not the first. -/
theorem toList_erase (hstart : boundary.start = offset) (hbefore : before ≠ []) :
    (segments.erase offset).2.toList = before ++ after := by
  obtain ⟨initial, previous, rfl⟩ := (List.eq_nil_or_concat' before).resolve_left hbefore
  have hprev : previous.start < boundary.start :=
    (IsAnchored.start_lt (hlist ▸ h)).1 previous (by simp)
  have hzero : offset ≠ 0 := by omega
  simp [erase, seek_eq h hlist hle hlt, hstart, hzero, toList]

/-- What a new tag from the offset on does to the boundaries. -/
theorem toList_retag [DecidableEq τ] (tag : τ) :
    (segments.retag offset tag).toList =
      if boundary.tag = tag then before ++ boundary :: after
      else if boundary.start = offset then
        if before.getLast?.map (·.tag) = some tag then before ++ after
        else before ++ { start := offset, tag := tag } :: after
      else before ++ boundary :: { start := offset, tag := tag } :: after := by
  rw [retag]
  simp only [holding_eq h hlist hle hlt, preceding?_eq h hlist hle hlt]
  split
  · exact hlist
  · split
    next hjoin =>
      have hbefore : before ≠ [] := by
        rintro rfl
        simp at hjoin
      rw [toList_erase h hlist hle hlt hjoin.1 hbefore, if_pos hjoin.1, if_pos hjoin.2]
    next hjoin =>
      rw [toList_insert h hlist hle hlt]
      by_cases hstart : boundary.start = offset
      · rw [if_pos hstart, if_pos hstart, if_neg fun hp => hjoin ⟨hstart, hp⟩]
      · rw [if_neg hstart, if_neg hstart]

end Cut

end TexProse.Segmentation
