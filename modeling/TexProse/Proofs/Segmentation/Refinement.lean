import TexProse.Proofs.Segmentation.Focus
import TexProse.Proofs.Segmentation.OffsetMap

/-!
# Segmentations as offset maps

A segmentation replies as an offset map does. Operations may come in any order and concern any offsets, and
each of them leaves the focus somewhere else. Main statement: `replies_eq_offsetMap`, by which no reply
shows where the focus stood.

## Implementation notes

A segmentation represents a map if both have the same entries; that the boundaries ascend makes the list of
them the sorted list of the entries. An operation changes the entry at one offset on both sides, so each is
proved by `Represents.update`.
-/

namespace TexProse

namespace Segmentation

/-- What can be asked of the boundaries or done to them, at any offset. -/
inductive Operation (τ : Type) where
  | insert (offset : Nat) (tag : τ)
  | erase (offset : Nat)
  | tag (offset : Nat)
  | holding (offset : Nat)
  | preceding (offset : Nat)
  | render (offset : Nat) (text : Option String)
  | append (offset : Nat) (text : String)
  | size

inductive Reply (τ : Type) where
  | done
  | tag (tag : τ)
  | boundary (boundary : Option (Boundary τ))
  | size (count : Nat)
  deriving DecidableEq, Repr

variable {τ : Type}

/-- Carries out an operation. Every look-up moves the focus, too. -/
def perform (segments : Segmentation τ) : Operation τ → Reply τ × Segmentation τ
  | .insert offset tag => (.done, segments.insert offset tag)
  | .erase offset => (.boundary (segments.erase offset).1, (segments.erase offset).2)
  | .tag offset => (.tag (segments.holding offset).tag, segments.seek offset)
  | .holding offset => (.boundary (some (segments.holding offset)), segments.seek offset)
  | .preceding offset => (.boundary (segments.preceding? offset), segments.seek offset)
  | .render offset text => (.done, segments.modify offset (·.render text))
  | .append offset text => (.done, segments.modify offset (·.append text))
  | .size => (.size segments.size, segments)

/-- The replies to operations, each with the boundaries behind it. -/
def replies (segments : Segmentation τ) : List (Operation τ) → List (Reply τ × List (Boundary τ))
  | [] => []
  | operation :: rest =>
    let (reply, segments) := segments.perform operation
    (reply, segments.toList) :: segments.replies rest

/-- The boundaries behind operations, with the focus where the last of them has left it. -/
def performAll (segments : Segmentation τ) (operations : List (Operation τ)) : Segmentation τ :=
  operations.foldl (fun segments operation => (segments.perform operation).2) segments

end Segmentation

namespace OffsetMap
variable {τ : Type}
open Segmentation (Operation Reply)

def perform (map : OffsetMap τ) : Operation τ → Reply τ × OffsetMap τ
  | .insert offset tag => (.done, map.insert offset tag)
  | .erase offset => (.boundary (map.erase offset).1, (map.erase offset).2)
  | .tag offset => (.tag (map.entry offset).tag, map)
  | .holding offset => (.boundary (some (map.holding offset)), map)
  | .preceding offset => (.boundary (map.preceding? offset), map)
  | .render offset text => (.done, map.modify offset (·.render text))
  | .append offset text => (.done, map.modify offset (·.append text))
  | .size => (.size map.size, map)

def replies (map : OffsetMap τ) : List (Operation τ) → List (Reply τ × List (Boundary τ))
  | [] => []
  | operation :: rest =>
    let (reply, map) := map.perform operation
    (reply, map.boundaries) :: map.replies rest

def performAll (map : OffsetMap τ) (operations : List (Operation τ)) : OffsetMap τ :=
  operations.foldl (fun map operation => (map.perform operation).2) map

end OffsetMap

namespace Segmentation
variable {τ : Type}

namespace IsAnchored
variable {before after : List (Boundary τ)} {boundary : Boundary τ}

theorem nodup {boundaries : List (Boundary τ)} (h : IsAnchored boundaries) :
    (boundaries.map (·.start)).Nodup :=
  (List.pairwise_map.mpr h.ascending).imp Nat.ne_of_lt

/-- Of two boundaries at one offset there is only one. -/
theorem eq_of_start {boundaries : List (Boundary τ)} (h : IsAnchored boundaries) {first second : Boundary τ}
    (hfirst : first ∈ boundaries) (hsecond : second ∈ boundaries) (hstart : first.start = second.start) :
    first = second :=
  List.inj_on_of_nodup_map h.nodup hfirst hsecond hstart

/-- What stands at other offsets than a boundary stands before or behind it. -/
theorem mem_append_iff (h : IsAnchored (before ++ boundary :: after)) {found : Boundary τ} :
    found ∈ before ++ after ↔ found ∈ before ++ boundary :: after ∧ found.start ≠ boundary.start := by
  obtain ⟨hbefore, hafter⟩ := h.start_lt
  rw [List.perm_middle.mem_iff, List.mem_cons]
  constructor
  · intro hfound
    refine ⟨.inr hfound, ?_⟩
    rcases List.mem_append.mp hfound with hfound | hfound
    · exact Nat.ne_of_lt (hbefore found hfound)
    · exact Nat.ne_of_gt (hafter found hfound)
  · rintro ⟨rfl | hfound, hother⟩
    · exact absurd rfl hother
    · exact hfound

/-- The only boundary at its offset is the boundary itself. -/
theorem mem_iff (h : IsAnchored (before ++ boundary :: after)) {found : Boundary τ} :
    found ∈ before ++ boundary :: after ↔
      if found.start = boundary.start then some boundary = some found else found ∈ before ++ after := by
  split
  next hsame =>
    rw [Option.some.injEq]
    constructor
    · intro hfound
      exact h.eq_of_start (by simp) hfound hsame.symm
    · rintro rfl
      simp
  next hother => rw [h.mem_append_iff, and_iff_left hother]

/-- Only the starts count. -/
theorem of_map_start {boundaries boundaries' : List (Boundary τ)} (h : IsAnchored boundaries)
    (hsame : boundaries'.map (·.start) = boundaries.map (·.start)) : IsAnchored boundaries' where
  ascending := by
    have hstarts : (boundaries.map (·.start)).Pairwise (· < ·) := List.pairwise_map.mpr h.ascending
    rw [← hsame] at hstarts
    exact List.pairwise_map.mp hstarts
  head := by rw [← List.head?_map, hsame, List.head?_map, h.head]

/-- Another boundary may take the place of one with the same start. -/
theorem replace (h : IsAnchored (before ++ boundary :: after)) {boundary' : Boundary τ}
    (hstart : boundary'.start = boundary.start) : IsAnchored (before ++ boundary' :: after) :=
  h.of_map_start (by simp [hstart])

/-- A boundary may come between two neighbours. -/
theorem splice (h : IsAnchored (before ++ boundary :: after)) {boundary' : Boundary τ}
    (hlt : boundary.start < boundary'.start) (hafter : ∀ later ∈ after, boundary'.start < later.start) :
    IsAnchored (before ++ boundary :: boundary' :: after) := by
  obtain ⟨hfirst, hrest, hacross⟩ := List.pairwise_append.mp h.ascending
  obtain ⟨hlater, htail⟩ := List.pairwise_cons.mp hrest
  obtain ⟨hbefore, -⟩ := h.start_lt
  constructor
  · apply List.pairwise_append.mpr
    refine ⟨hfirst, ?_, ?_⟩
    · apply List.pairwise_cons.mpr
      refine ⟨?_, List.pairwise_cons.mpr ⟨hafter, htail⟩⟩
      intro later hl
      rcases List.mem_cons.mp hl with rfl | hl
      · exact hlt
      · exact hlater later hl
    · intro earlier he later hl
      have hless := hbefore earlier he
      rcases List.mem_cons.mp hl with rfl | hl
      · exact hless
      · rcases List.mem_cons.mp hl with rfl | hl
        · exact hless.trans hlt
        · exact hless.trans (hlater later hl)
  · cases before with
    | nil => simpa using h.head
    | cons first before => simpa using h.head

/-- A boundary behind the first may go. -/
theorem remove (h : IsAnchored (before ++ boundary :: after)) (hbefore : before ≠ []) :
    IsAnchored (before ++ after) := by
  constructor
  · exact h.ascending.sublist ((List.sublist_cons_self boundary after).append_left before)
  · cases before with
    | nil => exact absurd rfl hbefore
    | cons first before => simpa using h.head

end IsAnchored

/-- The boundaries are the entries of a map. -/
structure Represents (segments : Segmentation τ) (map : OffsetMap τ) : Prop where
  anchored : IsAnchored segments.toList
  mem_iff : ∀ boundary, boundary ∈ segments.toList ↔ map.boundary? boundary.start = some boundary

theorem represents_single (tag : τ) : Represents (single tag) (.single tag) where
  anchored := ⟨List.pairwise_singleton _ _, rfl⟩
  mem_iff boundary := by
    rw [toList_single, List.mem_singleton, OffsetMap.boundary?, OffsetMap.single]
    by_cases hstart : boundary.start = 0
    · rw [hstart, Finmap.lookup_singleton_eq, Option.map_some, Option.some.injEq]
      exact eq_comm
    · have hnone : (OffsetMap.single tag).entries.lookup boundary.start = none :=
        Finmap.lookup_eq_none.mpr fun hmem => hstart ((Finmap.mem_singleton _ _ _).mp hmem)
      rw [OffsetMap.single] at hnone
      rw [hnone, Option.map_none]
      constructor
      · rintro rfl
        exact absurd rfl hstart
      · intro hsome
        cases hsome

/-- Every offset lies between two neighbours. -/
theorem exists_cut {segments : Segmentation τ} (h : IsAnchored segments.toList) (offset : Nat) :
    ∃ before boundary after, segments.toList = before ++ boundary :: after ∧ boundary.start ≤ offset ∧
      ∀ later ∈ after, offset < later.start := by
  obtain ⟨hle, hlt⟩ := seek_spec h offset
  exact ⟨_, _, _, (toList_seek segments offset).symm, hle, hlt⟩

namespace Represents
variable {segments : Segmentation τ} {map : OffsetMap τ} (h : Represents segments map)
include h

theorem mem_entries_iff {offset : Nat} :
    offset ∈ map.entries ↔ ∃ boundary ∈ segments.toList, boundary.start = offset := by
  rw [Finmap.mem_iff]
  constructor
  · rintro ⟨entry, hentry⟩
    refine ⟨entry.boundary offset, (h.mem_iff _).mpr ?_, rfl⟩
    rw [OffsetMap.boundary?, OffsetMap.Entry.start_boundary, hentry, Option.map_some]
  · rintro ⟨boundary, hboundary, rfl⟩
    obtain ⟨entry, hentry, -⟩ := Option.map_eq_some_iff.mp ((h.mem_iff boundary).mp hboundary)
    exact ⟨entry, hentry⟩

theorem toList_eq : segments.toList = map.boundaries := by
  have hascending : map.boundaries.Pairwise fun a b => a.start < b.start := by
    apply List.pairwise_filterMap.mpr
    apply (Finset.sortedLT_sort map.entries.keys).pairwise.imp
    intro offset offset' hlt boundary hb boundary' hb'
    obtain ⟨entry, -, rfl⟩ := Option.map_eq_some_iff.mp hb
    obtain ⟨entry', -, rfl⟩ := Option.map_eq_some_iff.mp hb'
    exact hlt
  have hsame : ∀ boundary, boundary ∈ segments.toList ↔ boundary ∈ map.boundaries := by
    intro boundary
    rw [h.mem_iff, OffsetMap.boundaries, List.mem_filterMap]
    constructor
    · intro hfound
      obtain ⟨entry, hentry, -⟩ := Option.map_eq_some_iff.mp hfound
      refine ⟨boundary.start, ?_, hfound⟩
      rw [Finset.mem_sort, Finmap.mem_keys]
      exact Finmap.mem_of_lookup_eq_some hentry
    · rintro ⟨offset, -, hfound⟩
      obtain ⟨entry, hentry, rfl⟩ := Option.map_eq_some_iff.mp hfound
      exact Option.map_eq_some_iff.mpr ⟨entry, hentry, rfl⟩
  have hperm : segments.toList.Perm map.boundaries :=
    (List.perm_ext_iff_of_nodup (h.anchored.ascending.imp fun hlt heq => by simp [heq] at hlt)
      (hascending.imp fun hlt heq => by simp [heq] at hlt)).mpr hsame
  exact hperm.eq_of_pairwise (fun a b _ _ hab hba => absurd hab (Nat.lt_asymm hba)) h.anchored.ascending
    hascending

theorem size_eq : segments.size = map.size := by
  have hkeys : map.entries.keys = (segments.toList.map (·.start)).toFinset := by
    ext offset
    rw [Finmap.mem_keys, h.mem_entries_iff, List.mem_toFinset, List.mem_map]
  rw [OffsetMap.size, hkeys, List.toFinset_card_of_nodup h.anchored.nodup, List.length_map, length_toList]

section Cut
variable {before after : List (Boundary τ)} {boundary : Boundary τ} {offset : Nat}
variable (hlist : segments.toList = before ++ boundary :: after) (hle : boundary.start ≤ offset)
variable (hlt : ∀ later ∈ after, offset < later.start)
include hlist hle hlt

theorem floor_eq : map.floor offset = boundary.start := by
  apply Nat.le_antisymm
  · apply Finset.max'_le
    intro other hother
    obtain ⟨hmem, hother⟩ := Finset.mem_filter.mp hother
    obtain ⟨found, hfound, rfl⟩ := h.mem_entries_iff.mp (Finmap.mem_keys.mp hmem)
    rw [hlist] at hfound
    rcases List.mem_append.mp hfound with hfound | hfound
    · exact Nat.le_of_lt ((hlist ▸ h.anchored).start_lt.1 found hfound)
    · rcases List.mem_cons.mp hfound with rfl | hfound
      · exact Nat.le_refl _
      · have := hlt found hfound
        omega
  · apply Finset.le_max'
    apply Finset.mem_filter.mpr
    refine ⟨Finmap.mem_keys.mpr (h.mem_entries_iff.mpr ⟨boundary, ?_, rfl⟩), hle⟩
    simp [hlist]

theorem holding_eq : map.holding offset = boundary := by
  have hfound := (h.mem_iff boundary).mp (by simp [hlist])
  obtain ⟨entry, hentry, hboundary⟩ := Option.map_eq_some_iff.mp hfound
  have hfloor := h.floor_eq hlist hle hlt
  rw [← hfloor] at hentry
  rw [OffsetMap.holding, OffsetMap.entry, Option.get_of_eq_some _ hentry, hfloor, hboundary]

theorem preceding?_eq : map.preceding? offset = before.getLast? := by
  have hfloor := h.floor_eq hlist hle hlt
  obtain ⟨hbefore, hafter⟩ := (hlist ▸ h.anchored).start_lt
  have hearlier : ∀ other, other ∈ map.entries.keys.filter (· < map.floor offset) ↔
      ∃ found ∈ before, found.start = other := by
    intro other
    rw [Finset.mem_filter, Finmap.mem_keys, h.mem_entries_iff, hfloor]
    constructor
    · rintro ⟨⟨found, hfound, rfl⟩, hless⟩
      rw [hlist] at hfound
      rcases List.mem_append.mp hfound with hfound | hfound
      · exact ⟨found, hfound, rfl⟩
      · rcases List.mem_cons.mp hfound with rfl | hfound
        · omega
        · have := hafter found hfound
          omega
    · rintro ⟨found, hfound, rfl⟩
      exact ⟨⟨found, by simp [hlist, hfound], rfl⟩, hbefore found hfound⟩
  rw [OffsetMap.preceding?]
  rcases List.eq_nil_or_concat' before with rfl | ⟨initial, last, rfl⟩
  · rw [dif_neg]
    · rfl
    · rintro ⟨other, hother⟩
      obtain ⟨found, hfound, -⟩ := (hearlier other).mp hother
      cases hfound
  · have hlast : last.start ∈ map.entries.keys.filter (· < map.floor offset) :=
      (hearlier _).mpr ⟨last, by simp, rfl⟩
    have hmax : (map.entries.keys.filter (· < map.floor offset)).max' ⟨_, hlast⟩ = last.start := by
      apply Nat.le_antisymm _ (Finset.le_max' _ _ hlast)
      apply Finset.max'_le
      intro other hother
      obtain ⟨found, hfound, rfl⟩ := (hearlier other).mp hother
      have hanchored := hlist ▸ h.anchored
      rw [List.append_assoc] at hanchored
      rcases List.mem_append.mp hfound with hfound | hfound
      · exact Nat.le_of_lt (hanchored.start_lt.1 found hfound)
      · rw [List.mem_singleton.mp hfound]
    rw [dif_pos ⟨_, hlast⟩, hmax, List.getLast?_append_of_ne_nil _ (by simp), List.getLast?_singleton]
    exact (h.mem_iff last).mp (by simp [hlist])

end Cut

/-- Both sides may change at one offset. -/
theorem update {segments' : Segmentation τ} {map' : OffsetMap τ} {offset : Nat}
    {value : Option (Boundary τ)} (hanchored : IsAnchored segments'.toList)
    (hlist : ∀ boundary, boundary ∈ segments'.toList ↔
      if boundary.start = offset then value = some boundary else boundary ∈ segments.toList)
    (hmap : ∀ other, map'.boundary? other = if other = offset then value else map.boundary? other) :
    Represents segments' map' where
  anchored := hanchored
  mem_iff boundary := by
    rw [hlist, hmap]
    split
    · exact Iff.rfl
    · exact h.mem_iff boundary

theorem insert (offset : Nat) (tag : τ) :
    Represents (segments.insert offset tag) (map.insert offset tag) := by
  obtain ⟨before, boundary, after, hlist, hle, hlt⟩ := exists_cut h.anchored offset
  have hanchored := hlist ▸ h.anchored
  have hinsert := toList_insert h.anchored hlist hle hlt tag
  by_cases hstart : boundary.start = offset
  · rw [if_pos hstart] at hinsert
    have hput : IsAnchored (before ++ { start := offset, tag := tag } :: after) :=
      hanchored.replace hstart.symm
    apply h.update (hinsert ▸ hput) _ OffsetMap.boundary?_set
    intro found
    rw [hinsert, hlist, hput.mem_iff, hanchored.mem_append_iff, hstart]
    split
    next => rfl
    next hother => rw [and_iff_left hother]
  · rw [if_neg hstart] at hinsert
    have hput : IsAnchored (before ++ boundary :: { start := offset, tag := tag } :: after) :=
      hanchored.splice (Nat.lt_of_le_of_ne hle hstart) hlt
    apply h.update (hinsert ▸ hput) _ OffsetMap.boundary?_set
    intro found
    rw [List.append_cons] at hput hinsert hlist
    rw [hinsert, hlist, hput.mem_iff]
    rfl

/-- A change of the entry that holds at an offset is the same change of its boundary. -/
theorem modify (change : Boundary τ → Boundary τ) (change' : OffsetMap.Entry τ → OffsetMap.Entry τ)
    (hchange : ∀ entry start, (change' entry).boundary start = change (entry.boundary start)) (offset : Nat) :
    Represents (segments.modify offset change) (map.modify offset change') := by
  obtain ⟨before, boundary, after, hlist, hle, hlt⟩ := exists_cut h.anchored offset
  have hanchored := hlist ▸ h.anchored
  have hmodify := toList_modify h.anchored hlist hle hlt change
  have hfloor := h.floor_eq hlist hle hlt
  have hchanged : (change' (map.entry offset)).boundary (map.floor offset) = change boundary := by
    rw [hchange, ← h.holding_eq hlist hle hlt, OffsetMap.holding]
  have hstart : (change boundary).start = boundary.start := by
    rw [← hchanged, OffsetMap.Entry.start_boundary, hfloor]
  have hput := hanchored.replace hstart
  apply h.update (hmodify ▸ hput) _ OffsetMap.boundary?_set
  intro found
  rw [hmodify, hlist, hput.mem_iff, hanchored.mem_append_iff, hchanged, hfloor, hstart]
  split
  next => rfl
  next hother => rw [and_iff_left hother]

/-- Wherever the focus stands, the entries are the same. -/
theorem of_toList_eq {segments' : Segmentation τ} (hsame : segments'.toList = segments.toList) :
    Represents segments' map := by
  constructor
  · rw [hsame]
    exact h.anchored
  · rw [hsame]
    exact h.mem_iff

omit h in
theorem erase_of_not {segments : Segmentation τ} {offset : Nat}
    (hnot : ¬ (offset ≠ 0 ∧ (segments.holding offset).start = offset)) :
    segments.erase offset = (none, segments.seek offset) := by
  simp only [Segmentation.erase]
  split
  · exact if_neg hnot
  · rfl

/-- The same boundary goes on both sides, or none. -/
theorem erase (offset : Nat) :
    (segments.erase offset).1 = (map.erase offset).1 ∧
      Represents (segments.erase offset).2 (map.erase offset).2 := by
  obtain ⟨before, boundary, after, hlist, hle, hlt⟩ := exists_cut h.anchored offset
  have hanchored := hlist ▸ h.anchored
  have hholding := Segmentation.holding_eq h.anchored hlist hle hlt
  have hsame := toList_seek segments offset
  by_cases hzero : offset = 0
  · rw [erase_of_not fun hgoes => hgoes.1 hzero, OffsetMap.erase, dif_pos hzero]
    exact ⟨rfl, h.of_toList_eq hsame⟩
  · by_cases hstart : boundary.start = offset
    · have hbefore : before ≠ [] := by
        rintro rfl
        have hhead := hanchored.head
        rw [List.nil_append, List.head?_cons, Option.map_some, Option.some.injEq, hstart] at hhead
        exact hzero hhead
      have hcut := toList_erase h.anchored hlist hle hlt hstart hbefore
      constructor
      · obtain ⟨initial, previous, rfl⟩ := (List.eq_nil_or_concat' before).resolve_left hbefore
        have hfound := (h.mem_iff boundary).mp (by simp [hlist])
        rw [hstart] at hfound
        simp only [Segmentation.erase, seek_eq h.anchored hlist hle hlt]
        simp [OffsetMap.erase, hzero, hstart, hfound]
      · apply h.update (hcut ▸ hanchored.remove hbefore) _ (OffsetMap.boundary?_erase hzero)
        intro found
        rw [hcut, hlist, hanchored.mem_append_iff, hstart]
        split
        next hgone => simp [hgone]
        next hother => rw [and_iff_left hother]
    · have hnone : map.boundary? offset = none := by
        apply Option.map_eq_none_iff.mpr
        apply Finmap.lookup_eq_none.mpr
        intro hmem
        obtain ⟨found, hfound, rfl⟩ := h.mem_entries_iff.mp hmem
        rcases List.mem_append.mp (hlist ▸ hfound) with hfound | hfound
        · exact Nat.not_le.mpr (hanchored.start_lt.1 found hfound) hle
        · rcases List.mem_cons.mp hfound with rfl | hfound
          · exact hstart rfl
          · exact Nat.lt_irrefl _ (hlt found hfound)
      have hvalue : (map.erase offset).1 = none := by rw [OffsetMap.erase, dif_neg hzero, hnone]
      rw [erase_of_not fun hgoes => hstart (hholding ▸ hgoes.2), hvalue]
      refine ⟨rfl, (h.of_toList_eq hsame).update (hsame ▸ h.anchored) ?_ (OffsetMap.boundary?_erase hzero)⟩
      intro found
      split
      next hgone =>
        rw [hsame, h.mem_iff, hgone, hnone]
      next hother => rfl

/-- One operation replies alike on both sides and leaves them alike. -/
theorem perform (operation : Operation τ) :
    (segments.perform operation).1 = (map.perform operation).1 ∧
      Represents (segments.perform operation).2 (map.perform operation).2 := by
  have hseek (offset : Nat) : Represents (segments.seek offset) map := h.of_toList_eq (toList_seek _ _)
  have hholding (offset : Nat) : segments.holding offset = map.holding offset := by
    obtain ⟨before, boundary, after, hlist, hle, hlt⟩ := exists_cut h.anchored offset
    rw [Segmentation.holding_eq h.anchored hlist hle hlt, h.holding_eq hlist hle hlt]
  cases operation with
  | insert offset tag => exact ⟨rfl, h.insert offset tag⟩
  | erase offset => exact ⟨congrArg Reply.boundary (h.erase offset).1, (h.erase offset).2⟩
  | tag offset =>
      have htag : (segments.holding offset).tag = (map.entry offset).tag := by rw [hholding]; rfl
      exact ⟨congrArg Reply.tag htag, hseek offset⟩
  | holding offset => exact ⟨congrArg (Reply.boundary ∘ some) (hholding offset), hseek offset⟩
  | preceding offset =>
      obtain ⟨before, boundary, after, hlist, hle, hlt⟩ := exists_cut h.anchored offset
      refine ⟨congrArg Reply.boundary ?_, hseek offset⟩
      rw [Segmentation.preceding?_eq h.anchored hlist hle hlt, h.preceding?_eq hlist hle hlt]
  | render offset text =>
      exact ⟨rfl, h.modify (·.render text) (·.render text)
        (fun entry start => entry.boundary_render text start) offset⟩
  | append offset text =>
      exact ⟨rfl, h.modify (·.append text) (·.append text)
        (fun entry start => entry.boundary_append text start) offset⟩
  | size => exact ⟨congrArg Reply.size h.size_eq, h⟩

theorem replies (operations : List (Operation τ)) : segments.replies operations = map.replies operations := by
  induction operations generalizing segments map with
  | nil => rfl
  | cons operation rest ih =>
      obtain ⟨hreply, hnext⟩ := h.perform operation
      simp only [Segmentation.replies, OffsetMap.replies, hreply, hnext.toList_eq, ih hnext]

theorem performAll (operations : List (Operation τ)) :
    Represents (segments.performAll operations) (map.performAll operations) := by
  induction operations generalizing segments map with
  | nil => exact h
  | cons operation rest ih => exact ih (h.perform operation).2

/-- The boundaries behind each operation ascend from the start of the text. -/
theorem isAnchored_of_mem_replies {operations : List (Operation τ)} {reply : Reply τ × List (Boundary τ)}
    (hreply : reply ∈ segments.replies operations) : IsAnchored reply.2 := by
  induction operations generalizing segments map with
  | nil => cases hreply
  | cons operation rest ih =>
      obtain ⟨-, hnext⟩ := h.perform operation
      rcases List.mem_cons.mp hreply with rfl | hreply
      · exact hnext.anchored
      · exact ih hnext hreply

end Represents

/-- From a single segment on, all operations in whatever order reply as on a finite map of offsets, and the
boundaries behind each of them are the entries of the map: they ascend from the start of the text. What
operations have left replies any further ones alike wherever the focus stands. -/
theorem replies_eq_offsetMap (tag : τ) (operations : List (Operation τ)) :
    (single tag).replies operations = (OffsetMap.single tag).replies operations ∧
      ((single tag).performAll operations).toList =
        ((OffsetMap.single tag).performAll operations).boundaries ∧
      (∀ reply ∈ (single tag).replies operations, IsAnchored reply.2) ∧
      ∀ segments : Segmentation τ, segments.toList = ((single tag).performAll operations).toList →
        ∀ further, segments.replies further = ((single tag).performAll operations).replies further := by
  have hstart := represents_single tag
  have hleft := hstart.performAll operations
  refine ⟨hstart.replies operations, hleft.toList_eq, ?_, ?_⟩
  · intro reply hreply
    exact hstart.isAnchored_of_mem_replies hreply
  · intro segments hsame further
    rw [hleft.replies, (hleft.of_toList_eq hsame).replies]

end Segmentation
end TexProse
