import Mathlib.Data.Finmap
import Mathlib.Data.Finset.Max
import Mathlib.Data.Finset.Sort
import TexProse.Segmentation

/-!
# Offset maps

A finite map from offsets that always has an entry at 0. What holds at an offset is the entry with the
greatest offset at or before it. There is no order of access here and nothing that moves.
-/

namespace TexProse

namespace OffsetMap

/-- What a map knows of a segment. The empty text stands for no rendering. -/
structure Entry (τ : Type) where
  tag : τ
  rendering : String := ""
  deriving DecidableEq, Repr

namespace Entry
variable {τ : Type}

/-- The entry as the boundary of a segment that starts at an offset. -/
def boundary (entry : Entry τ) (start : Nat) : Boundary τ :=
  ⟨start, entry.tag, if entry.rendering = "" then none else some entry.rendering⟩

@[simp] theorem start_boundary (entry : Entry τ) (start : Nat) : (entry.boundary start).start = start := rfl

/-- Replaces the rendering. -/
def render (entry : Entry τ) (text : Option String) : Entry τ :=
  { entry with rendering := text.getD "" }

/-- Continues the rendering. -/
def append (entry : Entry τ) (text : String) : Entry τ :=
  { entry with rendering := entry.rendering ++ text }

theorem boundary_render (entry : Entry τ) (text : Option String) (start : Nat) :
    (entry.render text).boundary start = (entry.boundary start).render text := by
  cases text with
  | none => rfl
  | some text =>
      by_cases hempty : text = ""
      · simp [render, boundary, Boundary.render, hempty, Option.filter]
      · simp [render, boundary, Boundary.render, hempty, Option.filter]

theorem boundary_append (entry : Entry τ) (text : String) (start : Nat) :
    (entry.append text).boundary start = (entry.boundary start).append text := by
  by_cases hempty : text = ""
  · simp [append, boundary, Boundary.append, hempty]
  · by_cases hnone : entry.rendering = "" <;>
      simp [append, boundary, Boundary.append, hempty, hnone]

end Entry
end OffsetMap

/-- A finite map from offsets, one of which is 0. -/
structure OffsetMap (τ : Type) where
  entries : Finmap fun _ : Nat => OffsetMap.Entry τ
  zero_mem : 0 ∈ entries

namespace OffsetMap
variable {τ : Type}

/-- One entry, for the whole text. -/
def single (tag : τ) : OffsetMap τ := ⟨.singleton 0 { tag := tag }, by simp⟩

/-- The entry right at an offset, as a boundary. -/
def boundary? (map : OffsetMap τ) (offset : Nat) : Option (Boundary τ) :=
  (map.entries.lookup offset).map (·.boundary offset)

theorem nonempty_keys (map : OffsetMap τ) (offset : Nat) :
    (map.entries.keys.filter (· ≤ offset)).Nonempty :=
  ⟨0, Finset.mem_filter.mpr ⟨Finmap.mem_keys.mpr map.zero_mem, Nat.zero_le _⟩⟩

/-- The greatest offset with an entry at or before the one that is given. -/
def floor (map : OffsetMap τ) (offset : Nat) : Nat :=
  (map.entries.keys.filter (· ≤ offset)).max' (map.nonempty_keys offset)

theorem floor_mem (map : OffsetMap τ) (offset : Nat) : map.floor offset ∈ map.entries := by
  have hmem := Finset.max'_mem _ (map.nonempty_keys offset)
  exact Finmap.mem_keys.mp (Finset.mem_filter.mp hmem).1

/-- The entry that holds at an offset. There is always one. -/
def entry (map : OffsetMap τ) (offset : Nat) : Entry τ :=
  (map.entries.lookup (map.floor offset)).get (Finmap.lookup_isSome.mpr (map.floor_mem offset))

def holding (map : OffsetMap τ) (offset : Nat) : Boundary τ := (map.entry offset).boundary (map.floor offset)

/-- The entry with the next smaller offset. -/
def preceding? (map : OffsetMap τ) (offset : Nat) : Option (Boundary τ) :=
  let earlier := map.entries.keys.filter (· < map.floor offset)
  if h : earlier.Nonempty then map.boundary? (earlier.max' h) else none

def insert (map : OffsetMap τ) (offset : Nat) (tag : τ) : OffsetMap τ :=
  ⟨map.entries.insert offset { tag := tag }, by simp [map.zero_mem]⟩

/-- Removes the entry right at an offset, but never the one at 0. -/
def erase (map : OffsetMap τ) (offset : Nat) : Option (Boundary τ) × OffsetMap τ :=
  if h : offset = 0 then (none, map)
  else (map.boundary? offset, ⟨map.entries.erase offset, by simp [map.zero_mem, Ne.symm h]⟩)

/-- Changes the entry that holds at an offset. -/
def modify (map : OffsetMap τ) (offset : Nat) (change : Entry τ → Entry τ) : OffsetMap τ :=
  ⟨map.entries.insert (map.floor offset) (change (map.entry offset)), by simp [map.zero_mem]⟩

theorem boundary?_set {map : OffsetMap τ} {offset : Nat} {entry : Entry τ}
    {hzero : 0 ∈ map.entries.insert offset entry} (other : Nat) :
    boundary? ⟨map.entries.insert offset entry, hzero⟩ other =
      if other = offset then some (entry.boundary offset) else map.boundary? other := by
  split
  next hsame => rw [hsame, boundary?, Finmap.lookup_insert, Option.map_some]
  next hother => rw [boundary?, Finmap.lookup_insert_of_ne _ hother, boundary?]

theorem boundary?_erase {map : OffsetMap τ} {offset : Nat} (hoffset : offset ≠ 0) (other : Nat) :
    (map.erase offset).2.boundary? other = if other = offset then none else map.boundary? other := by
  rw [erase, dif_neg hoffset]
  split
  next hsame => rw [hsame, boundary?, Finmap.lookup_erase, Option.map_none]
  next hother => rw [boundary?, Finmap.lookup_erase_ne hother, boundary?]

def size (map : OffsetMap τ) : Nat := map.entries.keys.card

/-- All entries by ascending offset. -/
def boundaries (map : OffsetMap τ) : List (Boundary τ) :=
  (map.entries.keys.sort (· ≤ ·)).filterMap map.boundary?

end OffsetMap
end TexProse
