import TexProse.Proofs.Segmentation.Focus
import TexProse.Tagging.Window
import Mathlib.Data.List.Chain

/-!
# Ribbons

The text read so far as a stack of segments with their characters. Edits at the current character work
on its top, and only the top may be empty. The boundaries of a segmentation are this stack, read from the
bottom, with the characters counted.
-/

namespace TexProse

/-- A segment with the characters it holds so far. -/
structure Stretch (τ : Type) where
  tag : τ
  chars : List Char := []
  rendering : Option String := none
  deriving DecidableEq, Repr

namespace Stretch
variable {τ : Type}

def boundary (stretch : Stretch τ) (start : Nat) : Boundary τ :=
  ⟨start, stretch.tag, stretch.rendering⟩

/-- Changes the rendering as the same change of the boundary does. -/
def amend (change : Boundary τ → Boundary τ) (stretch : Stretch τ) : Stretch τ :=
  { stretch with rendering := (change (stretch.boundary 0)).rendering }

@[simp] theorem tag_amend (change : Boundary τ → Boundary τ) (stretch : Stretch τ) :
    (stretch.amend change).tag = stretch.tag := rfl

@[simp] theorem chars_amend (change : Boundary τ → Boundary τ) (stretch : Stretch τ) :
    (stretch.amend change).chars = stretch.chars := rfl

theorem boundary_render (stretch : Stretch τ) (text : Option String) (start : Nat) :
    (stretch.amend (·.render text)).boundary start = (stretch.boundary start).render text := rfl

theorem boundary_append (stretch : Stretch τ) (text : String) (start : Nat) :
    (stretch.amend (·.append text)).boundary start = (stretch.boundary start).append text := by
  unfold amend Boundary.append boundary
  split <;> rfl

end Stretch

/-- The segments of the text read so far, the last one first. -/
abbrev Ribbon (τ : Type) := List (Stretch τ)

namespace Ribbon
variable {τ : Type}

/-- The text read so far. -/
def chars : Ribbon τ → List Char
  | [] => []
  | last :: rest => chars rest ++ last.chars

/-- The boundaries from left to right. -/
def boundaries : Ribbon τ → List (Boundary τ)
  | [] => []
  | last :: rest => boundaries rest ++ [last.boundary (chars rest).length]

theorem length_boundaries (ribbon : Ribbon τ) : (boundaries ribbon).length = ribbon.length := by
  induction ribbon with
  | nil => rfl
  | cons last rest ih => simp [boundaries, ih]

theorem getLast?_boundaries (ribbon : Ribbon τ) :
    (boundaries ribbon).getLast?.map (·.tag) = ribbon.head?.map (·.tag) := by
  cases ribbon <;> simp [boundaries, Stretch.boundary]

/-- Only the last segment may be empty still. -/
structure IsSolid (ribbon : Ribbon τ) : Prop where
  ne_nil : ribbon ≠ []
  tail_ne_nil : ∀ stretch ∈ ribbon.tail, stretch.chars ≠ []

def tags (ribbon : Ribbon τ) : List τ := ribbon.map (·.tag)

/-- No two neighbours have one tag. -/
def IsVaried (ribbon : Ribbon τ) : Prop := (tags ribbon).IsChain (· ≠ ·)

theorem map_tag_boundaries (ribbon : Ribbon τ) :
    (boundaries ribbon).map (·.tag) = (tags ribbon).reverse := by
  induction ribbon with
  | nil => rfl
  | cons last rest ih => simpa [boundaries, tags, Stretch.boundary] using ih

theorem isVaried_iff_isChain_boundaries {ribbon : Ribbon τ} :
    ribbon.IsVaried ↔ (boundaries ribbon).IsChain fun a b => a.tag ≠ b.tag := by
  have hreverse : ((boundaries ribbon).map (·.tag)).IsChain (· ≠ ·) ↔ ribbon.IsVaried := by
    rw [map_tag_boundaries, List.isChain_reverse]
    simp only [IsVaried, ne_comm]
  exact hreverse.symm.trans (List.isChain_map _)

theorem isChain_boundaries {ribbon : Ribbon τ} (h : ribbon.IsVaried) :
    (boundaries ribbon).IsChain fun a b => a.tag ≠ b.tag :=
  isVaried_iff_isChain_boundaries.mp h

theorem start_lt_of_mem {ribbon : Ribbon τ} (h : ∀ stretch ∈ ribbon, stretch.chars ≠ []) :
    ∀ boundary ∈ boundaries ribbon, boundary.start < (chars ribbon).length := by
  induction ribbon with
  | nil => intro boundary hb; cases hb
  | cons last rest ih =>
      have hlast := List.length_pos_iff.mpr (h last (by simp))
      intro boundary hb
      simp only [chars, List.length_append]
      rcases List.mem_append.mp hb with hb | hb
      · have := ih (fun stretch hs => h stretch (by simp [hs])) boundary hb
        omega
      · rw [List.mem_singleton.mp hb]
        simp only [Stretch.boundary]
        omega

theorem IsSolid.start_le {ribbon : Ribbon τ} (h : ribbon.IsSolid) :
    ∀ boundary ∈ boundaries ribbon, boundary.start ≤ (chars ribbon).length := by
  obtain ⟨last, rest, rfl⟩ := List.exists_cons_of_ne_nil h.ne_nil
  intro boundary hb
  simp only [chars, List.length_append]
  rcases List.mem_append.mp hb with hb | hb
  · have := start_lt_of_mem (show ∀ stretch ∈ rest, _ from h.tail_ne_nil) boundary hb
    omega
  · rw [List.mem_singleton.mp hb]
    simp [Stretch.boundary]

theorem isAnchored_concat {before : List (Boundary τ)} {boundary : Boundary τ}
    (h : Segmentation.IsAnchored before)
    (hlt : ∀ earlier ∈ before, earlier.start < boundary.start) :
    Segmentation.IsAnchored (before ++ [boundary]) := by
  constructor
  · apply List.pairwise_append.mpr
    refine ⟨h.ascending, List.pairwise_singleton .., ?_⟩
    intro earlier he later hl
    rw [List.mem_singleton.mp hl]
    exact hlt earlier he
  · cases before with
    | nil => simpa using h.head
    | cons first before => simpa using h.head

theorem IsSolid.isAnchored {ribbon : Ribbon τ} (h : ribbon.IsSolid) :
    Segmentation.IsAnchored (boundaries ribbon) := by
  induction ribbon with
  | nil => exact absurd rfl h.ne_nil
  | cons last rest ih =>
      cases rest with
      | nil => exact ⟨List.pairwise_singleton .., rfl⟩
      | cons previous rest =>
          have hsolid : IsSolid (previous :: rest) :=
            ⟨by simp, fun stretch hs => h.tail_ne_nil stretch (List.mem_of_mem_tail hs)⟩
          exact isAnchored_concat (ih hsolid) (start_lt_of_mem h.tail_ne_nil)

/-- Reads a character into the last segment. -/
def put (c : Char) (ribbon : Ribbon τ) : Ribbon τ :=
  ribbon.modifyHead fun last => { last with chars := last.chars ++ [c] }

theorem chars_put {ribbon : Ribbon τ} (c : Char) (h : ribbon ≠ []) :
    chars (put c ribbon) = chars ribbon ++ [c] := by
  cases ribbon with
  | nil => exact absurd rfl h
  | cons last rest => simp [put, chars]

@[simp] theorem tags_put (c : Char) (ribbon : Ribbon τ) : tags (put c ribbon) = tags ribbon := by
  cases ribbon <;> rfl

@[simp] theorem boundaries_put (c : Char) (ribbon : Ribbon τ) :
    boundaries (put c ribbon) = boundaries ribbon := by
  cases ribbon <;> rfl

theorem IsSolid.put {ribbon : Ribbon τ} (h : ribbon.IsSolid) (c : Char) : (put c ribbon).IsSolid := by
  obtain ⟨last, rest, rfl⟩ := List.exists_cons_of_ne_nil h.ne_nil
  exact ⟨by simp [Ribbon.put], h.tail_ne_nil⟩

variable [DecidableEq τ]

/-- Gives the current character and all behind it a tag. A segment without characters takes the tag, or
goes if the segment before it has the tag. -/
def turn (tag : τ) : Ribbon τ → Ribbon τ
  | [] => [{ tag := tag }]
  | last :: rest =>
    if last.tag = tag then last :: rest
    else if last.chars = [] then
      if rest.head?.map (·.tag) = some tag then rest else { tag := tag } :: rest
    else { tag := tag } :: last :: rest

theorem exists_turn (tag : τ) (ribbon : Ribbon τ) :
    ∃ last rest, turn tag ribbon = last :: rest ∧ last.tag = tag := by
  cases ribbon with
  | nil => exact ⟨_, _, rfl, rfl⟩
  | cons last rest =>
      simp only [turn]
      split_ifs with htag hchars hprevious
      · exact ⟨last, rest, rfl, htag⟩
      · cases rest with
        | nil => cases hprevious
        | cons previous rest => exact ⟨previous, rest, rfl, Option.some.inj hprevious⟩
      · exact ⟨_, _, rfl, rfl⟩
      · exact ⟨_, _, rfl, rfl⟩

/-- What an edit does to the segments up to the current character. -/
def edit (ribbon : Ribbon τ) : Edit τ → Ribbon τ
  | .tagHere tag => turn tag ribbon
  | .tagNext _ => ribbon
  | .render text => ribbon.modifyHead (·.amend (·.render text))
  | .append text => ribbon.modifyHead (·.amend (·.append text))

@[simp] theorem chars_turn (tag : τ) (ribbon : Ribbon τ) : chars (turn tag ribbon) = chars ribbon := by
  cases ribbon with
  | nil => rfl
  | cons last rest =>
      simp only [turn]
      split_ifs with _ hchars <;> simp_all [chars]

@[simp] theorem chars_edit (ribbon : Ribbon τ) (e : Edit τ) : chars (ribbon.edit e) = chars ribbon := by
  cases e with
  | tagHere tag => exact chars_turn tag ribbon
  | tagNext tag => rfl
  | render text => cases ribbon <;> rfl
  | append text => cases ribbon <;> rfl

theorem IsSolid.turn {ribbon : Ribbon τ} (h : ribbon.IsSolid) (tag : τ) :
    (turn tag ribbon).IsSolid := by
  obtain ⟨last, rest, rfl⟩ := List.exists_cons_of_ne_nil h.ne_nil
  have hrest := h.tail_ne_nil
  simp only [List.tail_cons] at hrest
  simp only [Ribbon.turn]
  split_ifs with htag hchars hprevious
  · exact h
  · constructor
    · rintro rfl
      simp at hprevious
    · intro stretch hs
      exact hrest stretch (List.mem_of_mem_tail hs)
  · exact ⟨by simp, hrest⟩
  · constructor
    · simp
    · intro stretch hs
      rcases List.mem_cons.mp hs with rfl | hs
      · exact hchars
      · exact hrest stretch hs

theorem IsSolid.edit {ribbon : Ribbon τ} (h : ribbon.IsSolid) (e : Edit τ) : (ribbon.edit e).IsSolid := by
  obtain ⟨last, rest, rfl⟩ := List.exists_cons_of_ne_nil h.ne_nil
  cases e with
  | tagHere tag => exact h.turn tag
  | tagNext tag => exact h
  | render text => exact ⟨by simp [Ribbon.edit], h.tail_ne_nil⟩
  | append text => exact ⟨by simp [Ribbon.edit], h.tail_ne_nil⟩

theorem IsVaried.turn {ribbon : Ribbon τ} (h : ribbon.IsVaried) (tag : τ) :
    (turn tag ribbon).IsVaried := by
  cases ribbon with
  | nil => exact List.isChain_singleton _
  | cons last rest =>
      have hrest : IsVaried rest := List.IsChain.tail h
      simp only [Ribbon.turn]
      split_ifs with htag hchars hprevious
      · exact h
      · exact hrest
      · cases rest with
        | nil => exact List.isChain_singleton _
        | cons previous rest =>
            apply List.isChain_cons_cons.mpr
            constructor
            · intro he
              exact hprevious (congrArg some he.symm)
            · exact hrest
      · exact List.isChain_cons_cons.mpr ⟨Ne.symm htag, h⟩

theorem tags_edit (ribbon : Ribbon τ) {e : Edit τ} (h : ∀ tag, e ≠ .tagHere tag) :
    tags (ribbon.edit e) = tags ribbon := by
  cases e with
  | tagHere tag => exact absurd rfl (h tag)
  | tagNext tag => rfl
  | render text => cases ribbon <;> rfl
  | append text => cases ribbon <;> rfl

/-- Without the last segment if nothing was read into it, unless it is the only one. -/
def settle : Ribbon τ → Ribbon τ
  | last :: previous :: rest =>
    if last.chars = [] then previous :: rest else last :: previous :: rest
  | ribbon => ribbon

end Ribbon

end TexProse
