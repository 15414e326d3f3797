/-!
# Segmentations

A text is cut into segments, each with a tag and, where it does not stand for itself, with the text it
is rendered as. Only the left ends of the segments are kept: a segment runs up to the next boundary, and
every offset belongs to the last boundary at or before it.

Almost every access lies beside the one before it. The boundaries are therefore held around a focus,
those before it nearest first, and an access moves the focus from where it stands. `toList` is the plain
list of them, and `toList_seek` says that it does not depend on where the focus stands.
-/

namespace TexProse

/-- The left end of a segment, with what holds up to the next one. -/
structure Boundary (τ : Type) where
  start : Nat
  tag : τ
  /-- What the segment is rendered as. The empty text is never stored. -/
  rendering : Option String := none
  deriving DecidableEq, Repr

namespace Boundary
variable {τ : Type}

/-- Replaces the rendering. -/
def render (boundary : Boundary τ) (text : Option String) : Boundary τ :=
  { boundary with rendering := text.filter (· ≠ "") }

/-- Continues the rendering. -/
def append (boundary : Boundary τ) (text : String) : Boundary τ :=
  if text = "" then boundary
  else { boundary with rendering := some (boundary.rendering.getD "" ++ text) }

@[simp] theorem start_render (boundary : Boundary τ) (text : Option String) :
    (boundary.render text).start = boundary.start := rfl

@[simp] theorem tag_render (boundary : Boundary τ) (text : Option String) :
    (boundary.render text).tag = boundary.tag := rfl

@[simp] theorem start_append (boundary : Boundary τ) (text : String) :
    (boundary.append text).start = boundary.start := by
  unfold append; split <;> rfl

@[simp] theorem tag_append (boundary : Boundary τ) (text : String) :
    (boundary.append text).tag = boundary.tag := by
  unfold append; split <;> rfl

end Boundary

/-- Boundaries around a focus. -/
structure Segmentation (τ : Type) where
  /-- The boundaries before the focus, nearest first. -/
  before : List (Boundary τ)
  focus : Boundary τ
  after : List (Boundary τ)
  deriving DecidableEq, Repr

namespace Segmentation
variable {τ : Type}

/-- One segment over the whole text. -/
def single (tag : τ) : Segmentation τ := ⟨[], { start := 0, tag := tag }, []⟩

/-- The boundaries from left to right. -/
def toList (segments : Segmentation τ) : List (Boundary τ) :=
  segments.before.reverse ++ segments.focus :: segments.after

@[simp] theorem toList_single (tag : τ) :
    (single tag).toList = [{ start := 0, tag := tag }] := rfl

def size (segments : Segmentation τ) : Nat := segments.before.length + 1 + segments.after.length

@[simp] theorem length_toList (segments : Segmentation τ) :
    segments.toList.length = segments.size := by
  simp [toList, size]; omega

/-- Moves the focus right to the last boundary at or before the offset. -/
def forward (offset : Nat) (before : List (Boundary τ)) (focus : Boundary τ) :
    List (Boundary τ) → Segmentation τ
  | [] => ⟨before, focus, []⟩
  | next :: after =>
    if next.start ≤ offset then forward offset (focus :: before) next after
    else ⟨before, focus, next :: after⟩

/-- Moves the focus left to the first boundary met at or before the offset. -/
def backward (offset : Nat) (focus : Boundary τ) (after : List (Boundary τ)) :
    List (Boundary τ) → Segmentation τ
  | [] => ⟨[], focus, after⟩
  | previous :: before =>
    if focus.start ≤ offset then ⟨previous :: before, focus, after⟩
    else backward offset previous (focus :: after) before

/-- Moves the focus to the segment that holds the offset. -/
def seek (segments : Segmentation τ) (offset : Nat) : Segmentation τ :=
  if segments.focus.start ≤ offset then
    forward offset segments.before segments.focus segments.after
  else
    backward offset segments.focus segments.after segments.before

theorem toList_forward (offset : Nat) (before : List (Boundary τ)) (focus : Boundary τ)
    (after : List (Boundary τ)) :
    (forward offset before focus after).toList = before.reverse ++ focus :: after := by
  induction after generalizing before focus with
  | nil => rfl
  | cons next after ih =>
    unfold forward
    split
    · simp [ih]
    · rfl

theorem toList_backward (offset : Nat) (focus : Boundary τ) (after before : List (Boundary τ)) :
    (backward offset focus after before).toList = before.reverse ++ focus :: after := by
  induction before generalizing focus after with
  | nil => rfl
  | cons previous before ih =>
    unfold backward
    split
    · rfl
    · simp [ih]

@[simp] theorem toList_seek (segments : Segmentation τ) (offset : Nat) :
    (segments.seek offset).toList = segments.toList := by
  unfold seek
  split
  · exact toList_forward ..
  · exact toList_backward ..

/-- The boundary of the segment that holds the offset. -/
def holding (segments : Segmentation τ) (offset : Nat) : Boundary τ := (segments.seek offset).focus

/-- The boundary before that of the segment that holds the offset. -/
def preceding? (segments : Segmentation τ) (offset : Nat) : Option (Boundary τ) :=
  (segments.seek offset).before.head?

/-- Starts a segment at the offset. A boundary that stands there already gets the new tag and loses its
rendering. -/
def insert (segments : Segmentation τ) (offset : Nat) (tag : τ) : Segmentation τ :=
  let found := segments.seek offset
  if found.focus.start = offset then { found with focus := { start := offset, tag := tag } }
  else ⟨found.focus :: found.before, { start := offset, tag := tag }, found.after⟩

/-- Removes the boundary that stands exactly at the offset, so that its segment joins the one before.
The boundary at 0 stays. -/
def erase (segments : Segmentation τ) (offset : Nat) : Option (Boundary τ) × Segmentation τ :=
  let found := segments.seek offset
  match found.before with
  | previous :: before =>
    if offset ≠ 0 ∧ found.focus.start = offset then
      (some found.focus, ⟨before, previous, found.after⟩)
    else (none, found)
  | [] => (none, found)

/-- Changes the boundary of the segment that holds the offset. -/
def modify (segments : Segmentation τ) (offset : Nat) (change : Boundary τ → Boundary τ) :
    Segmentation τ :=
  let found := segments.seek offset
  { found with focus := change found.focus }

/-- Gives the text from the offset on a tag. Nothing happens where the tag holds already, and a segment
that starts here joins the one before it if that has the tag. -/
def retag [DecidableEq τ] (segments : Segmentation τ) (offset : Nat) (tag : τ) : Segmentation τ :=
  let boundary := segments.holding offset
  if boundary.tag = tag then segments
  else if boundary.start = offset ∧ (segments.preceding? offset).map (·.tag) = some tag then
    (segments.erase offset).2
  else segments.insert offset tag

end Segmentation

end TexProse
