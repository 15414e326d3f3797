import TexProse.Segmentation
import TexProse.Source

/-!
# What a tagger sees and may change

A tagger looks at one character at a time through a window and answers with edits. An edit concerns the
segment that holds the character or starts one right behind it, and nothing further away.
-/

namespace TexProse

/-- One change around the current character. -/
inductive Edit (τ : Type) where
  /-- The current character and all behind it get the tag. -/
  | tagHere (tag : τ)
  /-- All behind the current character gets the tag; nothing if there is nothing behind. -/
  | tagNext (tag : τ)
  /-- Replaces the rendering of the current segment. -/
  | render (text : Option String)
  /-- Continues the rendering of the current segment. -/
  | append (text : String)
  deriving DecidableEq, Repr

/-- A place in the source and the segmentation as it stands. -/
structure Window (τ : Type) extends Cursor where
  segments : Segmentation τ

namespace Window
variable {τ : Type}

/-- The boundary of the current segment. -/
def boundary (window : Window τ) : Boundary τ := window.segments.holding window.offset

/-- The tag of the current character. -/
def tag (window : Window τ) : τ := window.boundary.tag

/-- The tag that holds behind the current character. -/
def nextTag (window : Window τ) : τ := (window.segments.holding (window.offset + 1)).tag

/-- The current segment up to the current character, which is excluded. -/
def textSoFar (window : Window τ) : String := window.textSince window.boundary.start

def lengthSoFar (window : Window τ) : Nat := window.offset - window.boundary.start

variable [DecidableEq τ]

/-- Carries out one edit. -/
def edit (window : Window τ) : Edit τ → Window τ
  | .tagHere tag => { window with segments := window.segments.retag window.offset tag }
  | .tagNext tag =>
    if window.source.length ≤ window.offset + 1 then window
    else { window with segments := window.segments.retag (window.offset + 1) tag }
  | .render text =>
    { window with segments := window.segments.modify window.offset (·.render text) }
  | .append text =>
    { window with segments := window.segments.modify window.offset (·.append text) }

/-- Carries out edits in order. -/
def editAll (window : Window τ) (edits : List (Edit τ)) : Window τ := edits.foldl edit window

@[simp] theorem toCursor_edit (window : Window τ) (e : Edit τ) :
    (window.edit e).toCursor = window.toCursor := by
  cases e with
  | tagNext tag => simp only [edit]; split <;> rfl
  | _ => rfl

@[simp] theorem toCursor_editAll (window : Window τ) (edits : List (Edit τ)) :
    (window.editAll edits).toCursor = window.toCursor := by
  induction edits generalizing window with
  | nil => rfl
  | cons e rest ih => exact (ih (window.edit e)).trans (toCursor_edit window e)

end Window

end TexProse
