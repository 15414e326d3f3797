/-!
# Transcripts

A transcript lists a source as pieces of literal text and of markup, and says for each piece of markup
what a reader of the prose sees in its place. It maps a place in the prose to the place in the source that
the prose came from.
-/

namespace TexProse

/-- What a piece of a source means for the prose. -/
inductive Role where
  /-- Literal text, the same in the source and in the prose. -/
  | text
  /-- Markup, which the prose leaves out or shows as another text. -/
  | markup (shownAs : Option String)
  deriving DecidableEq, Repr

/-- A stretch of a source. -/
structure Piece where
  start : Nat
  stop : Nat
  content : String
  role : Role
  deriving DecidableEq, Repr

namespace Piece

/-- What the piece adds to the prose. -/
def prose (piece : Piece) : String :=
  match piece.role with
  | .text => piece.content
  | .markup shownAs => shownAs.getD ""

/-- The place in the source of a place in the prose of this piece. Text maps character by character;
whatever stands for markup comes from its start. -/
def origin (piece : Piece) (offset : Nat) : Nat :=
  match piece.role with
  | .text => piece.start + offset
  | .markup _ => piece.start

end Piece

structure Transcript where
  pieces : List Piece := []
  deriving DecidableEq, Repr, Inhabited

namespace Transcript

/-- All that a reader sees, with the blanks at its ends. -/
def prose (transcript : Transcript) : String := String.join (transcript.pieces.map Piece.prose)

/-- How much of the source the pieces cover. -/
def sourceLength (transcript : Transcript) : Nat := (transcript.pieces.getLast?.map (·.stop)).getD 0

/-- The place in the source of a place in the prose of some pieces, or `stop` behind their prose. -/
def originIn (stop : Nat) : List Piece → Nat → Nat
  | [], _ => stop
  | piece :: rest, offset =>
    if offset < piece.prose.length then piece.origin offset
    else originIn stop rest (offset - piece.prose.length)

/-- The place in the source of a place in the prose. All places behind the prose map to the end of the
source. -/
def origin (transcript : Transcript) (offset : Nat) : Nat :=
  originIn transcript.sourceLength transcript.pieces offset

/-- A transcript in the making. -/
structure Draft where
  pieces : Array Piece := #[]
  /-- How much of the source the pieces cover. -/
  length : Nat := 0
  deriving Inhabited

namespace Draft

/-- Adds the piece that follows in the source. -/
def add (draft : Draft) (role : Role) (content : String) : Draft :=
  let stop := draft.length + content.length
  { pieces := draft.pieces.push { start := draft.length, stop := stop, content := content, role := role }
    length := stop }

def text (draft : Draft) (content : String) : Draft := draft.add .text content

def markup (draft : Draft) (content : String) : Draft := draft.add (.markup none) content

def markupAs (draft : Draft) (content shownAs : String) : Draft :=
  draft.add (.markup (some shownAs)) content

/-- The transcript of all pieces, and an empty draft for the next one. -/
def finish (draft : Draft) : Transcript × Draft := (⟨draft.pieces.toList⟩, {})

end Draft

end Transcript

end TexProse
