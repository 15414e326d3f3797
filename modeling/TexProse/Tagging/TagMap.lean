import TexProse.Tagging.Tagger
import TexProse.Text.Blank
import TexProse.Transcript

/-!
# Tagged texts

What a completed scan leaves: the source and its segmentation. From it come the segments with their texts,
the prose of the whole or of a part, and the transcript.
-/

namespace TexProse

/-- A segment with its right end and the text it holds. -/
structure Span (τ : Type) extends Boundary τ where
  stop : Nat
  text : String
  deriving DecidableEq, Repr

namespace Span
variable {τ : Type}

/-- What the segment adds to the prose. -/
def prose [SegmentTag τ] (span : Span τ) : String :=
  if SegmentTag.isPlain span.tag then span.text else span.rendering.getD ""

/-- Whether the segment reaches into the range from `first` up to `stop`. -/
def touches (span : Span τ) (first stop : Nat) : Bool := first < span.stop && span.start < stop

/-- The role of the segment in a transcript. -/
def role [SegmentTag τ] (span : Span τ) : Role :=
  if SegmentTag.isPlain span.tag then .text else .markup span.rendering

end Span

structure TagMap (τ : Type) where
  source : Source
  segments : Segmentation τ

namespace TagMap
variable {τ : Type}

/-- The boundaries from left to right. -/
def boundaries (map : TagMap τ) : List (Boundary τ) := map.segments.toList

variable [DecidableEq τ] [SegmentTag τ]

/-- Cuts a source at boundaries. The last segment runs to the end of the source. Two neighbours with one
tag would be one segment in truth, so they are refused. -/
def cut (source : Source) : List (Boundary τ) → Except Failure (List (Span τ))
  | [] => .ok []
  | [last] => .ok [⟨last, source.length, source.slice last.start source.length⟩]
  | boundary :: next :: rest =>
    if next.tag = boundary.tag then .error (.sameTag (SegmentTag.label next.tag) next.start)
    else do
      let spans ← cut source (next :: rest)
      return ⟨boundary, next.start, source.slice boundary.start next.start⟩ :: spans

/-- The segments from left to right. -/
def spans (map : TagMap τ) : Except Failure (List (Span τ)) := cut map.source map.boundaries

/-- Shows every boundary with the text of its segment, from left to right. -/
def forEach {m : Type → Type} [Monad m] (map : TagMap τ) (callback : Boundary τ → String → m Unit) :
    m (Except Failure Unit) :=
  match map.spans with
  | .ok spans => do
    spans.forM fun span => callback span.toBoundary span.text
    return .ok ()
  | .error failure => return .error failure

/-- The prose of segments, without the blanks at its ends. -/
def proseOf (spans : List (Span τ)) : String := trim (String.join (spans.map Span.prose))

/-- The prose of the whole text. -/
def prose (map : TagMap τ) : Except Failure String := do
  let spans ← map.spans
  return proseOf spans

/-- The prose of the segments that reach into a range of the source. -/
def proseIn (map : TagMap τ) (first stop : Nat) : Except Failure String := do
  let spans ← map.spans
  return proseOf (spans.filter (·.touches first stop))

/-- The source piece by piece, with the prose of each. -/
def transcript (map : TagMap τ) : Except Failure Transcript := do
  let spans ← map.spans
  return (spans.foldl (fun draft span => draft.add span.role span.text) ({} : Transcript.Draft)).finish.1

end TagMap

end TexProse
