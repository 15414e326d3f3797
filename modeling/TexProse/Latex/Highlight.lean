import TexProse.Latex.Tag
import TexProse.Tagging.TagMap

/-!
# Highlighted sources

A source for a terminal, with each segment in the colours of its tag.
-/

namespace TexProse.Latex

/-- The colour of the letters, as a terminal takes it. -/
def Tag.ink : Tag → String
  | .text | .space | .argument | .group => "5;15"
  | .comment | .command => "5;11"
  | .quotationMarks => "2;255;165;0"

/-- The colour of the ground. -/
def Tag.ground : Tag → String
  | .text | .quotationMarks => "5;0"
  | .space => "5;7"
  | .comment => "5;14"
  | .command => "5;9"
  | .argument => "5;13"
  | .group => "5;1"

/-- A sequence that changes how a terminal shows what follows. -/
def control (code : String) : String := "\x1b[" ++ code ++ "m"

/-- A segment in its colours. -/
def highlightSpan (span : Span Tag) : String :=
  control ("48;" ++ span.tag.ground) ++ control ("38;" ++ span.tag.ink) ++ span.text ++
    control "49" ++ control "39"

/-- All segments in their colours, and the end of the line. -/
def highlight (spans : List (Span Tag)) : String := String.join (spans.map highlightSpan) ++ "\n"

end TexProse.Latex
