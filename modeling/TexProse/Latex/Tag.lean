import TexProse.Tagging.Tagger

/-!
# Segments of a LaTeX document
-/

namespace TexProse.Latex

inductive Tag where
  /-- Prose, which stands for itself. -/
  | text
  /-- A run of blanks. -/
  | space
  | comment
  /-- The name of a command, or a bracket of its arguments. -/
  | command
  /-- What stands between the brackets of an argument. -/
  | argument
  | quotationMarks
  /-- A group in curly brackets that belongs to no command. -/
  | group
  deriving DecidableEq, Repr

namespace Tag

def label : Tag → String
  | text => "Text"
  | space => "Space"
  | comment => "Comment"
  | command => "MarkupCommand"
  | argument => "MarkupContent"
  | quotationMarks => "QuotationMarks"
  | group => "Math"

end Tag

instance : SegmentTag Tag where
  isPlain tag := tag = .text
  label := Tag.label

end TexProse.Latex
