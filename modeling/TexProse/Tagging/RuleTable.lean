import TexProse.Bracket
import TexProse.Tagging.Pass

/-!
# Rule tables

A tagger given as data: a list of rules, each with conditions on the current character and the actions to
carry out where they hold. The tags are single characters, and capital letters are plain. Actions that
read the window leave notes, which are kept when a later action fails.
-/

namespace TexProse

/-- A tag of one character. -/
structure Mark where
  char : Char
  deriving DecidableEq, Repr, Inhabited

instance : SegmentTag Mark where
  isPlain mark := mark.char.isUpper
  label mark := mark.char.toString

namespace RuleTable

inductive Act where
  /-- One edit of the segmentation. -/
  | edit (change : Edit Mark)
  /-- Notes the bracket that matches a character. -/
  | partner (c : Char)
  /-- Notes a part of the source. -/
  | slice (start stop : Nat)
  /-- Notes all that the window shows. -/
  | look

/-- All that a window shows. -/
structure View where
  offset : Nat
  char : Char
  next : Option Char
  previous : Option Char
  location : String
  tag : Mark
  nextTag : Mark
  start : Nat
  text : String
  length : Nat
  rendering : Option String

def View.ofWindow (window : Window Mark) : View where
  offset := window.offset
  char := window.char
  next := window.next?
  previous := window.previous?
  location := window.location
  tag := window.tag
  nextTag := window.nextTag
  start := window.boundary.start
  text := window.textSoFar
  length := window.lengthSoFar
  rendering := window.boundary.rendering

inductive Note where
  /-- The scan is over, and the last character has this tag. -/
  | ended (tag : Mark)
  | partner (c : Char)
  | slice (text : String)
  | view (view : View)

/-- What an action notes, none for an edit. -/
def Act.note? (window : Window Mark) : Act → Except Failure (Option Note)
  | .edit _ => .ok none
  | .partner c => (Bracket.partner c).map (some ∘ .partner)
  | .slice start stop => .ok (some (.slice (window.source.slice start stop)))
  | .look => .ok (some (.view (.ofWindow window)))

def Act.edits : Act → List (Edit Mark)
  | .edit change => [change]
  | _ => []

/-- Carries out actions in order. Each sees the edits of those before it, and the first that fails is the
last to be carried out. -/
def perform (window : Window Mark) : List Act → Action (Array Note) (List (Edit Mark))
  | [] => return []
  | act :: rest => do
    let note ← MonadExcept.ofExcept (act.note? window)
    modify (· ++ note.toArray)
    let edits ← perform (window.editAll act.edits) rest
    return act.edits ++ edits

/-- Conditions on a character, each of which may be missing, and what to do where they hold. -/
structure Rule where
  offset : Option Nat := none
  char : Option Char := none
  tag : Option Mark := none
  acts : List Act

def Rule.applies (rule : Rule) (window : Window Mark) : Bool :=
  rule.offset.all (· = window.offset) && rule.char.all (· = window.char) &&
    rule.tag.all (· = window.tag)

end RuleTable

structure RuleTable where
  start : Mark
  /-- The first rule that applies to a character is carried out. -/
  rules : List RuleTable.Rule
  /-- What to do at the end of the text; the end is then noted first. -/
  atEnd : Option (List RuleTable.Act) := none

namespace RuleTable

def tagger (table : RuleTable) : Tagger Mark (Array Note) where
  start := table.start
  onChar window :=
    match table.rules.find? (·.applies window) with
    | some rule => perform window rule.acts
    | none => return []
  onEnd window :=
    match table.atEnd with
    | some acts => do
      modify (·.push (.ended window.tag))
      perform window acts
    | none => return []

/-- A pass over a source under the rules of a table. -/
def pass (table : RuleTable) (source : Source) : Pass Mark (Array Note) where
  source := source
  tagger := table.tagger
  state := #[]

end RuleTable

end TexProse
