import TexProse.Latex.Reading
import TexProse.Settings
import TexProse.Text.Letter

/-!
# The rules of a reading

One rule for each mode. A rule looks at the place it is given and never at the segments, for the mode
holds all it has to know of them. Where a construct ends at a character that is not its own, its rule
closes it and hands the character on to the rule for text.
-/

namespace TexProse.Latex
variable {π : Type}

/-- A character that goes on the name of a command. -/
def isNameChar (c : Char) : Bool := isLetter c || c = '*' || c = '@'

/-- A period between two letters, where a space is likely to be missing. -/
def missingSpace? (here : Cursor) : Option Notice :=
  if here.char = '.' ∧ here.previous?.any isLetter ∧ here.next?.any isLetter then
    some (.missingSpace here.location (here.source.slice (here.offset - 1) (here.offset + 2)))
  else none

def textRule (here : Cursor) (reading : Reading π) : Step π :=
  let c := here.char
  if isBlank c then Step.into (.space here.offset) [.tagHere .space] reading
  else if c = '%' then Step.into .comment [.tagHere .comment] reading
  else if c = '\\' then Step.into (.name here.offset) [.tagHere .command] reading
  else if c = '"' then Step.into .quote [.tagHere .quotationMarks] reading
  else if c = '{' then Step.into (.group here.offset 0) [.tagHere .group] reading
  else
    let reading := { reading.enter .text with spaced := false }
    ([], (missingSpace? here).elim reading fun notice => reading.notify notice)

/-- Closes what came before and reads the current character as text. -/
def backToText (here : Cursor) (step : Step π) : Step π :=
  step.andThen fun reading =>
    (Step.into .text [.tagHere .text] reading).andThen (textRule here)

/-- Renders a run of blanks that ends at `stop`. A single blank stays as it is, and a run becomes a space;
nothing is rendered on top of another blank. -/
def closeSpace (here : Cursor) (start stop : Nat) (reading : Reading π) : Step π :=
  if reading.spaced then Step.edit [] reading
  else
    let run := here.source.slice start stop
    ([.render (some (if run.length = 1 then run else " "))], { reading with spaced := true })

def spaceRule (here : Cursor) (start : Nat) (reading : Reading π) : Step π :=
  if isBlank here.char then Step.edit [] reading
  else backToText here (closeSpace here start here.offset reading)

def commentRule (here : Cursor) (reading : Reading π) : Step π :=
  if isLineBreak here.char then Step.into (.space here.offset) [.tagHere .space] reading
  else Step.edit [] reading

/-- The mark for a pair of a quotation mark and the character behind it. -/
def pairedQuote? (settings : Settings) : Char → Option String
  | '`' => some settings.openingQuote
  | '\'' => some settings.closingQuote
  | _ => none

/-- A quotation mark that makes no pair is kept as it is and noticed. -/
def quoteRule (settings : Settings) (here : Cursor) (reading : Reading π) : Step π :=
  match pairedQuote? settings here.char with
  | some mark => (Step.emit mark reading).andThen (Step.into .text [.tagNext .text])
  | none =>
    let notice :=
      if isLetter here.char then .bareQuote here.location
      else .unknownQuote here.location here.char
    backToText here ([.append "\""], reading.notify notice)

/-- A command without arguments. -/
def resolveAlone [Package π] (name : String) (reading : Reading π) : Step π :=
  Step.resolve { name := name } reading

/-- The first character behind a backslash makes a name alone unless it is a letter. A longer name ends
before the first character that cannot go on with it. -/
def nameRule [Package π] (here : Cursor) (start : Nat) (reading : Reading π) : Step π :=
  let c := here.char
  if here.offset - start ≤ 1 then
    if isLetter c then Step.edit [] reading
    else
      (resolveAlone (here.source.slice start (here.offset + 1)) reading).andThen
        (Step.into .text [.tagNext .text])
  else if isNameChar c then Step.edit [] reading
  else
    let name := here.textSince start
    match Bracket.ofArgument? c with
    | some bracket =>
      Step.into (.argument { name := name } bracket (here.offset + 1) 0) [.tagNext .argument] reading
    | none =>
      if isBlank c then
        (resolveAlone name reading).andThen (Step.into (.space here.offset) [.tagHere .space])
      else backToText here (resolveAlone name reading)

/-- Opens the argument that follows another one. -/
def reopeningRule (here : Cursor) (command : Command) (bracket : Bracket) (reading : Reading π) :
    Step π :=
  Step.into (.argument command bracket (here.offset + 1) 0) [.tagNext .argument] reading

/-- What to do once an argument is complete. If no further one follows the command is resolved, and its
prose goes to the contents of the last argument, or to the command if those are empty. -/
def closeArgument [Package π] (here : Cursor) (command : Command) (isEmpty : Bool)
    (reading : Reading π) : Step π :=
  match here.next?.bind Bracket.ofArgument? with
  | some bracket => Step.into (.reopening command bracket) [.tagHere .command] reading
  | none =>
    if isEmpty then
      ((Step.edit [.tagHere .command] reading).andThen (Step.resolve command)).andThen
        (Step.into .text [.tagNext .text])
    else
      (Step.resolve command reading).andThen
        (Step.into .text [.tagHere .command, .tagNext .text])

/-- How the prose of a nested text is found. -/
abbrev Nested (π : Type) := String → Action (Session π) String

/-- Lets an action on the session change the session of a reading. -/
def inSession {α : Type} (action : Action (Session π) α) : Action (Reading π) α :=
  ExceptT.mk do
    let reading ← get
    let (result, session) := action.run.run reading.session
    set { reading with session := session }
    return result

/-- A step that cannot fail. -/
def perform (step : Reading π → Step π) : Action (Reading π) (List (Edit Tag)) := modifyGet step

def argumentRule [Package π] (nested : Nested π) (here : Cursor) (command : Command)
    (bracket : Bracket) (start depth : Nat) : Action (Reading π) (List (Edit Tag)) :=
  let c := here.char
  if c = bracket.closing then
    match depth with
    | depth + 1 => perform (Step.into (.argument command bracket start depth) [])
    | 0 => do
      let argument ← inSession (nested (here.textSince start))
      let command := { command with arguments := command.arguments ++ [argument] }
      perform (closeArgument here command (here.offset = start))
  else if c = bracket.opening then
    perform (Step.into (.argument command bracket start (depth + 1)) [])
  else return []

def groupRule (nested : Nested π) (here : Cursor) (start depth : Nat) :
    Action (Reading π) (List (Edit Tag)) :=
  let c := here.char
  if c = '}' then
    match depth with
    | depth + 1 => perform (Step.into (.group start depth) [])
    | 0 => do
      let prose ← inSession (nested (here.textSince (start + 1)))
      perform fun reading => (Step.emit prose reading).andThen (Step.into .text [.tagNext .text])
  else if c = '{' then perform (Step.into (.group start (depth + 1)) [])
  else return []

/-- The rule for the mode of the reading. -/
def onChar [Package π] (settings : Settings) (nested : Nested π) (window : Window Tag) :
    Action (Reading π) (List (Edit Tag)) := do
  let here := window.toCursor
  match (← get).mode with
  | .text => perform (textRule here)
  | .space start => perform (spaceRule here start)
  | .comment => perform (commentRule here)
  | .quote => perform (quoteRule settings here)
  | .name start => perform (nameRule here start)
  | .argument command bracket start depth =>
    argumentRule nested here command bracket start depth
  | .reopening command bracket => perform (reopeningRule here command bracket)
  | .group start depth => groupRule nested here start depth

/-- At the end a run of blanks, a quotation mark and a name are complete; an open bracket is not. -/
def onEnd [Package π] (window : Window Tag) : Action (Reading π) (List (Edit Tag)) := do
  let here := window.toCursor
  let stop := here.offset + 1
  match (← get).mode with
  | .space start => perform (closeSpace here start stop)
  | .quote => return [.append "\""]
  | .name start => perform (resolveAlone (here.source.slice start stop))
  | .argument _ bracket _ _ | .reopening _ bracket => throw (.unclosed bracket.closing)
  | .group _ _ => throw (.unclosed Bracket.curly.closing)
  | .text | .comment => return []

/-- The tagger of a text whose nested texts are read by `nested`. -/
def tagger [Package π] (settings : Settings) (nested : Nested π) : Tagger Tag (Reading π) where
  start := .text
  onChar := onChar settings nested
  onEnd := onEnd

end TexProse.Latex
