import TexProse.Bracket
import TexProse.Latex.Tag
import TexProse.Package.Chain
import TexProse.Text.Blank

/-!
# The state of a reading

A reading of a document is always in one mode, which holds what is known of the construct it is in. The
packages and the notices so far belong to the whole document and pass from a text to the texts nested
in it and back.
-/

namespace TexProse.Latex

/-- What a document and all texts nested in it share. -/
structure Session (π : Type) where
  packages : Chain π
  notices : Array Notice := #[]

namespace Session
variable {π : Type}

def notify (session : Session π) (notice : Notice) : Session π :=
  { session with notices := session.notices.push notice }

/-- Puts a command to the packages. -/
def ask [Package π] (session : Session π) (command : Command) : Option String × Session π :=
  let answer := session.packages.ask command
  (answer.text, ⟨answer.package, session.notices ++ answer.notices.toArray⟩)

end Session

/-- The construct that a reading is in. -/
inductive Mode where
  | text
  /-- A run of blanks that began at `start`. -/
  | space (start : Nat)
  | comment
  /-- Right behind a quotation mark. -/
  | quote
  /-- In the name of a command, whose backslash stands at `start`. -/
  | name (start : Nat)
  /-- In an argument of a command. Its contents began at `start`, and `depth` brackets of its kind are open
  inside. -/
  | argument (command : Command) (bracket : Bracket) (start depth : Nat)
  /-- Between two arguments, at the bracket that opens the second. -/
  | reopening (command : Command) (bracket : Bracket)
  /-- In a group, whose bracket stands at `start`, with `depth` groups open inside. -/
  | group (start depth : Nat)
  deriving DecidableEq, Repr

structure Reading (π : Type) where
  mode : Mode := .text
  /-- Whether a blank would come on top of another, or at the start of the prose. -/
  spaced : Bool := true
  session : Session π

namespace Reading
variable {π : Type}

def enter (mode : Mode) (reading : Reading π) : Reading π := { reading with mode := mode }

def notify (notice : Notice) (reading : Reading π) : Reading π :=
  { reading with session := reading.session.notify notice }

end Reading

/-- The edits of one step of a reading, and the reading behind it. -/
abbrev Step (π : Type) := List (Edit Tag) × Reading π

namespace Step
variable {π : Type}

/-- One step and then another. -/
def andThen (step : Step π) (next : Reading π → Step π) : Step π :=
  (step.1 ++ (next step.2).1, (next step.2).2)

/-- Makes edits and stays in the mode. -/
def edit (edits : List (Edit Tag)) (reading : Reading π) : Step π := (edits, reading)

/-- Makes edits and goes on in another mode. -/
def into (mode : Mode) (edits : List (Edit Tag)) (reading : Reading π) : Step π :=
  (edits, reading.enter mode)

/-- Adds to the prose of the current segment. -/
def emit (text : String) (reading : Reading π) : Step π :=
  let spaced := match text.toList.getLast? with
    | some last => isBlank last
    | none => reading.spaced
  ([.append text], { reading with spaced := spaced })

/-- Puts a command to the packages and adds what they answer to the prose. -/
def resolve [Package π] (command : Command) (reading : Reading π) : Step π :=
  match reading.session.ask command with
  | (some text, session) => emit text { reading with session := session }
  | (none, session) => edit [] { reading with session := session }

end Step

end TexProse.Latex
