import TexProse.Text.Quoted

/-!
# Commands and notices

A command of the document with its arguments, and what may be noticed while a document is found and read.
-/

namespace TexProse

/-- A command with the prose of each of its arguments. The name starts with the backslash. -/
structure Command where
  name : String
  arguments : List String := []
  deriving DecidableEq, Repr, Inhabited

/-- A command on one line: its name as it is and its arguments quoted. -/
def Command.shown (command : Command) : String :=
  command.name ++ " " ++ quotedList command.arguments

/-- How much a notice matters. -/
inductive Level where
  | warning
  | detail
  | trace
  /-- For whoever counts the questions put to a package; no log shows it. -/
  | audit
  deriving DecidableEq, Repr

inductive Notice where
  /-- A period stands between two letters. -/
  | missingSpace (location excerpt : String)
  /-- A quotation mark stands before a letter. -/
  | bareQuote (location : String)
  /-- A quotation mark stands before a character that is no letter and makes no pair with it. -/
  | unknownQuote (location : String) (follower : Char)
  /-- A package answered. -/
  | answered (command : Command) (text : String)
  /-- No package answered. -/
  | dropped (command : Command)
  /-- A package was asked that only listens. -/
  | asked (command : Command)
  /-- A file is about to be read. -/
  | reading (path : String)
  deriving DecidableEq, Repr

namespace Notice

def level : Notice → Level
  | .missingSpace .. | .bareQuote _ | .unknownQuote .. => .warning
  | .dropped _ | .reading _ => .detail
  | .answered .. => .trace
  | .asked _ => .audit

def message : Notice → String
  | .missingSpace location excerpt =>
    "Missing space after period at " ++ location ++ ": " ++ excerpt
  | .bareQuote location => "Unescaped quotation mark found at " ++ location
  | .unknownQuote location follower =>
    "Unknown quotation mark escape found at " ++ location ++ ": \"" ++ follower.toString
  | .answered command text => command.shown ++ " -> " ++ quoted text
  | .dropped command => "dropping unhandled command " ++ command.shown
  | .asked command => command.shown
  | .reading path => "reading " ++ path

end Notice

end TexProse
