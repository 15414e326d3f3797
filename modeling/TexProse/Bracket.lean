import TexProse.Failure

/-!
# Brackets
-/

namespace TexProse

inductive Bracket where
  | curly
  | square
  | angle
  deriving DecidableEq, Repr

namespace Bracket

def opening : Bracket → Char
  | curly => '{'
  | square => '['
  | angle => '<'

def closing : Bracket → Char
  | curly => '}'
  | square => ']'
  | angle => '>'

/-- The kind of bracket that a character opens or closes. -/
def of? : Char → Option Bracket
  | '{' | '}' => some curly
  | '[' | ']' => some square
  | '<' | '>' => some angle
  | _ => none

/-- The bracket that matches a bracket. -/
def partner (c : Char) : Except Failure Char :=
  match of? c with
  | some bracket => .ok (if c = bracket.opening then bracket.closing else bracket.opening)
  | none => .error (.noPartner c)

/-- The kind of bracket with which a character opens the argument of a command. -/
def ofArgument? : Char → Option Bracket
  | '{' => some curly
  | '[' => some square
  | _ => none

end Bracket

end TexProse
