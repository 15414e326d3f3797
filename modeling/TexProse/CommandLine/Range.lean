import TexProse.Text.Blank
import TexProse.Text.Count
import TexProse.Text.Quoted

/-!
# Written ranges

A part of a source as it is given on the command line, from a first offset up to a last one that is not
part of it any more.
-/

namespace TexProse.CommandLine

structure SourceRange where
  start : Nat
  stop : Nat
  start_le_stop : start ≤ stop
  deriving DecidableEq, Repr

inductive RangeFault where
  /-- The two dots are missing. -/
  | shape (value : String)
  | badStart (fault : CountFault)
  | badStop (fault : CountFault)
  | reversed (start stop : Nat)
  deriving DecidableEq, Repr

def RangeFault.message : RangeFault → String
  | .shape value => "expected START..END, got " ++ quoted value
  | .badStart fault => "bad start: " ++ fault.message
  | .badStop fault => "bad end: " ++ fault.message
  | .reversed start stop =>
    "range end " ++ toString stop ++ " is before start " ++ toString start

/-- What stands before the first two dots in a row, and what stands behind them. -/
def cutAtDots : List Char → Option (List Char × List Char)
  | '.' :: '.' :: rest => some ([], rest)
  | c :: rest => (cutAtDots rest).map fun (before, behind) => (c :: before, behind)
  | [] => none

def SourceRange.read (value : String) : Except RangeFault SourceRange :=
  match cutAtDots value.toList with
  | none => .error (.shape value)
  | some (before, behind) => do
    let start ← (readCount (trimChars before)).mapError .badStart
    let stop ← (readCount (trimChars behind)).mapError .badStop
    if h : start ≤ stop then return ⟨start, stop, h⟩ else throw (.reversed start stop)

end TexProse.CommandLine
