/-!
# Counts

Written counts: decimal digits, perhaps behind a plus sign, up to the largest count of 64 bits.
-/

namespace TexProse

/-- What can be wrong with a written count. -/
inductive CountFault where
  | empty
  | noDigit
  | tooLarge
  deriving DecidableEq, Repr

def CountFault.message : CountFault → String
  | .empty => "cannot parse integer from empty string"
  | .noDigit => "invalid digit found in string"
  | .tooLarge => "number too large to fit in target type"

def largestCount : Nat := 0xffffffffffffffff

/-- Goes on with a count digit by digit. The first fault from the left is the one that is told. -/
def readDigits (count : Nat) : List Char → Except CountFault Nat
  | [] => .ok count
  | c :: rest =>
    if c.isDigit then
      let more := 10 * count + (c.toNat - '0'.toNat)
      if largestCount < more then .error .tooLarge else readDigits more rest
    else .error .noDigit

def readCount : List Char → Except CountFault Nat
  | [] => .error .empty
  | ['+'] => .error .noDigit
  | '+' :: digits => readDigits 0 digits
  | digits => readDigits 0 digits

end TexProse
