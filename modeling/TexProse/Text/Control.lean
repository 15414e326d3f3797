/-!
# Text without control sequences

What a terminal would show of a text: characters, blanks and line breaks, but no control character and
no control sequence. A sequence starts with an escape character and has a form that tells where it ends.
Blanks and line breaks inside a short sequence are shown all the same, and once something is shown, all
is shown up to the next control character; only then does the interrupted sequence go on.
-/

namespace TexProse

/-- Where a text stands in a control sequence. -/
inductive ControlState where
  /-- In no sequence. -/
  | ground
  /-- Right behind the escape character. -/
  | escape
  /-- In an escape sequence of several characters. -/
  | intermediate
  /-- In a control sequence with parameters. -/
  | sequence
  /-- At the start of a device control string. -/
  | deviceStart
  /-- In the parameters of a device control string. -/
  | deviceParameter
  /-- Behind the parameters of a device control string. -/
  | deviceIntermediate
  /-- In a string for the device or for an application, whose contents are not looked at. -/
  | string
  /-- In a command for the operating system of the terminal. -/
  | systemCommand
  deriving DecidableEq, Repr

namespace ControlState

/-- Whether a character is in a range of code points. -/
def within (first last : Nat) (c : Char) : Bool := first ≤ c.toNat && c.toNat ≤ last

/-- A control character that moves the place of writing and is kept as it is. -/
def isLayout (c : Char) : Bool := c = '\t' || c = '\n' || c = '\x0c' || c = '\r'

/-- Whether the encoding of a character holds the byte that ends a string. -/
def endsString (c : Char) : Bool := c.toString.toUTF8.toList.contains 0x9c

/-- Whether a character is shown: any but a control character outside a sequence, and in a short sequence
those that move the place of writing. -/
def shows (state : ControlState) (c : Char) : Bool :=
  match state with
  | ground => within 0x20 0x7e c || 0x80 ≤ c.toNat || isLayout c
  | escape | intermediate | sequence => isLayout c
  | _ => false

/-- The state behind a character that is not shown. -/
def next (state : ControlState) (c : Char) : ControlState :=
  if c = '\x1b' then escape
  else if c = '\x18' || c = '\x1a' then ground
  else
    match state with
    | ground => ground
    | escape =>
      if within 0x20 0x2f c then intermediate
      else if c = '[' then sequence
      else if c = ']' then systemCommand
      else if c = 'P' then deviceStart
      else if c = 'X' || c = '^' || c = '_' then string
      else if within 0x30 0x7e c then ground
      else escape
    | intermediate => if within 0x30 0x7e c then ground else intermediate
    | sequence => if within 0x40 0x7e c then ground else sequence
    | deviceStart =>
      if within 0x20 0x2f c then deviceIntermediate
      else if within 0x30 0x3f c then deviceParameter
      else if within 0x40 0x7e c then string
      else deviceStart
    | deviceParameter =>
      if within 0x20 0x2f c then deviceIntermediate
      else if within 0x3c 0x7e c then string
      else deviceParameter
    | deviceIntermediate => if within 0x30 0x7e c then string else deviceIntermediate
    | string => if endsString c then ground else string
    | systemCommand => if c = '\x07' then ground else systemCommand

/-- The characters that are shown, from a state on. While `showing`, a character is judged as outside any
sequence; one beyond ASCII ends the sequence that was interrupted. -/
def shown (showing : Bool) (state : ControlState) : List Char → List Char
  | [] => []
  | c :: rest =>
    if shows (if showing then ground else state) c then
      c :: shown true (if 0x80 ≤ c.toNat then ground else state) rest
    else shown false (state.next c) rest

end ControlState

/-- A text without its control characters and sequences. -/
def withoutControls (text : String) : String :=
  String.ofList (ControlState.shown false .ground text.toList)

/-- The first line of a text, without the characters that end it. -/
def firstLine (text : String) : String :=
  let line := text.toList.takeWhile (· ≠ '\n')
  let broken := line.length < text.length
  String.ofList (if broken && line.getLast? = some '\r' then line.dropLast else line)

end TexProse
