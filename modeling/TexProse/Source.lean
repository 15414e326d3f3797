/-!
# Source texts

A text in which every offset counts characters, with the offsets at which its lines start. A line ends
with a line feed, with a carriage return, or with the two together, and each of the three is one break.
-/

namespace TexProse

/-- Offsets right behind the line breaks of a text whose first character stands at `offset`. -/
def lineStartsAfter : Nat → List Char → List Nat
  | _, [] => []
  | offset, '\r' :: '\n' :: rest => (offset + 2) :: lineStartsAfter (offset + 2) rest
  | offset, c :: rest =>
    if c = '\n' ∨ c = '\r' then (offset + 1) :: lineStartsAfter (offset + 1) rest
    else lineStartsAfter (offset + 1) rest

/-- A text and the offsets where its lines start. -/
structure Source where
  chars : Array Char
  lineStarts : List Nat
  lineStarts_eq : lineStarts = 0 :: lineStartsAfter 0 chars.toList

namespace Source

def ofChars (chars : Array Char) : Source := ⟨chars, _, rfl⟩

def ofString (text : String) : Source := ofChars text.toList.toArray

protected theorem ext {a b : Source} (h : a.chars = b.chars) : a = b := by
  cases a with
  | mk chars starts hs =>
    cases b with
    | mk chars' starts' hs' => subst h hs hs'; rfl

/-- The text itself. -/
def text (source : Source) : String := String.ofList source.chars.toList

@[simp] theorem chars_ofString (text : String) : (ofString text).chars = text.toList.toArray := rfl

@[simp] theorem text_ofString (text : String) : (ofString text).text = text := by
  simp [Source.text]

def length (source : Source) : Nat := source.chars.size

@[simp] theorem length_ofString (text : String) : (ofString text).length = text.length := by
  simp [length, String.length_toList]

/-- The character at an offset, none at the end and behind it. -/
def char? (source : Source) (offset : Nat) : Option Char := source.chars[offset]?

theorem lt_length_of_char? {source : Source} {offset : Nat} {c : Char} (h : source.char? offset = some c) :
    offset < source.length :=
  (Array.getElem?_eq_some_iff.mp h).1

theorem char?_of_split {source : Source} {before rest : List Char} (h : source.chars.toList = before ++ rest)
    (inside : Nat) : source.char? (before.length + inside) = rest[inside]? := by
  rw [char?, ← Array.getElem?_toList, h, List.getElem?_append_right (Nat.le_add_right _ _),
    Nat.add_sub_cancel_left]

/-- The characters from `start` up to `stop`, as far as the text has them; nothing if `stop` comes
first. -/
def slice (source : Source) (start stop : Nat) : String :=
  String.ofList (source.chars.extract start stop).toList

/-- A break at the very end starts one more line, which is empty. -/
def lineCount (source : Source) : Nat := source.lineStarts.length

/-- Line and column of an offset, both counted from 1. The end of the text has a position, offsets
behind it have none. -/
def position? (source : Source) (offset : Nat) : Option (Nat × Nat) :=
  if source.length < offset then none
  else
    let begun := source.lineStarts.takeWhile (· ≤ offset)
    some (begun.length, offset - begun.getLastD 0 + 1)

/-- An offset as `line:column (offset)`. Behind the end of the text the line is the last one and the
column is unknown. -/
def location (source : Source) (offset : Nat) : String :=
  match source.position? offset with
  | some (line, column) => toString line ++ ":" ++ toString column ++ " (" ++ toString offset ++ ")"
  | none => toString source.lineCount ++ ":? (" ++ toString offset ++ ")"

end Source

/-- A place in a source text. -/
structure Cursor where
  source : Source
  offset : Nat

namespace Cursor

/-- The character at the place, U+0000 behind the end. -/
def char (here : Cursor) : Char := (here.source.char? here.offset).getD '\x00'

def next? (here : Cursor) : Option Char := here.source.char? (here.offset + 1)

def previous? (here : Cursor) : Option Char :=
  if here.offset = 0 then none else here.source.char? (here.offset - 1)

section Split
variable {source : Source} {before rest : List Char} {c : Char}

theorem next?_of_split (h : source.chars.toList = before ++ c :: rest) :
    next? ⟨source, before.length⟩ = rest.head? :=
  (Source.char?_of_split h 1).trans List.head?_eq_getElem?.symm

theorem previous?_of_split (h : source.chars.toList = before ++ rest) :
    previous? ⟨source, before.length⟩ = before.getLast? := by
  rw [previous?]
  split
  next hzero =>
    obtain rfl := List.length_eq_zero_iff.mp hzero
    rfl
  next hsome =>
    have hlast : before.length - 1 < before.length := Nat.sub_one_lt hsome
    rw [List.getLast?_eq_getElem?, Source.char?, ← Array.getElem?_toList, h, List.getElem?_append_left hlast]

end Split

def location (here : Cursor) : String := here.source.location here.offset

/-- The text from `start` up to the place, its character excluded. -/
def textSince (here : Cursor) (start : Nat) : String := here.source.slice start here.offset

end Cursor

end TexProse
