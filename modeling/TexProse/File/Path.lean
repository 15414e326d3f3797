/-!
# Paths

A path is a text whose parts are separated by slashes. Slashes and single dots at its end say nothing of
the name of the file, and a name has an extension if a dot stands in it behind the first character.
-/

namespace TexProse.Path

/-- The parts between slashes. -/
def split : List Char → List (List Char)
  | [] => [[]]
  | c :: rest =>
    if c = '/' then [] :: split rest
    else
      match split rest with
      | part :: parts => (c :: part) :: parts
      | [] => [[c]]

/-- Parts with slashes between them. -/
def join (parts : List (List Char)) : List Char := List.intercalate ['/'] parts

/-- A part that stays where it is. -/
def isIdle (part : List Char) : Bool := part = [] || part = ['.']

/-- The parts up to the last one that leads somewhere. -/
def trunk (path : List Char) : List (List Char) :=
  ((split path).reverse.dropWhile isIdle).reverse

/-- The name of the file, none if the path ends on its way up or says nothing at all. -/
def name? (path : List Char) : Option (List Char) :=
  (trunk path).getLast?.filter (· ≠ ['.', '.'])

/-- A name cut at its last dot: what stands before the dot and what stands behind it. A dot in the first
place does not count, and neither do the dots of the name `..`. -/
def cutName (name : List Char) : List Char × Option (List Char) :=
  let behind := name.reverse.takeWhile (· ≠ '.')
  let stem := (name.reverse.drop (behind.length + 1)).reverse
  if name = ['.', '.'] ∨ stem = [] then (name, none) else (stem, some behind.reverse)

def extension? (path : List Char) : Option (List Char) :=
  (name? path).bind fun name => (cutName name).2

/-- Ends the name of the file behind its stem and puts the extension there. A path without a name stays as
it is. -/
def putExtension (path extension : List Char) : List Char :=
  match name? path with
  | none => path
  | some name => join ((trunk path).dropLast ++ [(cutName name).1 ++ '.' :: extension])

/-- The path with another extension. As many characters as the old one has go from the end first, so a name
such as `..x` is a way up by the time the new extension is put, and gets none. -/
def withExtension (path extension : List Char) : List Char :=
  match extension? path with
  | none => putExtension path extension
  | some old => putExtension (path.take (path.length - old.length)) extension

end TexProse.Path
