import TexProse.Failure
import TexProse.File.Tree
import TexProse.Notice

/-!
# Finding the file of a document

A document is named by the path of its file, and the extension `tex` may be left out. A single dash names
the standard input.
-/

namespace TexProse

/-- The path of the file that a name means: the name itself if it leads to a file, and else the name with
the extension `tex`, unless it has that already. -/
def findFile (files : FileView) (name : String) : Except Failure String :=
  match files name with
  | .directory => .error (.isDirectory name)
  | .file _ => .ok name
  | .absent =>
    if Path.extension? name.toList = some ['t', 'e', 'x'] then .error (.noFile name)
    else
      let candidate := String.ofList (Path.withExtension name.toList ['t', 'e', 'x'])
      match files candidate with
      | .file _ => .ok candidate
      | _ => .error (.noFile name)

/-- A text and the name it goes by. -/
structure NamedText where
  name : String
  text : String
  deriving DecidableEq, Repr, Inhabited

/-- The text of some bytes. -/
def decodeText (name : String) (contents : Except String ByteArray) : Except Failure NamedText :=
  match contents with
  | .error reason => .error (.unreadable name reason)
  | .ok bytes =>
    match String.fromUTF8? bytes with
    | some text => .ok ⟨name, text⟩
    | none => .error (.unreadable name "stream did not contain valid UTF-8")

/-- The document that a name means, and what is noticed on the way. -/
def readFile (files : FileView) (name : String) : Except Failure NamedText × List Notice :=
  match findFile files name with
  | .error failure => (.error failure, [])
  | .ok path =>
    let text :=
      match files path with
      | .file contents => decodeText path contents
      | _ => .error (.noFile path)
    (text, [.reading path])

/-- The document that a name means, where a dash means the given input. -/
def readNamed (files : FileView) (input : ByteArray) (name : String) :
    Except Failure NamedText × List Notice :=
  if name = "-" then (decodeText "<stdin>" (.ok input), []) else readFile files name

end TexProse
