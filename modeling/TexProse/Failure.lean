import TexProse.Text.Quoted

/-!
# Failures

Every way in which reading a document, projecting it or finding its file can fail. A failure inside
a nested text is wrapped once for each text around it, with the place in that text.
-/

namespace TexProse

inductive Failure where
  /-- The character is no bracket, so none matches it. -/
  | noPartner (c : Char)
  /-- No segment holds the offset. -/
  | noSegment (offset : Nat)
  /-- Two neighbouring segments have one tag. -/
  | sameTag (tag : String) (offset : Nat)
  /-- The text ends inside a bracket that `expected` would close. -/
  | unclosed (expected : Char)
  /-- A nested text lies below the last permitted level. -/
  | tooDeep (levels : Nat)
  | notRead
  | alreadyRead
  /-- The failure arose at a place of a text. -/
  | within (location : String) (cause : Failure)
  /-- The file is there and its contents are not. -/
  | unreadable (path : String) (reason : String)
  | isDirectory (path : String)
  | noFile (path : String)
  /-- The system refused, in its own words. -/
  | system (reason : String)
  deriving DecidableEq, Repr, Inhabited

namespace Failure

def message : Failure → String
  | .noPartner c => "no opposite bracket for " ++ quotedChar c
  | .noSegment offset => "no context found at index " ++ toString offset
  | .sameTag tag offset => "switch to same context " ++ tag ++ " at index " ++ toString offset
  | .unclosed expected =>
    "unclosed bracket, expected " ++ quotedChar expected ++ " before end of input"
  | .tooDeep levels => "content nested deeper than " ++ toString levels ++ " levels"
  | .notRead => "input has not been scanned yet"
  | .alreadyRead => "input has already been scanned"
  | .within location _ => "scan failed at " ++ location
  | .unreadable path _ => "can't read " ++ path
  | .isDirectory path => path ++ " is a directory, only single files can be parsed"
  | .noFile path => "can't open file " ++ path
  | .system reason => reason

/-- The messages of what lies behind a failure, from the nearest cause to the first. -/
def causes : Failure → List String
  | .within _ cause => cause.message :: cause.causes
  | .unreadable _ reason => [reason]
  | _ => []

/-- The failure inside all places. -/
def root : Failure → Failure
  | .within _ cause => cause.root
  | failure => failure

/-- The places of a failure, from the whole document to the innermost text. -/
def locations : Failure → List String
  | .within location cause => location :: cause.locations
  | _ => []

end Failure

end TexProse
