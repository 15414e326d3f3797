import TexProse.CommandLine.Arguments
import TexProse.File.Document
import TexProse.Latex.Document
import TexProse.Latex.Highlight

/-!
# Running a command line

What the program writes and how it ends, as a function of its arguments, the files and the input.
-/

namespace TexProse.CommandLine

structure Outcome where
  exitCode : Nat := 0
  out : String := ""
  err : String := ""
  deriving DecidableEq, Repr, Inhabited

/-- A count of at least five places, blanks to its left. -/
def alignRight (n : Nat) : String :=
  let digits := toString n
  String.ofList (List.replicate (5 - digits.length) ' ') ++ digits

/-- A count of at least five places, blanks to its right. -/
def alignLeft (n : Nat) : String :=
  let digits := toString n
  digits ++ String.ofList (List.replicate (5 - digits.length) ' ')

/-- A failure to be told to the user, with what lies behind it. -/
structure Complaint where
  message : String
  causes : List String := []
  deriving DecidableEq, Repr, Inhabited

namespace Complaint

def ofFailure (failure : Failure) : Complaint := ⟨failure.message, failure.causes⟩

/-- A failure to read the document of a name. -/
def ofDocument (name : String) (failure : Failure) : Complaint :=
  ⟨"failed to parse " ++ name, failure.message :: failure.causes⟩

/-- Several causes are numbered, a single one is not. -/
def causeLines : List String → String
  | [] => ""
  | [cause] => "\nCaused by:\n    " ++ cause ++ "\n"
  | causes =>
    "\nCaused by:\n" ++ String.join (causes.zipIdx.map fun (cause, i) =>
      alignRight i ++ ": " ++ cause ++ "\n")

def text (complaint : Complaint) : String :=
  "Error: " ++ complaint.message ++ "\n" ++ causeLines complaint.causes

end Complaint

/-- The part of the program that a notice comes from. -/
def noticeModule : Notice → String
  | .missingSpace .. | .bareQuote _ | .unknownQuote .. => "detex_map::latex"
  | .answered .. | .dropped _ | .asked _ => "detex_map::packages"
  | .reading _ => "detex_map::file_handler"

/-- The name of a level, if the log shows it. -/
def levelLabel? : Verbosity → Level → Option String
  | .normal, .warning | .verbose, .warning => some "WARN "
  | .verbose, .detail => some "DEBUG"
  | _, _ => none

/-- Further lines of a message stand four places in. -/
def indentLines (text : String) : String :=
  String.ofList (text.toList.flatMap fun c =>
    if c = '\n' then ['\n', ' ', ' ', ' ', ' '] else [c])

/-- A notice in the log. Nothing in it disturbs a terminal. -/
def logLine (verbosity : Verbosity) (notice : Notice) : String :=
  match levelLabel? verbosity notice.level with
  | some label =>
    withoutControls
      ("[" ++ label ++ " " ++ noticeModule notice ++ "] " ++ indentLines notice.message ++ "\n")
  | none => ""

def logText (verbosity : Verbosity) (notices : List Notice) : String :=
  String.join (notices.map (logLine verbosity))

/-- One piece of a transcript on a line. -/
def pieceLine (piece : Piece) : String :=
  let place := alignRight piece.start ++ ".." ++ alignLeft piece.stop ++ " " ++ quoted piece.content
  match piece.role with
  | .text => "text   " ++ place ++ "\n"
  | .markup none => "markup " ++ place ++ "\n"
  | .markup (some shownAs) => "markup " ++ place ++ " as " ++ quoted shownAs ++ "\n"

/-- What stands between two parts of the output. -/
def divider : String := "\n---\n\n"

/-- A document of a given name and what was noticed while it was read. -/
def readDocument (settings : Settings) (document : NamedText) :
    Except Complaint (TagMap Latex.Tag) × List Notice :=
  let (result, document') := (Latex.Document.ofString settings document.text).read
  ((result.mapError (Complaint.ofDocument document.name)).bind fun _ =>
    document'.map.mapError Complaint.ofFailure, document'.notices.toList)

/-- The settings that the pair of quotation marks asks for. -/
def settingsFor : Option String → Except Complaint Settings
  | none => .ok {}
  | some pair =>
    if pair.length = 2 then .ok (Settings.withQuotes {} pair)
    else .error { message := "--quotes needs exactly two characters, got " ++ quoted pair }

/-- What is printed of a document that was read. -/
def printDocument (markup annotated : Bool) (range : Option SourceRange) (map : TagMap Latex.Tag) :
    Except Failure String := do
  let spans ← map.spans
  let prose ← match range with
    | some range => map.proseIn range.start range.stop
    | none => map.prose
  let transcript ← map.transcript
  let source := if markup then Latex.highlight spans ++ divider else ""
  let pieces := if annotated then divider ++ String.join (transcript.pieces.map pieceLine) else ""
  return source ++ prose ++ "\n" ++ pieces

/-- One line for each offset. -/
def printLocations (source : Source) (offsets : List Nat) : String :=
  String.join (offsets.map fun offset =>
    toString offset ++ ": " ++ source.location offset ++ "\n")

/-- Does the job with a document. -/
def perform (job : Job) (document : NamedText) : Except Complaint String × List Notice :=
  match job with
  | .parse markup annotated range quotes =>
    match settingsFor quotes with
    | .error complaint => (.error complaint, [])
    | .ok settings =>
      let (map, notices) := readDocument settings document
      (map.bind fun map =>
        (printDocument markup annotated range map).mapError Complaint.ofFailure, notices)
  | .locate offsets =>
    let (map, notices) := readDocument {} document
    (map.map fun map => printLocations map.source offsets, notices)

/-- Finds the document and does the job with it. -/
def Invocation.run (files : FileView) (input : ByteArray) (invocation : Invocation) : Outcome :=
  let (document, found) := readNamed files input invocation.file
  let (result, noticed) :=
    match document with
    | .error failure => (Except.error (Complaint.ofFailure failure), [])
    | .ok document => perform invocation.job document
  let log := logText invocation.verbosity (found ++ noticed)
  match result with
  | .ok out => { out := out, err := log }
  | .error complaint => { exitCode := 1, err := log ++ complaint.text }

def Stop.outcome : Stop → Outcome
  | .version => { out := "detex-map 0.1.0\n" }
  | .misuse cause => { exitCode := 2, err := cause.message ++ "\n" }

/-- Runs a command line. -/
def run (files : FileView) (input : ByteArray) (words : List String) : Outcome :=
  match Invocation.read words with
  | .ok invocation => invocation.run files input
  | .error stop => stop.outcome

/-- The paths that a command line may lead to. -/
def pathsOf (words : List String) : List String :=
  match Invocation.read words with
  | .ok invocation =>
    if invocation.file = "-" then []
    else
      [invocation.file,
        String.ofList (Path.withExtension invocation.file.toList ['t', 'e', 'x'])]
  | .error _ => []

/-- Whether a command line reads the standard input. -/
def readsInput (words : List String) : Bool :=
  match Invocation.read words with
  | .ok invocation => invocation.file = "-"
  | .error _ => false

end TexProse.CommandLine
