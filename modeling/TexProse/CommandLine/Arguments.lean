import TexProse.CommandLine.Range
import TexProse.Text.Control

/-!
# Arguments

The words of a command line, read one by one from the left. Words before the task belong to the program,
words behind it to the task. An option takes its value from its own word or from the next one, and a value
is looked at as soon as the next argument shows that it is complete.
-/

namespace TexProse.CommandLine

/-- What the program is asked to do. -/
inductive Task where
  /-- Print the prose of a document. -/
  | parse
  /-- Print where offsets of a document stand. -/
  | locate
  deriving DecidableEq, Repr

def Task.of? (word : String) : Option Task :=
  if word = "parse" then some .parse else if word = "locate" then some .locate else none

inductive Argument where
  | quiet
  | verbose
  | version
  | markup
  | annotated
  | range
  | quotes
  | file
  | offsets
  deriving DecidableEq, Repr

namespace Argument

/-- The argument as a message shows it. -/
def shown : Argument → String
  | quiet => "--quiet"
  | verbose => "--verbose"
  | version => "--version"
  | markup => "--markup"
  | annotated => "--annotated"
  | range => "--range <START..END>"
  | quotes => "--quotes <PAIR>"
  | file => "<FILE>"
  | offsets => "<OFFSETS>..."

def long? : Argument → Option String
  | quiet => some "quiet"
  | verbose => some "verbose"
  | version => some "version"
  | markup => some "markup"
  | annotated => some "annotated"
  | range => some "range"
  | quotes => some "quotes"
  | file | offsets => none

def short? : Argument → Option Char
  | quiet => some 'q'
  | verbose => some 'v'
  | version => some 'V'
  | markup => some 'm'
  | annotated => some 'a'
  | range => some 'r'
  | quotes | file | offsets => none

def takesValue : Argument → Bool
  | range | quotes => true
  | _ => false

end Argument

/-- The options that may stand before the task, and those that may stand behind it. -/
def optionsOf : Option Task → List Argument
  | none => [.quiet, .verbose, .version]
  | some .parse => [.markup, .annotated, .range, .quotes, .quiet, .verbose]
  | some .locate => [.quiet, .verbose]

/-- The argument that a word without a dash is, when so many of the others have come before it. -/
def positional? : Option Task → Nat → Option Argument
  | some _, 0 => some .file
  | some .locate, _ + 1 => some .offsets
  | _, _ => none

inductive Misuse where
  /-- There are no arguments at all. -/
  | nothing
  | noTask
  | unknownTask (word : String)
  | unexpected (word : String)
  | unneededValue (argument : Argument) (value : String)
  | repeated (argument : Argument)
  | missingValue (argument : Argument)
  | invalidValue (argument : Argument) (value reason : String)
  | conflict (first second : Argument)
  /-- Something that the task needs is missing. -/
  | incomplete
  deriving DecidableEq, Repr

/-- A word of the user in a message, without what could disturb a terminal. -/
def citedWord (word : String) : String := "'" ++ withoutControls word ++ "'"

/-- An argument in a message. -/
def citedArgument (argument : Argument) : String := "'" ++ argument.shown ++ "'"

/-- What a user is told first. -/
def Misuse.message : Misuse → String
  | nothing => "Strip LaTeX markup to plain text while keeping a map back to the source"
  | noTask => "error: 'detex-map' requires a subcommand but one was not provided"
  | unknownTask word => "error: unrecognized subcommand " ++ citedWord word
  | unexpected word => "error: unexpected argument " ++ citedWord word ++ " found"
  | unneededValue argument value =>
    "error: unexpected value " ++ citedWord value ++ " for " ++ citedArgument argument ++
      " found; no more were expected"
  | repeated argument =>
    "error: the argument " ++ citedArgument argument ++ " cannot be used multiple times"
  | missingValue argument =>
    "error: a value is required for " ++ citedArgument argument ++ " but none was supplied"
  | invalidValue argument value reason =>
    "error: invalid value " ++ citedWord value ++ " for " ++ citedArgument argument ++ ": " ++ reason
  | conflict first second =>
    "error: the argument " ++ citedArgument first ++ " cannot be used with " ++ citedArgument second
  | incomplete => "error: the following required arguments were not provided:"

/-- Why a command line leads to no task. -/
inductive Stop where
  /-- The version was asked for, which goes before all else. -/
  | version
  | misuse (cause : Misuse)
  deriving DecidableEq, Repr

/-- The arguments before the task or behind it, as far as they are complete. -/
structure Given where
  /-- The options without a value, in the order in which they came. -/
  switches : List Argument := []
  range : Option SourceRange := none
  quotes : Option String := none
  file : Option String := none
  offsets : Option (List Nat) := none
  deriving Repr

namespace Given

/-- Takes the value of an option that may come once. -/
def once {α : Type} (argument : Argument) (old : Option α) :
    List String → (String → Except Stop α) → Except Stop α
  | [], _ => .error (.misuse (.missingValue argument))
  | value :: _, read =>
    if old.isSome then .error (.misuse (.repeated argument)) else read value

def readOffset (value : String) : Except Stop Nat :=
  (readCount value.toList).mapError fun fault =>
    .misuse (.invalidValue .offsets value fault.message)

def readRange (value : String) : Except Stop SourceRange :=
  (SourceRange.read value).mapError fun fault =>
    .misuse (.invalidValue .range value fault.message)

/-- Takes a complete argument. Offsets may come in several runs with options between them. -/
def accept (given : Given) (argument : Argument) (values : List String) : Except Stop Given :=
  match argument with
  | .version => .error .version
  | .range => do return { given with range := some (← once .range given.range values readRange) }
  | .quotes => do return { given with quotes := some (← once .quotes given.quotes values .ok) }
  | .file => .ok { given with file := values.head? }
  | .offsets => do
    let more ← values.mapM readOffset
    return { given with offsets := some (given.offsets.getD [] ++ more) }
  | switch =>
    if switch ∈ given.switches then .error (.misuse (.repeated switch))
    else .ok { given with switches := given.switches ++ [switch] }

/-- The two options about the log exclude each other. -/
def checkConflict (given : Given) : Except Stop Unit :=
  match given.switches.filter (· ∈ [Argument.quiet, .verbose]) with
  | first :: second :: _ => .error (.misuse (.conflict first second))
  | _ => .ok ()

end Given

/-- The arguments so far, with one that may still get values. -/
structure Progress where
  given : Given := {}
  pending : Option (Argument × List String) := none
  /-- Whether two dashes have ended the options. -/
  literal : Bool := false
  /-- How many words without a dash have been taken. -/
  places : Nat := 0

namespace Progress

/-- Takes the argument that was still getting values. -/
def settle (progress : Progress) : Except Stop Progress :=
  match progress.pending with
  | none => .ok progress
  | some (argument, values) => do
    return { progress with given := ← progress.given.accept argument values, pending := none }

/-- Takes an argument whose values are all there. -/
def take (progress : Progress) (argument : Argument) (values : List String) :
    Except Stop Progress := do
  let progress ← progress.settle
  return { progress with given := ← progress.given.accept argument values }

/-- Begins an argument that gets values from the words to come. -/
def start (progress : Progress) (argument : Argument) (values : List String) :
    Except Stop Progress := do
  return { ← progress.settle with pending := some (argument, values) }

/-- Reads a cluster of options of one letter each. What stands behind one that takes a value is the
value. -/
def readShort (task : Option Task) : List Char → Progress → Except Stop Progress
  | [], progress => .ok progress
  | c :: rest, progress =>
    match (optionsOf task).find? (·.short? = some c) with
    | none => .error (.misuse (.unexpected (String.ofList ['-', c])))
    | some argument =>
      if argument.takesValue then
        match rest with
        | [] => progress.start argument []
        | '=' :: value => progress.take argument [String.ofList value]
        | value => progress.take argument [String.ofList value]
      else do readShort task rest (← progress.take argument [])

/-- Reads an option with its long name, perhaps with a value behind an equals sign. -/
def readLong (task : Option Task) (word : List Char) (progress : Progress) :
    Except Stop Progress :=
  let name := String.ofList (word.takeWhile (· ≠ '='))
  let value? :=
    match word.dropWhile (· ≠ '=') with
    | _ :: value => some (String.ofList value)
    | [] => none
  match (optionsOf task).find? (·.long? = some name) with
  | none => .error (.misuse (.unexpected ("--" ++ name)))
  | some argument =>
    match argument.takesValue, value? with
    | true, some value => progress.take argument [value]
    | true, none => progress.start argument []
    | false, some value => .error (.misuse (.unneededValue argument value))
    | false, none => progress.take argument []

/-- Reads a word that is no option. -/
def readPlace (task : Option Task) (word : String) (progress : Progress) : Except Stop Progress :=
  match positional? task progress.places with
  | some .offsets =>
    match progress.pending with
    | some (.offsets, values) =>
      .ok { progress with pending := some (.offsets, values ++ [word]) }
    | _ => progress.start .offsets [word]
  | some argument => do
    return { ← progress.start argument [word] with places := progress.places + 1 }
  | none =>
    if task.isNone && !(progress.literal && (Task.of? word).isSome) then
      .error (.misuse (.unknownTask word))
    else .error (.misuse (.unexpected word))

/-- Reads a word that is no option, or the value of the option before it. -/
def readPlain (task : Option Task) (word : String) (progress : Progress) : Except Stop Progress :=
  match progress.pending with
  | some (argument, []) => .ok { progress with pending := some (argument, [word]) }
  | _ => readPlace task word progress

/-- Reads one word. A single dash is no option, and behind two dashes nothing is. -/
def readWord (task : Option Task) (progress : Progress) (word : String) : Except Stop Progress :=
  if progress.literal then readPlace task word progress
  else
    match word.toList with
    | ['-', '-'] => .ok { progress with literal := true }
    | '-' :: '-' :: option => readLong task option progress
    | ['-'] => readPlain task word progress
    | '-' :: options => readShort task options progress
    | _ => readPlain task word progress

end Progress

/-- How much of the log is shown. -/
inductive Verbosity where
  | quiet
  | normal
  | verbose
  deriving DecidableEq, Repr

/-- What a task is to do with the document. -/
inductive Job where
  | parse (markup annotated : Bool) (range : Option SourceRange) (quotes : Option String)
  | locate (offsets : List Nat)
  deriving Repr

structure Invocation where
  verbosity : Verbosity
  /-- The name of the document. -/
  file : String
  job : Job
  deriving Repr

namespace Invocation

/-- The log is as quiet or as verbose as the arguments say, before the task or behind it. -/
def verbosityOf (outer inner : Given) : Verbosity :=
  let switches := outer.switches ++ inner.switches
  if Argument.quiet ∈ switches then .quiet
  else if Argument.verbose ∈ switches then .verbose
  else .normal

def jobOf (task : Task) (given : Given) : Option Job :=
  match task with
  | .parse =>
    some (.parse (.markup ∈ given.switches) (.annotated ∈ given.switches) given.range given.quotes)
  | .locate => given.offsets.map .locate

/-- Puts the arguments before the task and behind it together. Those behind it are checked first. -/
def ofGiven (task : Task) (outer inner : Given) : Except Stop Invocation := do
  inner.checkConflict
  match inner.file, jobOf task inner with
  | some file, some job =>
    outer.checkConflict
    return { verbosity := verbosityOf outer inner, file := file, job := job }
  | _, _ => throw (.misuse .incomplete)

/-- Reads the words of a command line, of which some before the task are read already. -/
def readFrom (outer : Progress) : List String → Except Stop Invocation
  | [] => do
    let outer ← outer.settle
    throw (.misuse (if outer.given.switches = [] then .nothing else .noTask))
  | word :: rest =>
    match if outer.literal then none else Task.of? word with
    | some task => do
      let inner ← rest.foldlM (Progress.readWord (some task)) {}
      let inner ← inner.settle
      ofGiven task outer.given inner.given
    | none => do readFrom (← outer.readWord none word) rest

/-- Reads the words of a command line. -/
def read (words : List String) : Except Stop Invocation := readFrom {} words

end Invocation

end TexProse.CommandLine
