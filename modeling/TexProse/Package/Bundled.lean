import TexProse.Package.Chain
import TexProse.Settings

/-!
# Bundled packages

What every document starts with: the escapes of the kernel, the euro sign, and a package for documents of
all kinds that goes by the names of commands. Only the last one remembers anything, which is what the
acronyms of the document stand for.
-/

namespace TexProse

/-- Escapes of one character, and line breaks. -/
structure Kernel where
  deriving DecidableEq, Repr

/-- The prose of an escape is its character, but for the protected space and the line break. -/
def Kernel.escape : Char → Char
  | ',' => '\u202f'
  | '\\' => '\n'
  | c => c

def Kernel.answer (command : Command) : Option String :=
  match command.name.toList with
  | ['\\', c] => some (Kernel.escape c).toString
  | _ =>
    if command.name = "\\newline" ∨ command.name = "\\linebreak" then some "\n" else none

instance : Package Kernel where
  ask package command := ⟨Kernel.answer command, package, []⟩

/-- The euro sign, alone or with an amount. -/
structure Euro where
  deriving DecidableEq, Repr

def Euro.answer (command : Command) : Option String :=
  if command.name = "\\euro" then some "€"
  else if command.name = "\\EUR" then
    match command.arguments with
    | [amount] => if amount = "" then none else some (amount ++ " €")
    | _ => none
  else none

instance : Package Euro where
  ask package command := ⟨Euro.answer command, package, []⟩

/-- Commands found in documents of all kinds. -/
structure Article where
  settings : Settings := {}
  /-- Short and long forms, the latest definition first. -/
  acronyms : List (String × String) := []
  deriving DecidableEq, Repr, Inhabited

namespace Article

/-- The long form of an acronym, as it was defined last. -/
def acronym? (article : Article) (short : String) : Option String := article.acronyms.lookup short

def define (article : Article) (short long : String) : Article :=
  { article with acronyms := (short, long) :: article.acronyms }

/-- Sections of all depths, with or without a number, and titles. -/
def isHeadline (name : String) : Bool :=
  "section".toList.reverse.isPrefixOf (name.toList.reverse.dropWhile (· = '*')) ||
    "title".toList.reverse.isPrefixOf name.toList.reverse

/-- What stands for a reference, whose number is not known. -/
def referenceText : String := "1.0.0"

/-- What stands for an acronym without a definition. -/
def acronymText : String := "Text"

def answer (article : Article) (command : Command) : Option String :=
  if isHeadline command.name then
    command.arguments.head?.map fun title => "\n\n" ++ title ++ ".\n"
  else
    match command.name with
    | "\\underline" | "\\textbf" | "\\emph" | "\\texttt" | "\\url" => command.arguments.head?
    | "\\textit" =>
      match command.arguments with
      | [text] => some (article.settings.quote text)
      | _ => none
    | "\\item" => some ("\n- " ++ " ".intercalate command.arguments)
    | "\\end" => some "\n"
    | "\\ref" => some referenceText
    | "\\ac" =>
      match command.arguments with
      | [short] => some ((article.acronym? short).getD acronymText)
      | _ => some acronymText
    | "\\caption" =>
      match command.arguments with
      | [caption] => some (caption ++ ".")
      | _ => none
    | _ => none

/-- A definition of an acronym adds nothing to the prose and is remembered. -/
def learn (article : Article) (command : Command) : Article :=
  match command.name, command.arguments with
  | "\\acro", [short, long] => article.define short long
  | _, _ => article

end Article

instance : Package Article where
  ask article command := ⟨article.answer command, article.learn command, []⟩

inductive Bundled where
  | kernel (package : Kernel)
  | euro (package : Euro)
  | article (package : Article)
  deriving DecidableEq, Repr

instance : Package Bundled where
  ask
    | .kernel package, command => (Package.ask package command).map .kernel
    | .euro package, command => (Package.ask package command).map .euro
    | .article package, command => (Package.ask package command).map .article

/-- The packages that every document starts with. -/
def Chain.bundled (settings : Settings) : Chain Bundled :=
  ⟨[.kernel {}, .euro {}, .article { settings := settings }]⟩

end TexProse
