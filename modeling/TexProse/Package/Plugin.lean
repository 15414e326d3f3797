import TexProse.Package.Bundled

/-!
# Packages to put together

Packages for chains of one's own, beside the bundled ones: one that repeats what it is asked, one that
only listens, one that answers from a list, and a whole chain as a single package.
-/

namespace TexProse

/-- Answers every command with its name and its arguments between angle brackets. -/
structure Echo where
  deriving DecidableEq, Repr

def Echo.answer (command : Command) : String :=
  "<" ++ "|".intercalate (command.name :: command.arguments) ++ ">"

instance : Package Echo where
  ask package command := ⟨some (Echo.answer command), package, []⟩

/-- Declines every command and leaves a notice of it. -/
structure Listener where
  deriving DecidableEq, Repr

instance : Package Listener where
  ask package command := ⟨none, package, [.asked command]⟩

/-- Answers by the name of the command alone. -/
structure Glossary where
  entries : List (String × String)
  deriving DecidableEq, Repr

instance : Package Glossary where
  ask glossary command := ⟨glossary.entries.lookup command.name, glossary, []⟩

inductive Plugin where
  | bundled (package : Bundled)
  | chain (chain : Chain Bundled)
  | echo (package : Echo)
  | listener (package : Listener)
  | glossary (package : Glossary)

instance : Package Plugin where
  ask
    | .bundled package, command => (Package.ask package command).map .bundled
    | .chain chain, command => (Package.ask chain command).map .chain
    | .echo package, command => (Package.ask package command).map .echo
    | .listener package, command => (Package.ask package command).map .listener
    | .glossary package, command => (Package.ask package command).map .glossary

end TexProse
