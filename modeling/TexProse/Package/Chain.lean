import TexProse.Notice

/-!
# Packages

A package is asked about each command of a document and answers with the prose for it or declines; it may
remember what it was asked. A chain asks its packages in order and takes the first answer, and is a package
itself.
-/

namespace TexProse

/-- What a package has to say to a command, and the package as it is afterwards. -/
structure Answer (π : Type) where
  /-- The prose for the command, none if the package declines. -/
  text : Option String
  package : π
  notices : List Notice := []

/-- The same answer from a package inside another. -/
def Answer.map {π ρ : Type} (wrap : π → ρ) (answer : Answer π) : Answer ρ :=
  ⟨answer.text, wrap answer.package, answer.notices⟩

class Package (π : Type) where
  ask : π → Command → Answer π

/-- Packages in the order in which they are asked. -/
structure Chain (π : Type) where
  packages : List π := []
  deriving Repr, Inhabited

namespace Chain
variable {π : Type} [Package π]

/-- Asks packages until one answers; those behind it are not touched. -/
def askFirst (command : Command) : List π → Answer (List π)
  | [] => ⟨none, [], []⟩
  | package :: rest =>
    let answer := Package.ask package command
    match answer.text with
    | some text => ⟨some text, answer.package :: rest, answer.notices⟩
    | none =>
      let later := askFirst command rest
      ⟨later.text, answer.package :: later.package, answer.notices ++ later.notices⟩

/-- What a chain notices when all is asked. -/
def verdict (command : Command) : Option String → Notice
  | some text => .answered command text
  | none => .dropped command

def ask (chain : Chain π) (command : Command) : Answer (Chain π) :=
  let answer := askFirst command chain.packages
  ⟨answer.text, ⟨answer.package⟩, answer.notices ++ [verdict command answer.text]⟩

instance : Package (Chain π) := ⟨ask⟩

def size (chain : Chain π) : Nat := chain.packages.length

end Chain

/-- A package of one kind or of another. -/
instance {π ρ : Type} [Package π] [Package ρ] : Package (π ⊕ ρ) where
  ask
    | .inl package, command => (Package.ask package command).map .inl
    | .inr package, command => (Package.ask package command).map .inr

end TexProse
