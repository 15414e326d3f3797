import TexProse.Package.Chain
import Mathlib.Data.List.Forall2

/-!
# Interviews

Commands put to packages one after the other. A chain stays the same packages in the same order, and each of
them has heard some of the commands in the order in which they were put to the chain.
-/

namespace TexProse

/-- A package behind the commands it was asked. -/
def Package.after {π : Type} [Package π] (package : π) (commands : List Command) : π :=
  commands.foldl (fun package command => (Package.ask package command).package) package

/-- The first package of a chain hears all that the chain is asked. -/
theorem Package.head?_after {π : Type} [Package π] (packages : Chain π) (commands : List Command) :
    (Package.after packages commands).packages.head? =
      packages.packages.head?.map (Package.after · commands) := by
  have hask (packages : Chain π) (command : Command) : (packages.ask command).package.packages.head? =
      packages.packages.head?.map (Package.after · [command]) := by
    obtain ⟨_ | ⟨package, rest⟩⟩ := packages
    · rfl
    · simp only [Chain.ask, Chain.askFirst]
      split <;> rfl
  induction commands generalizing packages with
  | nil => exact Option.map_id'.symm
  | cons command rest ih =>
      calc (Package.after packages (command :: rest)).packages.head?
          = (packages.ask command).package.packages.head?.map (Package.after · rest) := ih _
        _ = packages.packages.head?.map (Package.after · (command :: rest)) := by
            rw [hask, Option.map_map]
            rfl

/-- A command, and the packages as it finds them. -/
structure Question (π : Type) where
  packages : Chain π
  command : Command

variable {π : Type} [Package π]

/-- What the packages say to the command. -/
def Question.answer (question : Question π) : Option String :=
  (question.packages.ask question.command).text

/-- Questions that are put one after the other, the first to the packages as they are and each further one
as the one before has left them; and the packages behind them all. -/
inductive Interview : Chain π → List (Question π) → Chain π → Prop
  | nil {packages : Chain π} : Interview packages [] packages
  | cons {packages packages' : Chain π} {questions : List (Question π)} (command : Command)
      (hrest : Interview (packages.ask command).package questions packages') :
      Interview packages (⟨packages, command⟩ :: questions) packages'

namespace Interview
variable {packages middle packages' : Chain π} {questions more : List (Question π)}

theorem single (packages : Chain π) (command : Command) :
    Interview packages [⟨packages, command⟩] (packages.ask command).package := .cons command .nil

theorem append (h : Interview packages questions middle) (hmore : Interview middle more packages') :
    Interview packages (questions ++ more) packages' := by
  induction h with
  | nil => exact hmore
  | cons command hrest ih => exact .cons command (ih hmore)

/-- The chain has heard all commands. -/
theorem eq_after (h : Interview packages questions packages') :
    packages' = Package.after packages (questions.map (·.command)) := by
  induction h with
  | nil => rfl
  | cons command hrest ih => exact ih

/-- Every question finds what all before it have left. -/
theorem packages_eq {before after : List (Question π)} {question : Question π}
    (h : Interview packages (before ++ question :: after) packages') :
    question.packages = Package.after packages (before.map (·.command)) := by
  induction before generalizing packages with
  | nil =>
      cases h
      rfl
  | cons first before ih =>
      cases h with
      | cons command hrest => exact ih hrest

/-- A package of a chain is asked a command or is not touched. -/
theorem forall₂_askFirst (command : Command) (packages : List π) :
    List.Forall₂ (fun package package' => package' = package ∨ package' = Package.after package [command])
      packages (Chain.askFirst command packages).package := by
  induction packages with
  | nil => exact .nil
  | cons package rest ih =>
      simp only [Chain.askFirst]
      split
      next text htext =>
        apply List.Forall₂.cons (.inr rfl)
        exact List.forall₂_same.mpr fun _ _ => .inl rfl
      next htext => exact .cons (.inr rfl) ih

omit [Package π] in
theorem forall₂_comp {R S T : π → π → Prop} (hcomp : ∀ a b c, R a b → S b c → T a c) {first second third : List π}
    (hfirst : List.Forall₂ R first second) (hsecond : List.Forall₂ S second third) :
    List.Forall₂ T first third := by
  induction hfirst generalizing third with
  | nil =>
      cases hsecond
      exact .nil
  | cons hhead htail ih =>
      cases hsecond with
      | cons hhead' htail' => exact .cons (hcomp _ _ _ hhead hhead') (ih htail')

/-- The packages stay in their places, and each has heard some of the commands in their order. -/
theorem forall₂_heard (h : Interview packages questions packages') :
    List.Forall₂ (fun package package' => ∃ heard : List Command,
        heard.Sublist (questions.map (·.command)) ∧ package' = Package.after package heard)
      packages.packages packages'.packages := by
  induction h with
  | nil => exact List.forall₂_same.mpr fun package _ => ⟨[], .slnil, rfl⟩
  | @cons packages packages' questions command hrest ih =>
      apply forall₂_comp _ (forall₂_askFirst command packages.packages) ih
      rintro package _ _ (rfl | rfl) ⟨heard, hsublist, rfl⟩
      · exact ⟨heard, hsublist.cons command, rfl⟩
      · exact ⟨command :: heard, hsublist.cons_cons command, rfl⟩

theorem size_eq (h : Interview packages questions packages') : packages'.size = packages.size :=
  h.forall₂_heard.length_eq.symm

/-- No question is put to fewer packages. -/
theorem size_question {before after : List (Question π)} {question : Question π}
    (h : Interview packages (before ++ question :: after) packages') :
    question.packages.size = packages.size := by
  induction before generalizing packages with
  | nil =>
      cases h
      rfl
  | cons first before ih =>
      cases h with
      | cons command hrest => exact (ih hrest).trans (single packages command).size_eq

end Interview

end TexProse
