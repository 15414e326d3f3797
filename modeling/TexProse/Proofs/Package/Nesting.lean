import TexProse.Package.Bundled
import TexProse.Proofs.Package.Interview

/-!
# Chains inside chains

A chain is a package itself, so it may stand among the packages of another chain. Which packages are asked decides
what they remember, and so all later answers; therefore the chains are compared over whole runs of commands.
Main statement: `answers_nested`, which says that it makes no difference whether some packages in a row are put
into a chain of their own.
-/

namespace TexProse

/-- What a package says to commands put to it one after the other. -/
def Package.answers {π : Type} [Package π] (package : π) : List Command → List (Option String)
  | [] => []
  | command :: rest =>
    (Package.ask package command).text :: Package.answers (Package.ask package command).package rest

/-- A package inside another one that passes on what it is asked and what it answers. -/
structure Package.Relays {π ρ : Type} [Package π] [Package ρ] (wrap : π → ρ) : Prop where
  text : ∀ package command, (Package.ask (wrap package) command).text = (Package.ask package command).text
  package : ∀ package command,
    (Package.ask (wrap package) command).package = wrap (Package.ask package command).package

namespace Package.Relays
variable {π ρ : Type} [Package π] [Package ρ] {wrap : π → ρ}

theorem answers (h : Relays wrap) (package : π) (commands : List Command) :
    Package.answers (wrap package) commands = Package.answers package commands := by
  induction commands generalizing package with
  | nil => rfl
  | cons command rest ih => rw [Package.answers, Package.answers, h.text, h.package, ih]

theorem after (h : Relays wrap) (package : π) (commands : List Command) :
    Package.after (wrap package) commands = wrap (Package.after package commands) := by
  induction commands generalizing package with
  | nil => rfl
  | cons command rest ih =>
      calc Package.after (wrap package) (command :: rest)
          = Package.after (wrap (Package.ask package command).package) rest :=
            congrArg (Package.after · rest) (h.package package command)
        _ = wrap (Package.after package (command :: rest)) := ih _

end Package.Relays

namespace Chain
variable {π : Type} [Package π]

/-- A command put to packages in turn, with the answer and the packages as they are then. Each package up to the
first that answers hears the command once, and those behind that one are not touched. -/
inductive InTurn (command : Command) : List π → Option String → List π → Prop
  | declined {packages : List π} (hdeclined : ∀ package ∈ packages, (Package.ask package command).text = none) :
      InTurn command packages none (packages.map (Package.after · [command]))
  | answered {before after : List π} {package : π} {text : String}
      (hdeclined : ∀ earlier ∈ before, (Package.ask earlier command).text = none)
      (htext : (Package.ask package command).text = some text) :
      InTurn command (before ++ package :: after) (some text)
        (before.map (Package.after · [command]) ++ Package.after package [command] :: after)

theorem InTurn.cons {command : Command} {package : π} {packages packages' : List π} {answer : Option String}
    (hdeclined : (Package.ask package command).text = none) (h : InTurn command packages answer packages') :
    InTurn command (package :: packages) answer (Package.after package [command] :: packages') := by
  cases h with
  | declined hrest => exact .declined (List.forall_mem_cons.mpr ⟨hdeclined, hrest⟩)
  | @answered before after later text hbefore htext =>
      exact .answered (List.forall_mem_cons.mpr ⟨hdeclined, hbefore⟩) htext

theorem inTurn_askFirst (command : Command) (packages : List π) :
    InTurn command packages (askFirst command packages).text (askFirst command packages).package := by
  induction packages with
  | nil => exact .declined (by simp)
  | cons package rest ih =>
      rw [askFirst]
      split
      next text htext => exact .answered (List.forall_mem_nil _) htext
      next hdeclined => exact ih.cons hdeclined

/-- Packages behind others are asked only if none of those answers. -/
theorem askFirst_append (command : Command) (front back : List π) : askFirst command (front ++ back) =
    match askFirst command front with
    | ⟨some text, front', notices⟩ => ⟨some text, front' ++ back, notices⟩
    | ⟨none, front', notices⟩ =>
      ⟨(askFirst command back).text, front' ++ (askFirst command back).package,
        notices ++ (askFirst command back).notices⟩ := by
  induction front with
  | nil => rfl
  | cons package rest ih =>
      simp only [List.cons_append, askFirst, ih]
      split
      · rfl
      · rcases askFirst command rest with ⟨_ | text, rest', notices⟩
        · simp
        · rfl

/-- Packages that answer alike answer alike in turn. -/
theorem askFirst_map {ρ : Type} [Package ρ] {command : Command} (wrap : π → ρ)
    (hwrap : ∀ package, Package.ask (wrap package) command = (Package.ask package command).map wrap)
    (packages : List π) :
    askFirst command (packages.map wrap) = (askFirst command packages).map (List.map wrap) := by
  induction packages with
  | nil => rfl
  | cons package rest ih =>
      simp only [List.map_cons, askFirst, hwrap, ih, Answer.map]
      split <;> rfl

theorem length_askFirst (command : Command) (packages : List π) :
    (askFirst command packages).package.length = packages.length :=
  (Interview.forall₂_askFirst command packages).length_eq.symm

end Chain

/-- Packages in three rows, which are asked one after the other. -/
structure Rows (π : Type) where
  front : List π
  inner : List π
  back : List π

namespace Rows
variable {π : Type}

/-- The inner row in a chain of its own, between the packages of the other two. -/
def nested (rows : Rows π) : Chain (π ⊕ Chain π) :=
  ⟨rows.front.map .inl ++ .inr ⟨rows.inner⟩ :: rows.back.map .inl⟩

/-- All packages in one chain. -/
def flat (rows : Rows π) : Chain π := ⟨rows.front ++ (rows.inner ++ rows.back)⟩

/-- Rows with as many packages each. -/
structure IsLike (rows' rows : Rows π) : Prop where
  front : rows'.front.length = rows.front.length
  inner : rows'.inner.length = rows.inner.length
  back : rows'.back.length = rows.back.length

theorem IsLike.trans {rows rows' rows'' : Rows π} (h : rows''.IsLike rows') (h' : rows'.IsLike rows) :
    rows''.IsLike rows :=
  ⟨h.front.trans h'.front, h.inner.trans h'.inner, h.back.trans h'.back⟩

variable [Package π]

/-- A row is asked only if no row before it answers. -/
def ask (rows : Rows π) (command : Command) : Answer (Rows π) :=
  match Chain.askFirst command rows.front with
  | ⟨some text, front, notices⟩ => ⟨some text, { rows with front := front }, notices⟩
  | ⟨none, front, notices⟩ =>
    match Chain.askFirst command rows.inner with
    | ⟨some text, inner, later⟩ => ⟨some text, { rows with front := front, inner := inner }, notices ++ later⟩
    | ⟨none, inner, later⟩ =>
      let last := Chain.askFirst command rows.back
      ⟨last.text, ⟨front, inner, last.package⟩, notices ++ (later ++ last.notices)⟩

instance : Package (Rows π) := ⟨ask⟩

theorem isLike_ask (rows : Rows π) (command : Command) : (rows.ask command).package.IsLike rows := by
  have hfront := Chain.length_askFirst command rows.front
  have hinner := Chain.length_askFirst command rows.inner
  rw [ask]
  split
  next text front notices heq =>
    rw [heq] at hfront
    exact ⟨hfront, rfl, rfl⟩
  next front notices heq =>
    rw [heq] at hfront
    split
    next text inner later heq' =>
      rw [heq'] at hinner
      exact ⟨hfront, hinner, rfl⟩
    next inner later heq' =>
      rw [heq'] at hinner
      exact ⟨hfront, hinner, Chain.length_askFirst command rows.back⟩

theorem isLike_after (rows : Rows π) (commands : List Command) : (Package.after rows commands).IsLike rows := by
  induction commands generalizing rows with
  | nil => exact ⟨rfl, rfl, rfl⟩
  | cons command rest ih => exact (ih _).trans (rows.isLike_ask command)

theorem askFirst_flat (rows : Rows π) (command : Command) :
    Chain.askFirst command rows.flat.packages = (rows.ask command).map fun rows => rows.flat.packages := by
  rw [flat, ask, Chain.askFirst_append, Chain.askFirst_append]
  rcases Chain.askFirst command rows.front with ⟨_ | text, front, notices⟩
  · rcases Chain.askFirst command rows.inner with ⟨_ | text, inner, later⟩
    · rfl
    · rfl
  · rfl

theorem relays_flat : Package.Relays (flat : Rows π → Chain π) where
  text rows command := congrArg Answer.text (rows.askFirst_flat command)
  package rows command := congrArg (fun answer => Chain.mk answer.package) (rows.askFirst_flat command)

/-- The chain in the middle passes a command on to its packages, and notices the outcome besides. -/
theorem relays_nested : Package.Relays (nested : Rows π → Chain (π ⊕ Chain π)) := by
  have hask (rows : Rows π) (command : Command) :
      (rows.nested.ask command).text = (rows.ask command).text ∧
        (rows.nested.ask command).package = (rows.ask command).package.nested := by
    have hmap (packages : List π) : Chain.askFirst command (packages.map (.inl : π → π ⊕ Chain π)) =
        (Chain.askFirst command packages).map (List.map .inl) :=
      Chain.askFirst_map Sum.inl (fun _ => rfl) packages
    rw [nested, Chain.ask, ask, Chain.askFirst_append, hmap, Answer.map]
    rcases Chain.askFirst command rows.front with ⟨_ | text, front, notices⟩
    · simp only [Chain.askFirst, Package.ask, Chain.ask, Answer.map, hmap]
      rcases Chain.askFirst command rows.inner with ⟨_ | text, inner, later⟩
      · exact ⟨rfl, rfl⟩
      · exact ⟨rfl, rfl⟩
    · exact ⟨rfl, rfl⟩
  exact ⟨fun rows command => (hask rows command).1, fun rows command => (hask rows command).2⟩

/-- It makes no difference to any package, and to no answer, whether the packages of the inner row stand in a
chain of their own. After any commands both chains have the same three rows, each with as many packages as at the
start; and whatever is asked next, both give one answer and are left with the same rows again, in which each
package up to the first that answers has heard the command once and those behind it have not been touched. -/
theorem answers_nested (rows : Rows π) (commands : List Command) :
    Package.answers rows.nested commands = Package.answers rows.flat commands ∧
      ∃ rows' : Rows π, rows'.IsLike rows ∧ Package.after rows.nested commands = rows'.nested ∧
        Package.after rows.flat commands = rows'.flat ∧
        ∀ command, ∃ (answer : Option String) (rows'' : Rows π), rows''.IsLike rows' ∧
          (rows'.nested.ask command).text = answer ∧ (rows'.nested.ask command).package = rows''.nested ∧
          (rows'.flat.ask command).text = answer ∧ (rows'.flat.ask command).package = rows''.flat ∧
          Chain.InTurn command rows'.flat.packages answer rows''.flat.packages := by
  refine ⟨(relays_nested.answers rows commands).trans (relays_flat.answers rows commands).symm,
    Package.after rows commands, rows.isLike_after commands, relays_nested.after rows commands,
    relays_flat.after rows commands, ?_⟩
  intro command
  refine ⟨_, _, isLike_ask _ command, relays_nested.text _ command, relays_nested.package _ command,
    relays_flat.text _ command, relays_flat.package _ command, ?_⟩
  have hturn := Chain.inTurn_askFirst command (Package.after rows commands).flat.packages
  rwa [askFirst_flat] at hturn

/-- The package in the middle remembers the acronym. -/
example :
    Package.answers (nested ⟨[Bundled.kernel {}], [.article {}], [.euro {}]⟩)
        [⟨"\\acro", ["UN", "United Nations"]⟩, ⟨"\\euro", []⟩, ⟨"\\ac", ["UN"]⟩] =
      [none, some "€", some "United Nations"] := by
  decide +kernel

end Rows
end TexProse
