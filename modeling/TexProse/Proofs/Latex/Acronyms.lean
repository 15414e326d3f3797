import Mathlib.Data.List.Induction
import TexProse.Proofs.Latex.Contribution

/-!
# Acronyms

What the bundled packages answer to the use of an acronym can be told from the commands that they were asked
before: it is the long form in the last definition among them. They remember nothing else. Main statement:
`expansion_of_puts`, which says so of every command in a document, however deep it stands.
-/

namespace TexProse

namespace Command

/-- The long form that a command gives to an acronym. A definition has two arguments. -/
def definition? (command : Command) (short : String) : Option String :=
  match command.name, command.arguments with
  | "\\acro", [defined, long] => if defined = short then some long else none
  | _, _ => none

/-- The long form in the last definition of an acronym among commands. -/
def lastDefinition? (commands : List Command) (short : String) : Option String :=
  commands.reverse.findSome? (·.definition? short)

/-- What stands for the use of an acronym behind commands. -/
def expansion (commands : List Command) : List String → String
  | [short] => (lastDefinition? commands short).getD "Text"
  | _ => "Text"

theorem lastDefinition?_concat (commands : List Command) (command : Command) (short : String) :
    lastDefinition? (commands ++ [command]) short =
      (command.definition? short).or (lastDefinition? commands short) := by
  rw [lastDefinition?, List.reverse_append, List.reverse_singleton, List.singleton_append,
    List.findSome?_cons, lastDefinition?]
  cases command.definition? short <;> rfl

end Command

namespace Article

theorem learn_of_ne {command : Command} (h : command.name ≠ "\\acro") (article : Article) :
    article.learn command = article := by
  rw [learn]
  split
  next hname harguments => exact absurd hname h
  next => rfl

theorem acronym?_learn (article : Article) (command : Command) (short : String) :
    (article.learn command).acronym? short =
      (command.definition? short).or (article.acronym? short) := by
  rw [learn]
  split
  next defined long hname harguments =>
    have hdefinition : command.definition? short = if defined = short then some long else none := by
      simp only [Command.definition?, hname, harguments]
    rw [hdefinition, acronym?, define, List.lookup_cons]
    by_cases hsame : defined = short
    · simp [hsame]
    · rw [beq_eq_false_iff_ne.mpr (Ne.symm hsame), if_neg hsame]
      rfl
  next hother =>
    have hnone : command.definition? short = none := by
      rw [Command.definition?]
      split
      next defined long hname harguments => exact (hother defined long hname harguments).elim
      next => rfl
    rw [hnone, Option.none_or]

/-- Behind commands an acronym has its last definition. -/
theorem acronym?_foldl_learn (article : Article) (commands : List Command) (short : String) :
    (commands.foldl learn article).acronym? short =
      (Command.lastDefinition? commands short).or (article.acronym? short) := by
  induction commands using List.reverseRecOn with
  | nil => rfl
  | append_singleton commands command ih =>
      rw [List.foldl_append, List.foldl_cons, List.foldl_nil, acronym?_learn, ih,
        Command.lastDefinition?_concat, Option.or_assoc]

theorem answer_use (article : Article) {command : Command} (h : command.name = "\\ac") :
    article.answer command =
      match command.arguments with
      | [short] => some ((article.acronym? short).getD acronymText)
      | _ => some acronymText := by
  have hplain : isHeadline "\\ac" = false := by decide +kernel
  obtain ⟨name, arguments⟩ := command
  obtain rfl : name = "\\ac" := h
  cases arguments with
  | nil => simp [answer, hplain]
  | cons short rest => cases rest <;> simp [answer, hplain]

theorem answer_definition (article : Article) {command : Command} (h : command.name = "\\acro") :
    article.answer command = none := by
  have hplain : isHeadline "\\acro" = false := by decide +kernel
  obtain ⟨name, arguments⟩ := command
  obtain rfl : name = "\\acro" := h
  simp [answer, hplain]

end Article

namespace Chain

/-- The bundled packages, the last of them with what it has learnt. -/
def ofArticle (article : Article) : Chain Bundled := ⟨[.kernel {}, .euro {}, .article article]⟩

theorem bundled_eq (settings : Settings) : bundled settings = .ofArticle { settings := settings } := rfl

/-- The kernel and the euro sign know nothing of acronyms. -/
theorem answer_eq_none {command : Command} (h : command.name = "\\ac" ∨ command.name = "\\acro") :
    Kernel.answer command = none ∧ Euro.answer command = none := by
  rcases h with h | h <;> rw [Kernel.answer, Euro.answer, h] <;> exact ⟨rfl, rfl⟩

/-- A definition gets as far as the package that learns it. -/
theorem ask_ofArticle (article : Article) (command : Command) :
    ((ofArticle article).ask command).package = .ofArticle (article.learn command) ∧
      ((ofArticle article).ask command).text =
        ((Kernel.answer command).or (Euro.answer command)).or (article.answer command) := by
  have hlearn : (Kernel.answer command).isSome ∨ (Euro.answer command).isSome →
      article.learn command = article := by
    intro hsome
    apply Article.learn_of_ne
    intro hname
    obtain ⟨hkernel, heuro⟩ := answer_eq_none (.inr hname)
    simp [hkernel, heuro] at hsome
  cases hkernel : Kernel.answer command with
  | some text => simp [ofArticle, ask, askFirst, Package.ask, Answer.map, hkernel, hlearn]
  | none =>
      cases heuro : Euro.answer command with
      | some text => simp [ofArticle, ask, askFirst, Package.ask, Answer.map, hkernel, heuro, hlearn]
      | none =>
          cases harticle : article.answer command <;>
            simp [ofArticle, ask, askFirst, Package.ask, Answer.map, hkernel, heuro, harticle]

theorem after_ofArticle (article : Article) (commands : List Command) :
    Package.after (ofArticle article) commands = .ofArticle (commands.foldl Article.learn article) := by
  induction commands generalizing article with
  | nil => rfl
  | cons command rest ih =>
      calc Package.after (ofArticle article) (command :: rest)
          = Package.after ((ofArticle article).ask command).package rest := rfl
        _ = .ofArticle ((command :: rest).foldl Article.learn article) := by
            rw [(ask_ofArticle article command).1, ih]
            rfl

/-- Behind commands the use of an acronym gets its last definition. -/
theorem ask_use (settings : Settings) (commands : List Command) {command : Command}
    (h : command.name = "\\ac") :
    ((Package.after (bundled settings) commands).ask command).text =
      some (Command.expansion commands command.arguments) := by
  obtain ⟨hkernel, heuro⟩ := answer_eq_none (.inl h)
  rw [bundled_eq, after_ofArticle, (ask_ofArticle _ command).2, hkernel, heuro, Article.answer_use _ h]
  cases command.arguments with
  | nil => rfl
  | cons short rest =>
      cases rest with
      | nil =>
          have hnone : Article.acronym? { settings := settings } short = none := rfl
          simp only [Command.expansion, Article.acronym?_foldl_learn, hnone, Option.or_none, Option.none_or]
          rfl
      | cons => rfl

/-- No package has an answer to a definition. -/
theorem ask_definition (settings : Settings) (commands : List Command) {command : Command}
    (h : command.name = "\\acro") :
    ((Package.after (bundled settings) commands).ask command).text = none := by
  obtain ⟨hkernel, heuro⟩ := answer_eq_none (.inr h)
  rw [bundled_eq, after_ofArticle, (ask_ofArticle _ command).2, hkernel, heuro, Article.answer_definition _ h]
  rfl

end Chain

namespace Latex

/-- With the bundled packages every command of a document, in whatever text it stands, is put behind those
completed before it, and the use of an acronym contributes to its text the long form in the last definition
among them, or a placeholder. A definition contributes nothing. The prose of a text is what was contributed in
it, and that of the document is the prose of its own text. -/
theorem expansion_of_puts (settings bundling : Settings) (text : String) :
    let packages := Chain.bundled bundling
    (∀ earlier question later, Document.questions settings packages text = earlier ++ question :: later →
      ∃ edits, Puts settings packages text earlier question edits) ∧
    (∀ earlier question edits, Puts settings packages text earlier question edits →
      (∃ later, Document.questions settings packages text = earlier ++ question :: later) ∧
      (question.command.name = "\\ac" → contribution edits =
        Command.expansion (earlier.map (·.command)) question.command.arguments) ∧
      (question.command.name = "\\acro" → contribution edits = "")) ∧
    (∀ levels inner prose, ∀ session session' : Session Bundled,
      (nestedProse settings (levels + 1) inner).outcome session = (.ok prose, session') →
        prose = trim (emitted settings levels inner session)) ∧
    ∀ document, (Document.withPackages settings packages text).read = (.ok (), document) →
      ∃ map prose session, document.map = .ok map ∧ map.prose = .ok prose ∧
        (nestedProse settings (settings.maxNesting + 1) text).outcome { packages := packages } =
          (.ok prose, session) := by
  refine ⟨?_, ?_, ?_, ?_⟩
  · intro earlier question later hsplit
    exact IsRead.whole.exists_puts hsplit
  · intro earlier question edits hputs
    obtain ⟨later, hsplit⟩ := hputs.exists_questions
    have hinterview := Document.interview settings (Chain.bundled bundling) text
    rw [hsplit] at hinterview
    have hanswer : question.answer = ((Package.after (Chain.bundled bundling)
        (earlier.map (·.command))).ask question.command).text := by
      rw [Question.answer, hinterview.packages_eq]
    refine ⟨⟨later, hsplit⟩, ?_, ?_⟩
    · intro hname
      rw [hputs.contribution_eq, hanswer, Chain.ask_use _ _ hname, Option.getD_some]
    · intro hname
      rw [hputs.contribution_eq, hanswer, Chain.ask_definition _ _ hname, Option.getD_none]
  · intro levels inner prose session session' hprose
    exact nestedProse_eq_emitted hprose
  · intro document hread
    exact Document.exists_prose hread

/-- The second definition stands in an argument of a command that no package knows. -/
example :
    let text := "\\ac{x}\\acro{x}{one} \\ac{x} \\no\x7b\\acro{x}{two}\x7d\\emph\x7b\\ac{x}\x7d"
    ((Document.ofString {} text).read.2.map.bind TagMap.prose).toOption = some "Text one two" := by
  decide +kernel

end Latex
end TexProse
