import TexProse.Proofs.Bracket.Depth
import TexProse.Proofs.Latex.Heard

/-!
# Well-formed documents

A document as a tree of constructs, the text it is written as, and its meaning: what it adds to the prose
from left to right, and what the packages are afterwards. The contents of a group or of an argument mean
the prose they would have alone, with the packages as they stand there.

## Implementation notes

Well-formedness looks at neighbours only where the text would read differently without them: a name goes
on into letters behind it, and a bracket behind a command is an argument.

-/

namespace TexProse.Latex

mutual

/-- One construct of a document. -/
inductive Item where
  | text (run : List Char)
  | blanks (run : List Char)
  | comment (remark : List Char)
  /-- A quotation mark and the character that makes a pair with it. -/
  | quote (mark : Char)
  /-- A command whose name is a single character other than a letter. -/
  | escape (c : Char)
  | group (body : Items)
  | command (name : List Char) (arguments : Arguments)

inductive Items where
  | nil
  | cons (head : Item) (tail : Items)

inductive Arguments where
  | nil
  | cons (bracket : Bracket) (body : Items) (tail : Arguments)

end

mutual

/-- The text that a construct is written as. -/
def Item.chars : Item → List Char
  | .text run | .blanks run => run
  | .comment remark => '%' :: remark
  | .quote mark => ['"', mark]
  | .escape c => ['\\', c]
  | .group body => '{' :: (body.chars ++ ['}'])
  | .command name arguments => '\\' :: (name ++ arguments.chars)

def Items.chars : Items → List Char
  | .nil => []
  | .cons head tail => head.chars ++ tail.chars

def Arguments.chars : Arguments → List Char
  | .nil => []
  | .cons bracket body tail => bracket.opening :: (body.chars ++ bracket.closing :: tail.chars)

end

/-- A bracket of a group or of an argument. -/
def isBracket (c : Char) : Bool := c = '{' || c = '}' || c = '[' || c = ']'

/-- A character that stands for itself wherever text is read. -/
def isPlain (c : Char) : Bool := !isBlank c && c ≠ '%' && c ≠ '\\' && c ≠ '"' && !isBracket c

/-- The name of a command behind its backslash. -/
def isName : List Char → Bool
  | [] => false
  | first :: rest => isLetter first && rest.all isNameChar

/-- Whether a construct ends where the text behind it begins. -/
def Item.precedes : Item → Items → Bool
  | .blanks _, .cons (.blanks _) _ => false
  | .comment _, .cons (.blanks run) _ => run.head?.any isLineBreak
  | .comment _, .cons _ _ => false
  | .command _ _, .cons (.group _) _ => false
  | .command _ .nil, .cons next _ => !next.chars.head?.any isNameChar
  | _, _ => true

mutual

def Item.isWellFormed : Item → Bool
  | .text run => !run.isEmpty && run.all isPlain
  | .blanks run => !run.isEmpty && run.all isBlank
  | .comment remark => remark.all fun c => !isLineBreak c && !isBracket c
  | .quote mark => mark = '`' || mark = '\''
  | .escape c => !isLetter c && !isBracket c
  | .group body => body.isWellFormed
  | .command name arguments => isName name && arguments.isWellFormed

def Items.isWellFormed : Items → Bool
  | .nil => true
  | .cons head tail => head.isWellFormed && head.precedes tail && tail.isWellFormed

def Arguments.isWellFormed : Arguments → Bool
  | .nil => true
  | .cons bracket body tail => bracket ≠ .angle && body.isWellFormed && tail.isWellFormed

end

theorem Item.isWellFormed_text {run : List Char} :
    (Item.text run).isWellFormed = true ↔ run ≠ [] ∧ ∀ c ∈ run, isPlain c = true := by
  simp [Item.isWellFormed]

theorem Item.isWellFormed_blanks {run : List Char} :
    (Item.blanks run).isWellFormed = true ↔ run ≠ [] ∧ ∀ c ∈ run, isBlank c = true := by
  simp [Item.isWellFormed]

theorem Item.isWellFormed_comment {remark : List Char} :
    (Item.comment remark).isWellFormed = true ↔
      ∀ c ∈ remark, isLineBreak c = false ∧ isBracket c = false := by
  simp [Item.isWellFormed]

theorem Item.isWellFormed_escape {c : Char} :
    (Item.escape c).isWellFormed = true ↔ isLetter c = false ∧ isBracket c = false := by
  simp [Item.isWellFormed]

theorem Item.isWellFormed_command {name : List Char} {arguments : Arguments} :
    (Item.command name arguments).isWellFormed = true ↔
      isName name = true ∧ arguments.isWellFormed = true := by
  simp [Item.isWellFormed]

theorem Items.isWellFormed_cons {head : Item} {tail : Items} :
    (Items.cons head tail).isWellFormed = true ↔
      head.isWellFormed = true ∧ head.precedes tail = true ∧ tail.isWellFormed = true := by
  simp [Items.isWellFormed, and_assoc]

theorem Arguments.isWellFormed_cons {bracket : Bracket} {body : Items} {tail : Arguments} :
    (Arguments.cons bracket body tail).isWellFormed = true ↔
      bracket ≠ .angle ∧ body.isWellFormed = true ∧ tail.isWellFormed = true := by
  simp [Arguments.isWellFormed, and_assoc]

mutual

/-- How many groups and arguments lie inside each other. -/
def Item.depth : Item → Nat
  | .group body => body.depth + 1
  | .command _ arguments => arguments.depth
  | .text _ | .blanks _ | .comment _ | .quote _ | .escape _ => 0

def Items.depth : Items → Nat
  | .nil => 0
  | .cons head tail => max head.depth tail.depth

def Arguments.depth : Arguments → Nat
  | .nil => 0
  | .cons _ body tail => max (body.depth + 1) tail.depth

end

section Balance
variable {bracket : Bracket}

theorem isBracket_cases {c : Char} (h : isBracket c = true) :
    ((c = '{' ∨ c = '}') ∨ c = '[') ∨ c = ']' := by
  simpa only [isBracket, Bool.or_eq_true, decide_eq_true_eq] using h

theorem isBracket_of_isPlain {c : Char} (h : isPlain c = true) : isBracket c = false := by
  simp only [isPlain, Bool.and_eq_true, Bool.not_eq_true'] at h
  exact h.2

theorem isBlank_of_isPlain {c : Char} (h : isPlain c = true) : isBlank c = false := by
  simp only [isPlain, Bool.and_eq_true, Bool.not_eq_true'] at h
  exact h.1.1.1.1

theorem isBracket_of_isNameChar {c : Char} (h : isNameChar c = true) : isBracket c = false := by
  apply Bool.eq_false_iff.mpr
  intro hc
  revert h
  rcases isBracket_cases hc with ((rfl | rfl) | rfl) | rfl <;> decide

theorem isBracket_of_isBlank {c : Char} (h : isBlank c = true) : isBracket c = false := by
  apply Bool.eq_false_iff.mpr
  intro hc
  revert h
  rcases isBracket_cases hc with ((rfl | rfl) | rfl) | rfl <;> decide

theorem depthAfter_of_isBracket (hbracket : bracket ≠ .angle) {chars : List Char}
    (h : ∀ c ∈ chars, isBracket c = false) (depth : Nat) :
    bracket.depthAfter depth chars = some depth := by
  have hboth : isBracket bracket.opening = true ∧ isBracket bracket.closing = true := by
    cases bracket with
    | curly => decide
    | square => decide
    | angle => exact absurd rfl hbracket
  apply Bracket.depthAfter_of_notMem
  · intro hmem
    exact Bool.false_ne_true ((h _ hmem).symm.trans hboth.1)
  · intro hmem
    exact Bool.false_ne_true ((h _ hmem).symm.trans hboth.2)

theorem isNameChar_of_isName {name : List Char} (h : isName name = true) :
    ∀ c ∈ name, isNameChar c = true := by
  cases name with
  | nil => cases h
  | cons first rest =>
      simp only [isName, Bool.and_eq_true, List.all_eq_true] at h
      intro c hc
      rcases List.mem_cons.mp hc with rfl | hc
      · simp [isNameChar, h.1]
      · exact h.2 c hc

mutual

/-- The brackets of a well-formed construct match. -/
theorem Item.depthAfter_chars (hbracket : bracket ≠ .angle) (item : Item)
    (h : item.isWellFormed = true) (depth : Nat) :
    bracket.depthAfter depth item.chars = some depth := by
  cases item with
  | text run =>
      obtain ⟨-, hplain⟩ := Item.isWellFormed_text.mp h
      exact depthAfter_of_isBracket hbracket (fun c hc => isBracket_of_isPlain (hplain c hc)) depth
  | blanks run =>
      obtain ⟨-, hblank⟩ := Item.isWellFormed_blanks.mp h
      exact depthAfter_of_isBracket hbracket (fun c hc => isBracket_of_isBlank (hblank c hc)) depth
  | comment remark =>
      apply depthAfter_of_isBracket hbracket
      intro c hc
      rcases List.mem_cons.mp hc with rfl | hc
      · decide
      · exact (Item.isWellFormed_comment.mp h c hc).2
  | quote mark =>
      simp only [Item.isWellFormed, Bool.or_eq_true, decide_eq_true_eq] at h
      apply depthAfter_of_isBracket hbracket
      intro c hc
      rcases List.mem_cons.mp hc with rfl | hc
      · decide
      · rw [List.mem_singleton.mp hc]
        rcases h with rfl | rfl <;> decide
  | escape c =>
      apply depthAfter_of_isBracket hbracket
      intro c' hc'
      rcases List.mem_cons.mp hc' with rfl | hc'
      · decide
      · exact List.mem_singleton.mp hc' ▸ (Item.isWellFormed_escape.mp h).2
  | group body =>
      exact Bracket.depthAfter_enclosed .curly (Items.depthAfter_chars hbracket body h) depth []
  | command name arguments =>
      obtain ⟨hletters, harguments⟩ := Item.isWellFormed_command.mp h
      have hname : bracket.depthAfter depth ('\\' :: name) = some depth := by
        apply depthAfter_of_isBracket hbracket
        intro c hc
        rcases List.mem_cons.mp hc with rfl | hc
        · decide
        · exact isBracket_of_isNameChar (isNameChar_of_isName hletters c hc)
      rw [Item.chars, ← List.cons_append, Bracket.depthAfter_append, hname, Option.bind_some]
      exact Arguments.depthAfter_chars hbracket arguments harguments depth

theorem Items.depthAfter_chars (hbracket : bracket ≠ .angle) (items : Items)
    (h : items.isWellFormed = true) (depth : Nat) :
    bracket.depthAfter depth items.chars = some depth := by
  cases items with
  | nil => rfl
  | cons head tail =>
      obtain ⟨hhead, -, htail⟩ := Items.isWellFormed_cons.mp h
      rw [Items.chars, Bracket.depthAfter_append, Item.depthAfter_chars hbracket head hhead,
        Option.bind_some]
      exact Items.depthAfter_chars hbracket tail htail depth

theorem Arguments.depthAfter_chars (hbracket : bracket ≠ .angle) (arguments : Arguments)
    (h : arguments.isWellFormed = true) (depth : Nat) :
    bracket.depthAfter depth arguments.chars = some depth := by
  cases arguments with
  | nil => rfl
  | cons kind body tail =>
      obtain ⟨-, hbody, htail⟩ := Arguments.isWellFormed_cons.mp h
      rw [Arguments.chars,
        Bracket.depthAfter_enclosed kind (Items.depthAfter_chars hbracket body hbody)]
      exact Arguments.depthAfter_chars hbracket tail htail depth

end

end Balance

/-- The prose so far, untrimmed, and the packages behind it. -/
structure Speech (π : Type) where
  prose : String := ""
  packages : Chain π

namespace Speech
variable {π : Type}

def add (text : String) (speech : Speech π) : Speech π := { speech with prose := speech.prose ++ text }

/-- Adds a run of blanks as it is heard. -/
def blank (run : String) (speech : Speech π) : Speech π :=
  speech.add ((blankFor speech.prose run).getD "")

/-- Puts a command to the packages and adds what they answer. -/
def ask [Package π] (command : Command) (speech : Speech π) : Speech π :=
  let answer := speech.packages.ask command
  { prose := speech.prose ++ answer.text.getD "", packages := answer.package }

end Speech

section Meaning
variable {π : Type} [Package π] (settings : Settings)

mutual

/-- What a construct adds to the prose. -/
def Item.eval : Item → Speech π → Speech π
  | .text run, speech => speech.add (String.ofList run)
  | .blanks run, speech => speech.blank (String.ofList run)
  | .comment _, speech => speech
  | .quote mark, speech => speech.add ((pairedQuote? settings mark).getD "")
  | .escape c, speech => speech.ask { name := String.ofList ['\\', c] }
  | .group body, speech =>
    let inner := body.eval { packages := speech.packages }
    { prose := speech.prose ++ trim inner.prose, packages := inner.packages }
  | .command name arguments, speech =>
    let (values, packages) := arguments.eval speech.packages
    { speech with packages := packages }.ask
      { name := String.ofList ('\\' :: name), arguments := values }

def Items.eval : Items → Speech π → Speech π
  | .nil, speech => speech
  | .cons head tail, speech => tail.eval (head.eval speech)

/-- The values of arguments, and the packages behind them. -/
def Arguments.eval : Arguments → Chain π → List String × Chain π
  | .nil, packages => ([], packages)
  | .cons _ body tail, packages =>
    let inner := body.eval { packages := packages }
    let (values, packages) := tail.eval inner.packages
    (trim inner.prose :: values, packages)

end

end Meaning

end TexProse.Latex
