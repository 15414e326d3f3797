import TexProse.Proofs.Latex.Contribution
import TexProse.Proofs.Latex.Course
import TexProse.Proofs.Latex.Grammar
import TexProse.Proofs.Latex.Transparency

/-!
# The commands that packages hear

Wherever a command is complete its name is the longest one at a backslash of the text that it stands in, or
a backslash with the one character behind it, or the backslash at the end of that text; and its arguments
are the prose of nested texts, which is trimmed. Main statement: `isCall_of_mem_questions`.

## Implementation notes

`Mode.Spells` says of each mode what it holds of a command. It is kept by every move, so it is true wherever
a scan has come to, and a question is put nowhere else.
-/

namespace TexProse.Latex

/-- The name of the command is the longest at a backslash of the text, and its arguments are trimmed. -/
structure IsSpelled (cs : List Char) (command : Command) : Prop where
  name : ∃ before letters after, cs = before ++ '\\' :: letters ++ after ∧ isName letters = true ∧
    (∀ c ∈ after.head?, isNameChar c = false) ∧ command.name = String.ofList ('\\' :: letters)
  trimmed : ∀ argument ∈ command.arguments, trim argument = argument

/-- The commands that a text can put to the packages. -/
inductive IsCall (cs : List Char) : Command → Prop
  | named {command : Command} (hspelled : IsSpelled cs command) : IsCall cs command
  | escape {before after : List Char} {c : Char} (htext : cs = before ++ ['\\', c] ++ after)
      (hc : isLetter c = false) : IsCall cs { name := String.ofList ['\\', c] }
  | bare {before : List Char} (htext : cs = before ++ ['\\']) : IsCall cs { name := "\\" }

namespace IsCall
variable {cs : List Char} {command : Command}

theorem name_ne_empty (h : IsCall cs command) : command.name ≠ "" := by
  cases h with
  | named hspelled =>
      obtain ⟨before, letters, after, -, -, -, hname⟩ := hspelled.name
      rw [hname]
      intro hempty
      exact absurd (congrArg String.toList hempty) (by simp)
  | escape htext hc =>
      intro hempty
      exact absurd (congrArg String.toList hempty) (by simp)
  | bare htext => decide

theorem trim_eq (h : IsCall cs command) : ∀ argument ∈ command.arguments, trim argument = argument := by
  cases h with
  | named hspelled => exact hspelled.trimmed
  | escape htext hc => simp
  | bare htext => simp

end IsCall

theorem isName_concat {letters : List Char} {c : Char} (h : isName letters = true)
    (hc : isNameChar c = true) : isName (letters ++ [c]) = true := by
  cases letters with
  | nil => cases h
  | cons first rest => simp_all [isName]

/-- What was read since the backslash at `start`: no more than that, or a name. -/
def Spelling (source : Source) (start offset : Nat) (letters : List Char) : Prop :=
  ∃ before, source.chars.toList.take offset = before ++ '\\' :: letters ∧ before.length = start ∧
    (letters = [] ∨ isName letters = true)

/-- What a mode holds of a command is true of the text. -/
def Mode.Spells (source : Source) (offset : Nat) : Mode → Prop
  | .name start => ∃ letters, Spelling source start offset letters
  | .argument command _ _ _ | .reopening command _ => IsSpelled source.chars.toList command
  | .text | .space _ | .comment | .quote | .group _ _ => True

section Spelling
variable {here : Cursor} {start : Nat} {letters : List Char}

theorem spelling_here (hcount : here.offset < here.source.length) (hchar : here.char = '\\') :
    Spelling here.source here.offset (here.offset + 1) [] := by
  refine ⟨here.source.chars.toList.take here.offset, ?_, ?_, .inl rfl⟩
  · rw [Source.take_succ hcount]
    exact congrArg (_ ++ [·]) hchar
  · exact List.length_take_of_le (Nat.le_of_lt hcount)

/-- Right behind the backslash nothing of the name is read, and later on something is. -/
theorem Spelling.cases (h : Spelling here.source start here.offset letters)
    (hcount : here.offset ≤ here.source.length) :
    (here.offset - start ≤ 1 ∧ letters = []) ∨ (¬ here.offset - start ≤ 1 ∧ isName letters = true) := by
  obtain ⟨before, htake, rfl, hletters⟩ := h
  have hlength := congrArg List.length htake
  rw [List.length_take_of_le hcount, List.length_append, List.length_cons] at hlength
  rcases hletters with rfl | hname
  · exact .inl ⟨by rw [hlength]; simp, rfl⟩
  · right
    have hpos : letters.length ≠ 0 := by
      intro hzero
      obtain rfl := List.length_eq_zero_iff.mp hzero
      cases hname
    exact ⟨by omega, hname⟩

theorem Spelling.next (h : Spelling here.source start here.offset letters)
    (hcount : here.offset < here.source.length)
    (hc : (if here.offset - start ≤ 1 then isLetter here.char else isNameChar here.char) = true) :
    Spelling here.source start (here.offset + 1) (letters ++ [here.char]) := by
  have hcases := h.cases (Nat.le_of_lt hcount)
  obtain ⟨before, htake, hstart, -⟩ := h
  refine ⟨before, ?_, hstart, .inr ?_⟩
  · rw [Source.take_succ hcount, htake, List.append_assoc, List.cons_append]
  · rcases hcases with ⟨hshort, rfl⟩ | ⟨hlong, hname⟩
    · rw [if_pos hshort] at hc
      simpa [isName] using hc
    · rw [if_neg hlong] at hc
      exact isName_concat hname hc

/-- A name that the current character does not go on with is the longest at its backslash. -/
theorem Spelling.isSpelled (h : Spelling here.source start here.offset letters)
    (hcount : here.offset < here.source.length) (hlong : ¬ here.offset - start ≤ 1)
    (hc : isNameChar here.char = false) :
    IsSpelled here.source.chars.toList { name := here.textSince start } := by
  obtain ⟨hshort, -⟩ | ⟨-, hname⟩ := h.cases (Nat.le_of_lt hcount)
  · exact absurd hshort hlong
  obtain ⟨before, htake, rfl, -⟩ := h
  have hsplit := Source.eq_take_append hcount
  rw [htake] at hsplit
  have hoffset : here.offset = before.length + ('\\' :: letters).length := by
    rw [← List.length_append, ← htake, List.length_take_of_le (Nat.le_of_lt hcount)]
  refine ⟨⟨before, letters, _, hsplit, hname, ?_, ?_⟩, by simp⟩
  · rintro c ⟨⟩
    exact hc
  · exact Source.slice_of_split hsplit hoffset

theorem Spelling.isCall_escape (h : Spelling here.source start here.offset letters)
    (hcount : here.offset < here.source.length) (hshort : here.offset - start ≤ 1)
    (hc : isLetter here.char = false) :
    IsCall here.source.chars.toList { name := here.source.slice start (here.offset + 1) } := by
  obtain ⟨-, rfl⟩ | ⟨hlong, -⟩ := h.cases (Nat.le_of_lt hcount)
  · obtain ⟨before, htake, rfl, -⟩ := h
    have hsplit : here.source.chars.toList =
        before ++ ['\\', here.char] ++ here.source.chars.toList.drop (here.offset + 1) := by
      simpa [htake] using Source.eq_take_append hcount
    have hoffset : here.offset = before.length + 1 := by
      simpa [List.length_take_of_le (Nat.le_of_lt hcount)] using congrArg List.length htake
    rw [Source.slice_of_split hsplit (congrArg (· + 1) hoffset)]
    exact .escape hsplit hc
  · exact absurd hshort hlong

/-- At the end of the text the backslash may be the last character. -/
theorem Spelling.isCall_end {source : Source} (h : Spelling source start source.length letters) :
    IsCall source.chars.toList { name := source.slice start source.length } := by
  obtain ⟨before, htake, rfl, hletters⟩ := h
  rw [Source.take_length] at htake
  have hlength : source.length = before.length + ('\\' :: letters).length := by
    rw [← List.length_append, ← htake]
    exact Array.length_toList.symm
  have hsplit : source.chars.toList = before ++ '\\' :: letters ++ [] := by rw [htake, List.append_nil]
  rw [Source.slice_of_split hsplit hlength]
  rcases hletters with rfl | hname
  · exact .bare htake
  · exact .named ⟨⟨before, letters, [], hsplit, hname, by simp, rfl⟩, by simp⟩

end Spelling

section Step
variable {π : Type} {here : Cursor} (hcount : here.offset < here.source.length)
include hcount

theorem spells_textRule (reading : Reading π) :
    (textRule here reading).2.mode.Spells here.source (here.offset + 1) := by
  rw [textRule]
  dsimp only
  split_ifs with _ _ hbackslash
  · trivial
  · trivial
  · exact ⟨[], spelling_here hcount hbackslash⟩
  · trivial
  · trivial
  · cases missingSpace? here <;> trivial

theorem spells_backToText (step : Step π) :
    (backToText here step).2.mode.Spells here.source (here.offset + 1) :=
  spells_textRule hcount _

variable [Package π] {settings : Settings} {nested : Nested π} {reading : Reading π}
variable (htrim : ∀ (text argument : String) (session session' : Session π),
  (nested text).outcome session = (.ok argument, session') → trim argument = argument)
variable (hspells : reading.mode.Spells here.source here.offset)
include htrim hspells

omit hcount [Package π] in
/-- Another argument leaves the name as it is. -/
theorem spelled_argument {command : Command} {bracket : Bracket} {start depth : Nat} {argument : String}
    {session : Session π} (hmode : reading.mode = .argument command bracket start depth)
    (hnested : (nested (here.textSince start)).outcome reading.session = (.ok argument, session)) :
    IsSpelled here.source.chars.toList { command with arguments := command.arguments ++ [argument] } := by
  rw [hmode] at hspells
  refine ⟨hspells.name, ?_⟩
  intro other hother
  rcases List.mem_append.mp hother with hold | hnew
  · exact hspells.trimmed other hold
  · rw [List.mem_singleton.mp hnew]
    exact htrim _ _ _ _ hnested

theorem Move.spells {step : Step π} (h : Move settings nested here reading step) :
    step.2.mode.Spells here.source (here.offset + 1) := by
  cases h with
  | text hmode => exact spells_textRule hcount reading
  | blank hmode hc => simp only [Step.edit, hmode, Mode.Spells]
  | endSpace hmode hc => exact spells_backToText hcount _
  | remark hmode hc => simp only [Step.edit, hmode, Mode.Spells]
  | endComment hmode hc => trivial
  | pair hmode hmark => trivial
  | straight hmode hmark hnotice => exact spells_backToText hcount _
  | nameChar hmode hc =>
      simp only [Step.edit, hmode] at hspells ⊢
      obtain ⟨letters, hletters⟩ := hspells
      exact ⟨_, hletters.next hcount hc⟩
  | escape hmode hshort hc => trivial
  | openArgument hmode hlong hc hbracket =>
      rw [hmode] at hspells
      obtain ⟨letters, hletters⟩ := hspells
      exact hletters.isSpelled hcount hlong hc
  | nameSpace hmode hlong hc hbracket hblank => trivial
  | endName hmode hlong hc hbracket hblank => exact spells_backToText hcount _
  | reopening hmode =>
      rw [hmode] at hspells
      exact hspells
  | inArgument hmode hdepth =>
      rw [hmode] at hspells
      exact hspells
  | nextArgument hmode hchar hnested hnext => exact spelled_argument htrim hspells hmode hnested
  | lastArgument hmode hchar hnested hnext =>
      rw [closeArgument]
      simp only [hnext]
      split <;> trivial
  | inGroup hmode hdepth => trivial
  | endGroup hmode hchar hnested => trivial

omit [Package π] in
/-- A command that a character completes is one of the text. -/
theorem isCall_of_ownQuestions {question : Question π}
    (hown : ownQuestions nested here reading = [question]) :
    IsCall here.source.chars.toList question.command := by
  rw [ownQuestions, questionsAt] at hown
  split at hown
  next start hmode =>
    rw [hmode] at hspells
    obtain ⟨letters, hletters⟩ := hspells
    split_ifs at hown with hshort hletter hon
    · obtain rfl := List.singleton_injective hown
      exact hletters.isCall_escape hcount hshort (Bool.eq_false_iff.mpr hletter)
    · obtain rfl := List.singleton_injective hown
      rw [Bool.or_eq_true, not_or] at hon
      exact .named (hletters.isSpelled hcount hshort (Bool.eq_false_iff.mpr hon.1))
  next command bracket start hmode =>
    split_ifs at hown with hchar
    split at hown
    next argument session hnested hnext =>
      obtain rfl := List.singleton_injective hown
      exact .named (spelled_argument htrim hspells hmode hnested)
    next => cases hown
  next => split_ifs at hown
  next => cases hown

end Step

section Read
variable {π : Type}

/-- So is one that the end of the text completes. -/
theorem isCall_of_questionsAtEnd {source : Source} {reading : Reading π} {question : Question π}
    (hspells : reading.mode.Spells source source.length) (hlength : 0 < source.length)
    (hown : questionsAtEnd ⟨source, source.length - 1⟩ reading = [question]) :
    IsCall source.chars.toList question.command := by
  rw [questionsAtEnd] at hown
  split at hown
  next start hmode =>
    rw [hmode] at hspells
    obtain ⟨letters, hletters⟩ := hspells
    obtain rfl := List.singleton_injective hown
    simp only [Nat.sub_add_cancel hlength]
    exact hletters.isCall_end
  next => cases hown

variable [Package π] {settings : Settings} {levels : Nat}

/-- The prose of a nested text is trimmed. -/
theorem trim_of_nestedProse (text prose : String) (session session' : Session π)
    (h : (nestedProse settings levels text).outcome session = (.ok prose, session')) : trim prose = prose := by
  cases levels with
  | zero => cases h
  | succ levels => rw [nestedProse_eq_emitted h, trim_trim]

/-- Wherever a scan has come to, its mode is true of the text. -/
theorem Reaches.spells {source : Source} {initial reading : Reading π} {count : Nat} {ribbon : Ribbon Tag}
    (hinitial : initial.mode = .text)
    (h : (tagger settings (nestedProse settings levels)).Reaches source initial count ribbon reading) :
    reading.mode.Spells source count := by
  induction h with
  | start =>
      rw [hinitial]
      trivial
  | @step count ribbon reading reading' window edits before hcount hcursor hlist hedits ih =>
      have hmove := move_of_outcome hedits
      rw [hcursor] at hmove
      exact @Move.spells _ ⟨source, count⟩ hcount _ _ _ _ trim_of_nestedProse ih _ hmove

/-- A command that the text itself puts to the packages, at the character that completes it or at the end. -/
inductive Asks (settings : Settings) (levels : Nat) (text : String) (session : Session π) : Question π → Prop
  | onChar {offset : Nat} {segments : Segmentation Tag} {reading : Reading π} {question : Question π}
      (hoffset : offset < (Source.ofString text).length)
      (hscan : ((tagger settings (nestedProse settings levels)).scanTo (.ofString text) offset).outcome
        { session := session } = (.ok segments, reading))
      (hown : ownQuestions (nestedProse settings levels) ⟨.ofString text, offset⟩ reading = [question]) :
      Asks settings levels text session question
  | onEnd {segments : Segmentation Tag} {reading : Reading π} {question : Question π}
      (hlength : 0 < (Source.ofString text).length)
      (hscan : ((tagger settings (nestedProse settings levels)).scanTo (.ofString text)
        (Source.ofString text).length).outcome { session := session } = (.ok segments, reading))
      (hown : questionsAtEnd ⟨.ofString text, (Source.ofString text).length - 1⟩ reading = [question]) :
      Asks settings levels text session question

/-- What a text itself puts to the packages is a command of this text. -/
theorem Asks.isCall {text : String} {session : Session π} {question : Question π}
    (h : Asks settings levels text session question) : IsCall text.toList question.command := by
  cases h with
  | onChar hoffset hscan hown =>
      obtain ⟨ribbon, hreach, -⟩ := Tagger.exists_reaches (Nat.le_of_lt hoffset) hscan
      exact isCall_of_ownQuestions hoffset trim_of_nestedProse (Reaches.spells rfl hreach) hown
  | onEnd hlength hscan hown =>
      obtain ⟨ribbon, hreach, -⟩ := Tagger.exists_reaches (Nat.le_refl _) hscan
      exact isCall_of_questionsAtEnd (Reaches.spells rfl hreach) hlength hown

/-- Whatever a document puts to the packages is asked by a text that is read in it. -/
theorem Puts.exists_asks {packages : Chain π} {text : String} {earlier : List (Question π)}
    {question : Question π} {edits : List (Edit Tag)} (h : Puts settings packages text earlier question edits) :
    ∃ levels inner session before, IsRead settings packages text (levels + 1) inner session before ∧
      Asks settings levels inner session question := by
  cases h with
  | @onChar levels inner session before visit question hread hvisit hown =>
      obtain ⟨offset, hoffset, hvisit⟩ := List.mem_filterMap.mp hvisit
      obtain ⟨segments, after, hscan, hcursor, -⟩ := Tagger.exists_of_visit? hvisit
      rw [hcursor] at hown
      exact ⟨levels, inner, session, before, hread, .onChar (List.mem_range.mp hoffset) hscan hown⟩
  | @onEnd levels inner session before visit question hread hvisit hown =>
      obtain ⟨hlength, hvisit⟩ := Tagger.lastVisit?_eq_some_iff.mp hvisit
      obtain ⟨segments, after, hscan, hcursor, -⟩ := Tagger.exists_of_visit? hvisit
      rw [hcursor] at hown
      exact ⟨levels, inner, session, before, hread, .onEnd (Nat.pos_of_ne_zero hlength) hscan hown⟩

end Read

/-- Packages hear nothing but calls, whether the document can be read or not. What they are afterwards is what
the questions have made of them, and each of them has heard some of these. Every question has a name, its
arguments are trimmed, and it is a call of the text that asks it: the document, or the contents of an argument
or a group that is read in it. -/
theorem isCall_of_mem_questions {π : Type} [Package π] (settings : Settings) (packages : Chain π)
    (text : String) :
    let questions := Document.questions settings packages text
    let left := (Document.withPackages settings packages text).read.2.session.packages
    left = Package.after packages (questions.map (·.command)) ∧
      List.Forall₂ (fun package package' => ∃ heard : List Command,
          heard.Sublist (questions.map (·.command)) ∧ package' = Package.after package heard)
        packages.packages left.packages ∧
      ∀ question ∈ questions, question.command.name ≠ "" ∧
        (∀ argument ∈ question.command.arguments, trim argument = argument) ∧
        ∃ levels inner session before, IsRead settings packages text (levels + 1) inner session before ∧
          Asks settings levels inner session question ∧ IsCall inner.toList question.command := by
  have hinterview := Document.interview settings packages text
  refine ⟨hinterview.eq_after, hinterview.forall₂_heard, ?_⟩
  intro question hquestion
  obtain ⟨earlier, later, hsplit⟩ := List.append_of_mem hquestion
  obtain ⟨edits, hputs⟩ := IsRead.whole.exists_puts hsplit
  obtain ⟨levels, inner, session, before, hread, hasks⟩ := hputs.exists_asks
  have hcall := hasks.isCall
  exact ⟨hcall.name_ne_empty, hcall.trim_eq, levels, inner, session, before, hread, hasks, hcall⟩

theorem isCall_of_mem_questions_starred :
    ∃ question ∈ Document.questions {} (Chain.bundled {}) "\x7b\\a*@[ \\%]\x7b\x7d\x7d\\",
      question.command = { name := "\\a*@", arguments := ["%", ""] } ∧
        ∃ levels inner session before,
          IsRead {} (Chain.bundled {}) "\x7b\\a*@[ \\%]\x7b\x7d\x7d\\" (levels + 1) inner session before ∧
            Asks {} levels inner session question ∧ IsCall inner.toList question.command := by
  have hcommands : { name := "\\a*@", arguments := ["%", ""] } ∈
      (Document.questions {} (Chain.bundled {}) "\x7b\\a*@[ \\%]\x7b\x7d\x7d\\").map (·.command) := by
    decide +kernel
  obtain ⟨question, hquestion, hcommand⟩ := List.mem_map.mp hcommands
  obtain ⟨-, -, hcall⟩ := isCall_of_mem_questions {} (Chain.bundled {}) "\x7b\\a*@[ \\%]\x7b\x7d\x7d\\"
  exact ⟨question, hquestion, hcommand, (hcall question hquestion).2.2⟩

end TexProse.Latex
