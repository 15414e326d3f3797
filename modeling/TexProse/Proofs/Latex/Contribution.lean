import TexProse.Proofs.Latex.Emission
import TexProse.Proofs.Latex.Questions

/-!
# What commands contribute

A document reads its own text, and in it the contents of each argument and each group that closes. The
commands that these texts complete are put to the packages one after the other, and what the packages answer
goes to the prose of the text that the command stands in. Main results: `Puts.contribution_eq` for what a
command adds to the prose, `Puts.exists_questions` and `IsRead.exists_puts` for its place among all that is
put.

## Implementation notes

`IsRead` and `Puts` carry along what was put before, so that what packages remember can be told from it.
-/

namespace TexProse

/-- An element stands in the first part of a list or in the second. -/
theorem split_append {α : Type} {first second before after : List α} {a : α}
    (h : first ++ second = before ++ a :: after) :
    (∃ between, first = before ++ a :: between) ∨
      ∃ between, before = first ++ between ∧ second = between ++ a :: after := by
  rcases List.append_eq_append_iff.mp h with ⟨between, hbefore, hsecond⟩ | ⟨between, hfirst, hrest⟩
  · exact .inr ⟨between, hbefore, hsecond⟩
  · cases between with
    | nil => exact .inr ⟨[], by simpa using hfirst.symm, hrest.symm⟩
    | cons head between =>
        obtain ⟨rfl, -⟩ := List.cons.inj hrest
        exact .inl ⟨between, hfirst⟩

namespace Latex
variable {π : Type}

/-- The contents of the argument or the group that the current character closes. -/
def enclosed? (here : Cursor) (reading : Reading π) : Option String :=
  match reading.mode with
  | .argument _ bracket start 0 =>
    if here.char = bracket.closing then some (here.textSince start) else none
  | .group start 0 => if here.char = '}' then some (here.textSince (start + 1)) else none
  | _ => none

/-- The questions of the text that the current character closes. -/
def innerQuestions (inner : String → Session π → List (Question π)) (here : Cursor) (reading : Reading π) :
    List (Question π) :=
  match enclosed? here reading with
  | some text => inner text reading.session
  | none => []

/-- The command that the current character completes. -/
def ownQuestions (nested : Nested π) (here : Cursor) (reading : Reading π) : List (Question π) :=
  questionsAt nested (fun _ _ => []) here reading

/-- What edits add to the prose. -/
def contribution (edits : List (Edit Tag)) : String := String.join (edits.map Edit.attached)

section Own
variable {nested : Nested π} {here : Cursor} {reading : Reading π}

theorem questionsAt_eq (inner : String → Session π → List (Question π)) :
    questionsAt nested inner here reading =
      innerQuestions inner here reading ++ ownQuestions nested here reading := by
  cases hmode : reading.mode with
  | argument command bracket start depth =>
      cases depth with
      | zero =>
          by_cases hchar : here.char = bracket.closing <;>
            simp [questionsAt, innerQuestions, enclosed?, ownQuestions, hmode, hchar]
      | succ depth => simp [questionsAt, innerQuestions, enclosed?, ownQuestions, hmode]
  | group start depth =>
      cases depth with
      | zero =>
          by_cases hchar : here.char = '}' <;>
            simp [questionsAt, innerQuestions, enclosed?, ownQuestions, hmode, hchar]
      | succ depth => simp [questionsAt, innerQuestions, enclosed?, ownQuestions, hmode]
  | _ => simp [questionsAt, innerQuestions, enclosed?, ownQuestions, hmode]

/-- A character completes no more than one command. -/
theorem ownQuestions_cases (nested : Nested π) (here : Cursor) (reading : Reading π) :
    ownQuestions nested here reading = [] ∨ ∃ question, ownQuestions nested here reading = [question] := by
  rw [ownQuestions, questionsAt]
  split
  · split_ifs <;> simp
  · split_ifs
    · split <;> simp
    · simp
  · split_ifs <;> simp
  · simp

/-- A character that fails completes no command. -/
theorem Stumble.ownQuestions_eq {failure : Failure} {reading' : Reading π}
    (h : Stumble nested here reading failure reading') : ownQuestions nested here reading = [] := by
  cases h with
  | argument hmode hchar hnested => simp [ownQuestions, questionsAt, hmode, hchar, hnested]
  | group hmode hchar hnested => simp [ownQuestions, questionsAt, hmode, hchar]

end Own

section Contribution

theorem contribution_append (first second : List (Edit Tag)) :
    contribution (first ++ second) = contribution first ++ contribution second := by
  rw [contribution, List.map_append, String.join_append, contribution, contribution]

theorem contribution_textRule (here : Cursor) (reading : Reading π) :
    contribution (textRule here reading).1 = "" := by
  rw [textRule]
  dsimp only
  split_ifs <;> rfl

theorem contribution_backToText (here : Cursor) (step : Step π) :
    contribution (backToText here step).1 = contribution step.1 := by
  rw [backToText, Step.andThen, contribution_append, Step.andThen, contribution_append,
    contribution_textRule]
  exact String.append_empty

variable [Package π] {settings : Settings} {nested : Nested π} {here : Cursor} {reading : Reading π}

theorem contribution_resolve (command : Command) (reading : Reading π) :
    contribution (Step.resolve command reading).1 =
      (Question.mk reading.session.packages command).answer.getD "" := by
  rw [Step.resolve]
  split
  next text session hask =>
    have htext : (reading.session.packages.ask command).text = some text := congrArg Prod.fst hask
    rw [Question.answer, htext]
    exact String.empty_append
  next session hask =>
    have htext : (reading.session.packages.ask command).text = none := congrArg Prod.fst hask
    rw [Question.answer, htext]
    rfl

theorem contribution_closeArgument (here : Cursor) (command : Command) (isEmpty : Bool) (reading : Reading π)
    (hnext : here.next?.bind Bracket.ofArgument? = none) :
    contribution (closeArgument here command isEmpty reading).1 =
      (Question.mk reading.session.packages command).answer.getD "" := by
  rw [closeArgument]
  simp only [hnext]
  split
  · rw [Step.andThen, contribution_append, Step.andThen, contribution_append, ← contribution_resolve]
    exact String.append_empty.trans String.empty_append
  · rw [Step.andThen, contribution_append, ← contribution_resolve]
    exact String.append_empty

/-- A move that completes a command adds the answer to the prose, and nothing else. -/
theorem Move.contribution_eq {step : Step π} (h : Move settings nested here reading step)
    {question : Question π} (hown : ownQuestions nested here reading = [question]) :
    contribution step.1 = question.answer.getD "" := by
  have hsilent (hnone : ownQuestions nested here reading = []) :
      contribution step.1 = question.answer.getD "" := by
    rw [hnone] at hown
    cases hown
  cases h with
  | nameChar hmode hc =>
      apply hsilent
      simp only [ownQuestions, questionsAt, hmode]
      split at hc
      next hshort => rw [if_pos hshort, if_pos hc]
      next hlong => rw [if_neg hlong, hc, Bool.true_or, if_pos rfl]
  | escape hmode hshort hc =>
      simp only [ownQuestions, questionsAt, hmode, hshort, hc, if_true, Bool.false_eq_true, if_false] at hown
      obtain rfl := List.singleton_injective hown
      rw [Step.andThen, contribution_append, contribution_resolve]
      exact String.append_empty
  | openArgument hmode hlong hc hbracket =>
      apply hsilent
      rw [ownQuestions, questionsAt_endName hmode hlong hc, hbracket]
      rfl
  | nameSpace hmode hlong hc hbracket hblank =>
      rw [ownQuestions, questionsAt_endName hmode hlong hc, hbracket] at hown
      obtain rfl := List.singleton_injective hown
      rw [Step.andThen, contribution_append, contribution_resolve]
      exact String.append_empty
  | endName hmode hlong hc hbracket hblank =>
      rw [ownQuestions, questionsAt_endName hmode hlong hc, hbracket] at hown
      obtain rfl := List.singleton_injective hown
      rw [contribution_backToText, contribution_resolve]
  | inArgument hmode hdepth => exact hsilent (questionsAt_inArgument hmode hdepth)
  | nextArgument hmode hchar hnested hnext =>
      exact hsilent (by simp [ownQuestions, questionsAt, hmode, hchar, hnested, hnext])
  | lastArgument hmode hchar hnested hnext =>
      simp only [ownQuestions, questionsAt, hmode, hchar, hnested, hnext, if_true, List.nil_append] at hown
      obtain rfl := List.singleton_injective hown
      exact contribution_closeArgument _ _ _ _ hnext
  | inGroup hmode hdepth => exact hsilent (questionsAt_inGroup hmode hdepth)
  | endGroup hmode hchar hnested => exact hsilent (by simp [ownQuestions, questionsAt, hmode, hchar])
  | text hmode => exact hsilent (by simp only [ownQuestions, questionsAt, hmode])
  | blank hmode => exact hsilent (by simp only [ownQuestions, questionsAt, hmode])
  | endSpace hmode => exact hsilent (by simp only [ownQuestions, questionsAt, hmode])
  | remark hmode => exact hsilent (by simp only [ownQuestions, questionsAt, hmode])
  | endComment hmode => exact hsilent (by simp only [ownQuestions, questionsAt, hmode])
  | pair hmode => exact hsilent (by simp only [ownQuestions, questionsAt, hmode])
  | straight hmode => exact hsilent (by simp only [ownQuestions, questionsAt, hmode])
  | reopening hmode => exact hsilent (by simp only [ownQuestions, questionsAt, hmode])

/-- So does the end of a text. -/
theorem contribution_onEnd {window : Window Tag} {reading' : Reading π} {edits : List (Edit Tag)}
    (h : (onEnd window).outcome reading = (.ok edits, reading')) {question : Question π}
    (hown : questionsAtEnd window.toCursor reading = [question]) :
    contribution edits = question.answer.getD "" := by
  rw [questionsAtEnd] at hown
  split at hown
  next start hmode =>
    obtain rfl := List.singleton_injective hown
    rw [outcome_onEnd] at h
    simp only [hmode] at h
    obtain ⟨rfl, -⟩ : _ ∧ _ := by simpa using h
    exact contribution_resolve _ reading
  next => cases hown

end Contribution

section Put
variable [Package π] {settings : Settings} {packages : Chain π} {text : String}

/-- The texts that are read in a document: the document itself, and in any of them the contents of an argument
or a group that closes. Each comes with the levels that are permitted, the session that it is read in, and all
that was put to the packages before. -/
inductive IsRead (settings : Settings) (packages : Chain π) (text : String) :
    Nat → String → Session π → List (Question π) → Prop
  | whole : IsRead settings packages text (settings.maxNesting + 1) text { packages := packages } []
  | enclosed {levels offset : Nat} {outer inner : String} {session : Session π}
      {before : List (Question π)} {segments : Segmentation Tag} {reading : Reading π}
      (houter : IsRead settings packages text (levels + 1) outer session before)
      (hoffset : offset < (Source.ofString outer).length)
      (hscan : ((tagger settings (nestedProse settings levels)).scanTo (.ofString outer) offset).outcome
        { session := session } = (.ok segments, reading))
      (hinner : enclosed? ⟨.ofString outer, offset⟩ reading = some inner) :
      IsRead settings packages text levels inner reading.session
        (before ++ questionsTo settings (nestedProse settings levels) (questions settings levels)
          (.ofString outer) session offset)

/-- A command that a document puts to the packages behind others, with the edits that are made of the answer:
at the character that completes the command, or at the end of the text that it stands in. -/
inductive Puts (settings : Settings) (packages : Chain π) (text : String) :
    List (Question π) → Question π → List (Edit Tag) → Prop
  | onChar {levels : Nat} {inner : String} {session : Session π} {before : List (Question π)}
      {visit : Visit Tag (Reading π)} {question : Question π}
      (hread : IsRead settings packages text (levels + 1) inner session before)
      (hvisit : visit ∈ (tagger settings (nestedProse settings levels)).visits (.ofString inner)
        { session := session })
      (hown : ownQuestions (nestedProse settings levels) visit.window.toCursor visit.state = [question]) :
      Puts settings packages text
        (before ++ questionsTo settings (nestedProse settings levels) (questions settings levels)
          (.ofString inner) session visit.window.offset ++
          innerQuestions (questions settings levels) visit.window.toCursor visit.state)
        question visit.edits
  | onEnd {levels : Nat} {inner : String} {session : Session π} {before : List (Question π)}
      {visit : Visit Tag (Reading π)} {question : Question π}
      (hread : IsRead settings packages text (levels + 1) inner session before)
      (hvisit : (tagger settings (nestedProse settings levels)).lastVisit? (.ofString inner)
        { session := session } = some visit)
      (hown : questionsAtEnd visit.window.toCursor visit.state = [question]) :
      Puts settings packages text
        (before ++ questionsTo settings (nestedProse settings levels) (questions settings levels)
          (.ofString inner) session (Source.ofString inner).length)
        question visit.edits

section Scan
variable {nested : Nested π} {inner : String → Session π → List (Question π)} {source : Source}
variable {session : Session π}

theorem questionsTo_isPrefix {count more : Nat} (h : count ≤ more) :
    questionsTo settings nested inner source session count <+:
      questionsTo settings nested inner source session more := by
  induction h with
  | refl => exact List.prefix_rfl
  | step h ih =>
      rw [questionsTo_succ]
      exact ih.trans (List.prefix_append _ _)

/-- The questions at a character stand behind those of the characters before it. -/
theorem exists_questionsOf (inner : String → Session π → List (Question π)) {offset : Nat}
    {segments : Segmentation Tag} {reading : Reading π}
    (hoffset : offset < source.length)
    (hscan : ((tagger settings nested).scanTo source offset).outcome { session := session } =
      (.ok segments, reading)) :
    ∃ later, questionsOf settings nested inner source session =
      questionsTo settings nested inner source session offset ++
        questionsAt nested inner ⟨source, offset⟩ reading ++ later := by
  have hnext : questionsTo settings nested inner source session (offset + 1) =
      questionsTo settings nested inner source session offset ++
        questionsAt nested inner ⟨source, offset⟩ reading := by
    rw [questionsTo_succ, hscan]
  obtain ⟨later, hlater⟩ : questionsTo settings nested inner source session (offset + 1) <+:
      questionsOf settings nested inner source session :=
    (questionsTo_isPrefix hoffset).trans (List.prefix_append _ _)
  exact ⟨later, by rw [← hlater, hnext]⟩

end Scan

/-- The questions of a text stand in a row among those of the document, right behind all that was put
before. -/
theorem IsRead.exists_questions {levels : Nat} {inner : String} {session : Session π}
    {before : List (Question π)} (h : IsRead settings packages text levels inner session before) :
    ∃ later, Document.questions settings packages text =
      before ++ questions settings levels inner session ++ later := by
  induction h with
  | whole => exact ⟨[], (List.append_nil _).symm⟩
  | @enclosed levels offset outer inner session before segments reading houter hoffset hscan hinner ih =>
      obtain ⟨later, hlater⟩ := ih
      obtain ⟨rest, hrest⟩ := exists_questionsOf (questions settings levels) hoffset hscan
      refine ⟨ownQuestions (nestedProse settings levels) ⟨.ofString outer, offset⟩ reading ++ rest ++ later,
        ?_⟩
      rw [hlater, questions, hrest, questionsAt_eq, innerQuestions, hinner]
      simp only [List.append_assoc]

theorem Puts.exists_questions {earlier : List (Question π)} {question : Question π}
    {edits : List (Edit Tag)} (h : Puts settings packages text earlier question edits) :
    ∃ later, Document.questions settings packages text = earlier ++ question :: later := by
  cases h with
  | @onChar levels inner session before visit _ hread hvisit hown =>
      obtain ⟨later, hlater⟩ := hread.exists_questions
      obtain ⟨offset, hoffset, hvisit⟩ := List.mem_filterMap.mp hvisit
      obtain ⟨segments, after, hscan, hcursor, -⟩ := Tagger.exists_of_visit? hvisit
      obtain ⟨rest, hrest⟩ := exists_questionsOf (questions settings levels)
        (List.mem_range.mp hoffset) hscan
      refine ⟨rest ++ later, ?_⟩
      rw [hcursor] at hown
      rw [hlater, questions, hrest, questionsAt_eq, hown, hcursor]
      simp only [List.append_assoc, List.cons_append, List.nil_append]
  | @onEnd levels inner session before visit _ hread hvisit hown =>
      obtain ⟨later, hlater⟩ := hread.exists_questions
      obtain ⟨hlength, hvisit⟩ := Tagger.lastVisit?_eq_some_iff.mp hvisit
      obtain ⟨segments, after, hscan, hcursor, -⟩ := Tagger.exists_of_visit? hvisit
      refine ⟨later, ?_⟩
      rw [hcursor] at hown
      rw [hlater, questions, questionsOf, if_neg hlength, hscan]
      simp only [hown, List.append_assoc, List.singleton_append]

theorem Puts.contribution_eq {earlier : List (Question π)} {question : Question π}
    {edits : List (Edit Tag)} (h : Puts settings packages text earlier question edits) :
    contribution edits = question.answer.getD "" := by
  cases h with
  | onChar hread hvisit hown =>
      obtain ⟨offset, -, hvisit⟩ := List.mem_filterMap.mp hvisit
      obtain ⟨segments, after, -, -, hedits⟩ := Tagger.exists_of_visit? hvisit
      exact (move_of_outcome hedits).contribution_eq hown
  | onEnd hread hvisit hown =>
      obtain ⟨-, hvisit⟩ := Tagger.lastVisit?_eq_some_iff.mp hvisit
      obtain ⟨segments, after, -, -, hedits⟩ := Tagger.exists_of_visit? hvisit
      exact contribution_onEnd hedits hown

section Record
variable {levels : Nat} {inner : String} {session : Session π} {before earlier later : List (Question π)}
variable {segments : Segmentation Tag} {reading : Reading π} {question : Question π}

theorem IsRead.exists_puts_own {offset : Nat}
    (hread : IsRead settings packages text (levels + 1) inner session before)
    (hoffset : offset < (Source.ofString inner).length)
    (hscan : ((tagger settings (nestedProse settings levels)).scanTo (.ofString inner) offset).outcome
      { session := session } = (.ok segments, reading))
    (hown : ownQuestions (nestedProse settings levels) ⟨.ofString inner, offset⟩ reading = [question]) :
    ∃ edits, Puts settings packages text
      (before ++ questionsTo settings (nestedProse settings levels) (questions settings levels)
        (.ofString inner) session offset ++
        innerQuestions (questions settings levels) ⟨.ofString inner, offset⟩ reading) question edits := by
  rcases outcome_cases settings (nestedProse settings levels)
    ⟨⟨.ofString inner, offset⟩, segments.seek offset⟩ reading with
    ⟨step, -, hedits⟩ | ⟨failure, after, hstumble, -⟩
  · have hvisit : ⟨⟨⟨.ofString inner, offset⟩, segments.seek offset⟩, reading, step.1⟩ ∈
        (tagger settings (nestedProse settings levels)).visits (.ofString inner) { session := session } :=
      List.mem_filterMap.mpr ⟨offset, List.mem_range.mpr hoffset, Tagger.visit?_eq_some hscan hedits⟩
    exact ⟨step.1, .onChar hread hvisit hown⟩
  · rw [hstumble.ownQuestions_eq] at hown
    cases hown

theorem IsRead.exists_puts_end
    (hread : IsRead settings packages text (levels + 1) inner session before)
    (hlength : (Source.ofString inner).length ≠ 0)
    (hscan : ((tagger settings (nestedProse settings levels)).scanTo (.ofString inner)
      (Source.ofString inner).length).outcome { session := session } = (.ok segments, reading))
    (hown : questionsAtEnd ⟨.ofString inner, (Source.ofString inner).length - 1⟩ reading = [question]) :
    ∃ edits, Puts settings packages text
      (before ++ questionsTo settings (nestedProse settings levels) (questions settings levels)
        (.ofString inner) session (Source.ofString inner).length) question edits := by
  cases hmode : reading.mode with
  | name start =>
      have hedits := outcome_onEnd ⟨⟨.ofString inner, (Source.ofString inner).length - 1⟩,
        segments.seek ((Source.ofString inner).length - 1)⟩ reading
      simp only [hmode] at hedits
      have hvisit := Tagger.lastVisit?_eq_some_iff.mpr ⟨hlength, Tagger.visit?_eq_some hscan hedits⟩
      exact ⟨_, .onEnd hread hvisit hown⟩
  | _ =>
      rw [questionsAtEnd, hmode] at hown
      cases hown

/-- What a text has put at some characters was put at one of them. -/
theorem IsRead.exists_puts_to
    (hread : IsRead settings packages text (levels + 1) inner session before)
    (hinner : ∀ {inner : String} {session : Session π} {before earlier later : List (Question π)},
      IsRead settings packages text levels inner session before →
      questions settings levels inner session = earlier ++ question :: later →
        ∃ edits, Puts settings packages text (before ++ earlier) question edits)
    {count : Nat} (hcount : count ≤ (Source.ofString inner).length)
    (hsplit : questionsTo settings (nestedProse settings levels) (questions settings levels)
      (.ofString inner) session count = earlier ++ question :: later) :
    ∃ edits, Puts settings packages text (before ++ earlier) question edits := by
  induction count generalizing earlier later with
  | zero => simp [questionsTo] at hsplit
  | succ count ih =>
      rw [questionsTo_succ] at hsplit
      rcases split_append hsplit with ⟨between, hfirst⟩ | ⟨between, rfl, hsecond⟩
      · exact ih (Nat.le_of_succ_le hcount) hfirst
      · rcases hscan : ((tagger settings (nestedProse settings levels)).scanTo (.ofString inner)
          count).outcome { session := session } with ⟨failure | segments, reading⟩
        · simp [hscan] at hsecond
        · rw [hscan] at hsecond
          dsimp only at hsecond
          rw [questionsAt_eq] at hsecond
          rcases split_append hsecond with ⟨between', hinside⟩ | ⟨between', rfl, hown⟩
          · rw [innerQuestions] at hinside
            split at hinside
            next text' henclosed =>
              rw [← List.append_assoc]
              exact hinner (.enclosed hread hcount hscan henclosed) hinside
            next => simp at hinside
          · rcases ownQuestions_cases (nestedProse settings levels) ⟨.ofString inner, count⟩ reading with
              hnone | ⟨question', hone⟩
            · simp [hnone] at hown
            · obtain ⟨rfl, rfl, -⟩ : between' = [] ∧ question' = question ∧ later = [] := by
                rw [hone] at hown
                cases between' with
                | nil => simpa using hown
                | cons first between' => simp at hown
              rw [List.append_nil, ← List.append_assoc]
              exact hread.exists_puts_own hcount hscan hone

/-- Every question of a text is put by a command in it or in a text nested in it. -/
theorem IsRead.exists_puts (hread : IsRead settings packages text levels inner session before)
    (hsplit : questions settings levels inner session = earlier ++ question :: later) :
    ∃ edits, Puts settings packages text (before ++ earlier) question edits := by
  induction levels generalizing inner session before earlier later with
  | zero => simp [questions] at hsplit
  | succ levels ih =>
      rw [questions, questionsOf] at hsplit
      rcases split_append hsplit with ⟨between, hfirst⟩ | ⟨between, rfl, hsecond⟩
      · exact hread.exists_puts_to ih (Nat.le_refl _) hfirst
      · split at hsecond
        · simp at hsecond
        next hlength =>
          split at hsecond
          next segments reading hscan =>
            obtain ⟨rfl, hown⟩ : between = [] ∧ questionsAtEnd
                ⟨.ofString inner, (Source.ofString inner).length - 1⟩ reading = [question] := by
              rw [questionsAtEnd] at hsecond ⊢
              split at hsecond
              · cases between with
                | nil => simp_all
                | cons first between => simp at hsecond
              · simp at hsecond
            rw [List.append_nil]
            exact hread.exists_puts_end hlength hscan hown
          next => simp at hsecond

end Record

end Put

section Prose
variable [Package π]

/-- All that the reading of a text emits, up to its end. -/
def emitted (settings : Settings) (levels : Nat) (text : String) (session : Session π) : String :=
  let tagger := tagger settings (nestedProse settings levels)
  String.join ((tagger.visits (.ofString text) { session := session }).flatMap (emissions settings) ++
    (tagger.lastVisit? (.ofString text) { session := session }).toList.flatMap fun visit =>
      visit.edits.map Edit.attached)

/-- The prose of a text is what its reading emits, at whatever level it is read. -/
theorem nestedProse_eq_emitted {settings : Settings} {levels : Nat} {text prose : String}
    {session session' : Session π}
    (h : (nestedProse settings (levels + 1) text).outcome session = (.ok prose, session')) :
    prose = trim (emitted settings levels text session) := by
  rw [nestedProse, outcome_proseBy] at h
  rcases hscan : ((tagger settings (nestedProse settings levels)).scan (.ofString text)).outcome
    { session := session } with ⟨failure | segments, reading⟩
  · rw [hscan] at h
    cases h
  · obtain ⟨ribbon, hcompletes, hprojects⟩ := exists_projects_of_scan hscan
    rw [hscan] at h
    simp only [hprojects.prose] at h
    cases h
    rw [(Completes.accounts rfl rfl hcompletes).prose]
    rfl

/-- The prose of a document is that of its text. -/
theorem Document.exists_prose {settings : Settings} {packages : Chain π} {text : String}
    {document : Document π} (h : (withPackages settings packages text).read = (.ok (), document)) :
    ∃ map prose session, document.map = .ok map ∧ map.prose = .ok prose ∧
      (nestedProse settings (settings.maxNesting + 1) text).outcome { packages := packages } =
        (.ok prose, session) := by
  rw [read_withPackages] at h
  rcases hscan : ((documentTagger settings).scan (.ofString text)).outcome
    { session := { packages := packages } } with ⟨failure | segments, reading⟩
  · rw [hscan] at h
    cases h
  · obtain ⟨ribbon, -, hprojects⟩ := exists_projects_of_scan hscan
    rw [hscan] at h
    cases h
    refine ⟨_, trim ribbon.prose, reading.session, rfl, hprojects.prose, ?_⟩
    rw [nestedProse, outcome_proseBy, show ((tagger settings (nestedProse settings
      settings.maxNesting)).scan (.ofString text)).outcome { session := { packages := packages } } = _
      from hscan]
    exact congrArg (·, reading.session) hprojects.prose

end Prose

end Latex
end TexProse
