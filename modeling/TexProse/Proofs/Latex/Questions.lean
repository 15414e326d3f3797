import TexProse.Package.Plugin
import TexProse.Proofs.Latex.Partition
import TexProse.Proofs.Package.Interview

/-!
# The questions of a document

Which commands a text puts to the packages, in the order of the scan: at the character behind its name, or
behind its last argument, or at the end of the text. The questions of a nested text come where its bracket
closes, before the one of the command that owns it, and they come even if the nested text then fails.
Main statement: `interview_read`.
-/

namespace TexProse.Latex
variable {π : Type}

/-- What the current character puts to the packages, if nested texts raise the questions of `inner`. -/
def questionsAt (nested : Nested π) (inner : String → Session π → List (Question π)) (here : Cursor)
    (reading : Reading π) : List (Question π) :=
  match reading.mode with
  | .name start =>
    if here.offset - start ≤ 1 then
      if isLetter here.char then []
      else [⟨reading.session.packages, { name := here.source.slice start (here.offset + 1) }⟩]
    else if isNameChar here.char || (Bracket.ofArgument? here.char).isSome then []
    else [⟨reading.session.packages, { name := here.textSince start }⟩]
  | .argument command bracket start 0 =>
    if here.char = bracket.closing then
      inner (here.textSince start) reading.session ++
        match (nested (here.textSince start)).outcome reading.session,
            here.next?.bind Bracket.ofArgument? with
        | (.ok argument, session), none =>
          [⟨session.packages, { command with arguments := command.arguments ++ [argument] }⟩]
        | _, _ => []
    else []
  | .group start 0 =>
    if here.char = '}' then inner (here.textSince (start + 1)) reading.session else []
  | _ => []

/-- What the end of a text puts to the packages. -/
def questionsAtEnd (here : Cursor) (reading : Reading π) : List (Question π) :=
  match reading.mode with
  | .name start => [⟨reading.session.packages, { name := here.source.slice start (here.offset + 1) }⟩]
  | _ => []

variable [Package π]

/-- What a scan puts to the packages at its first `count` characters, up to the one that it fails at. -/
def questionsTo (settings : Settings) (nested : Nested π) (inner : String → Session π → List (Question π))
    (source : Source) (session : Session π) (count : Nat) : List (Question π) :=
  (List.range count).flatMap fun offset =>
    match ((tagger settings nested).scanTo source offset).outcome { session := session } with
    | (.ok _, reading) => questionsAt nested inner ⟨source, offset⟩ reading
    | (.error _, _) => []

/-- What the scan of a text puts to the packages. -/
def questionsOf (settings : Settings) (nested : Nested π) (inner : String → Session π → List (Question π))
    (source : Source) (session : Session π) : List (Question π) :=
  questionsTo settings nested inner source session source.length ++
    if source.length = 0 then []
    else
      match ((tagger settings nested).scanTo source source.length).outcome { session := session } with
      | (.ok _, reading) => questionsAtEnd ⟨source, source.length - 1⟩ reading
      | (.error _, _) => []

/-- What a text puts to the packages with a number of levels permitted, those nested in it included. -/
def questions (settings : Settings) : Nat → String → Session π → List (Question π)
  | 0, _, _ => []
  | levels + 1, text, session =>
    questionsOf settings (nestedProse settings levels) (questions settings levels) (.ofString text) session

section Packages
variable {here : Cursor} {reading : Reading π}

omit [Package π] in
theorem packages_textRule (here : Cursor) (reading : Reading π) :
    (textRule here reading).2.session.packages = reading.session.packages := by
  rw [textRule]
  dsimp only
  split_ifs
  · rfl
  · rfl
  · rfl
  · rfl
  · rfl
  · cases missingSpace? here <;> rfl

omit [Package π] in
theorem packages_backToText (here : Cursor) (step : Step π) :
    (backToText here step).2.session.packages = step.2.session.packages :=
  packages_textRule here _

omit [Package π] in
theorem packages_closeSpace (here : Cursor) (start stop : Nat) (reading : Reading π) :
    (closeSpace here start stop reading).2.session.packages = reading.session.packages := by
  rw [closeSpace]
  split <;> rfl

theorem packages_resolve (command : Command) (reading : Reading π) :
    (Step.resolve command reading).2.session.packages =
      (reading.session.packages.ask command).package := by
  rw [Step.resolve]
  split
  next text session hask => exact congrArg (fun answer => answer.2.packages) hask.symm
  next session hask => exact congrArg (fun answer => answer.2.packages) hask.symm

theorem packages_closeArgument (here : Cursor) (command : Command) (isEmpty : Bool) (reading : Reading π)
    (hnext : here.next?.bind Bracket.ofArgument? = none) :
    (closeArgument here command isEmpty reading).2.session.packages =
      (reading.session.packages.ask command).package := by
  rw [closeArgument]
  simp only [hnext]
  split
  · exact packages_resolve command reading
  · exact packages_resolve command reading

end Packages

section Step
variable {settings : Settings} {nested : Nested π} {inner : String → Session π → List (Question π)}
variable {here : Cursor} {reading : Reading π}

theorem interview_resolve (command : Command) (reading : Reading π) :
    Interview reading.session.packages [⟨reading.session.packages, command⟩]
      (Step.resolve command reading).2.session.packages := by
  rw [packages_resolve]
  exact .single _ command

/-- Where nothing is put to the packages they stay as they are. -/
theorem interview_silent {reading' : Reading π} (hnone : questionsAt nested inner here reading = [])
    (hsame : reading'.session.packages = reading.session.packages) :
    Interview reading.session.packages (questionsAt nested inner here reading)
      reading'.session.packages := by
  rw [hnone, hsame]
  exact .nil

omit [Package π] in
theorem questionsAt_inArgument {command : Command} {bracket : Bracket} {start depth depth' : Nat}
    (hmode : reading.mode = .argument command bracket start depth)
    (hdepth : bracket.depthAfter depth [here.char] = some depth') :
    questionsAt nested inner here reading = [] := by
  cases depth with
  | zero =>
      have hchar : here.char ≠ bracket.closing := by
        intro hchar
        simp [Bracket.depthAfter, hchar] at hdepth
      simp only [questionsAt, hmode, if_neg hchar]
  | succ depth => simp only [questionsAt, hmode]

omit [Package π] in
theorem questionsAt_inGroup {start depth depth' : Nat} (hmode : reading.mode = .group start depth)
    (hdepth : Bracket.curly.depthAfter depth [here.char] = some depth') :
    questionsAt nested inner here reading = [] := by
  cases depth with
  | zero =>
      have hchar : here.char ≠ '}' := by
        intro hchar
        simp [Bracket.depthAfter, Bracket.closing, hchar] at hdepth
      simp only [questionsAt, hmode, if_neg hchar]
  | succ depth => simp only [questionsAt, hmode]

omit [Package π] in
/-- Behind a name that is over its command is put, unless an argument opens. -/
theorem questionsAt_endName {start : Nat} (hmode : reading.mode = .name start)
    (hlong : ¬ here.offset - start ≤ 1) (hc : isNameChar here.char = false) :
    questionsAt nested inner here reading =
      if (Bracket.ofArgument? here.char).isSome then []
      else [⟨reading.session.packages, { name := here.textSince start }⟩] := by
  simp only [questionsAt, hmode, if_neg hlong, hc, Bool.false_or]

variable (hinner : ∀ (text : String) (session session' : Session π) (result : Except Failure String),
  (nested text).outcome session = (result, session') →
    Interview session.packages (inner text session) session'.packages)
include hinner

/-- A move puts its questions to the packages. -/
theorem Move.interview {step : Step π} (h : Move settings nested here reading step) :
    Interview reading.session.packages (questionsAt nested inner here reading)
      step.2.session.packages := by
  cases h with
  | text hmode => exact interview_silent (by simp only [questionsAt, hmode]) (packages_textRule here reading)
  | blank hmode hc => exact interview_silent (by simp only [questionsAt, hmode]) rfl
  | endSpace hmode hc =>
      apply interview_silent (by simp only [questionsAt, hmode])
      rw [packages_backToText, packages_closeSpace]
  | remark hmode hc => exact interview_silent (by simp only [questionsAt, hmode]) rfl
  | endComment hmode hc => exact interview_silent (by simp only [questionsAt, hmode]) rfl
  | pair hmode hmark => exact interview_silent (by simp only [questionsAt, hmode]) rfl
  | straight hmode hmark hnotice =>
      apply interview_silent (by simp only [questionsAt, hmode])
      exact packages_backToText here _
  | nameChar hmode hc =>
      apply interview_silent _ rfl
      simp only [questionsAt, hmode]
      split at hc
      next hshort => rw [if_pos hshort, if_pos hc]
      next hlong => rw [if_neg hlong, hc, Bool.true_or, if_pos rfl]
  | escape hmode hshort hc =>
      simp only [questionsAt, hmode, hshort, hc, if_true]
      exact interview_resolve _ reading
  | openArgument hmode hlong hc hbracket =>
      apply interview_silent _ rfl
      rw [questionsAt_endName hmode hlong hc, hbracket]
      rfl
  | nameSpace hmode hlong hc hbracket hblank =>
      rw [questionsAt_endName hmode hlong hc, hbracket]
      exact interview_resolve _ reading
  | endName hmode hlong hc hbracket hblank =>
      rw [questionsAt_endName hmode hlong hc, hbracket, packages_backToText]
      exact interview_resolve _ reading
  | reopening hmode => exact interview_silent (by simp only [questionsAt, hmode]) rfl
  | inArgument hmode hdepth => exact interview_silent (questionsAt_inArgument hmode hdepth) rfl
  | nextArgument hmode hchar hnested hnext =>
      simp only [questionsAt, hmode, hchar, hnested, hnext, if_true, List.append_nil]
      exact hinner _ _ _ _ hnested
  | lastArgument hmode hchar hnested hnext =>
      rw [packages_closeArgument _ _ _ _ hnext]
      simp only [questionsAt, hmode, hchar, hnested, hnext, if_true]
      exact (hinner _ _ _ _ hnested).append (.single _ _)
  | inGroup hmode hdepth => exact interview_silent (questionsAt_inGroup hmode hdepth) rfl
  | endGroup hmode hchar hnested =>
      simp only [questionsAt, hmode, hchar, if_true]
      exact hinner _ _ _ _ hnested

/-- A stumble has put the questions of the nested text that failed. -/
theorem Stumble.interview {failure : Failure} {reading' : Reading π}
    (h : Stumble nested here reading failure reading') :
    Interview reading.session.packages (questionsAt nested inner here reading)
      reading'.session.packages := by
  cases h with
  | argument hmode hchar hnested =>
      simp only [questionsAt, hmode, hchar, hnested, if_true, List.append_nil]
      exact hinner _ _ _ _ hnested
  | group hmode hchar hnested =>
      simp only [questionsAt, hmode, hchar, if_true]
      exact hinner _ _ _ _ hnested

omit hinner in
theorem interview_onEnd {window : Window Tag} {result : Except Failure (List (Edit Tag))}
    {reading' : Reading π} (h : (onEnd window).outcome reading = (result, reading')) :
    Interview reading.session.packages (questionsAtEnd window.toCursor reading)
      reading'.session.packages := by
  have hsilent {mode : Mode} (hmode : reading.mode = mode) (hname : ∀ start, mode ≠ .name start)
      (hsame : reading'.session.packages = reading.session.packages) :
      Interview reading.session.packages (questionsAtEnd window.toCursor reading)
        reading'.session.packages := by
    have hnone : questionsAtEnd window.toCursor reading = [] := by
      rw [questionsAtEnd, hmode]
      cases mode with
      | name start => exact absurd rfl (hname start)
      | _ => rfl
    rw [hnone, hsame]
    exact .nil
  rw [outcome_onEnd] at h
  split at h <;> cases h
  next start hmode => exact hsilent hmode (by simp) (packages_closeSpace _ _ _ _)
  next hmode => exact hsilent hmode (by simp) rfl
  next start hmode =>
    rw [questionsAtEnd, hmode]
    exact interview_resolve _ reading
  next hmode => exact hsilent hmode (by simp) rfl
  next hmode => exact hsilent hmode (by simp) rfl
  next hmode => exact hsilent hmode (by simp) rfl
  next hmode => exact hsilent hmode (by simp) rfl
  next hmode => exact hsilent hmode (by simp) rfl

end Step

section Run
variable {settings : Settings} {nested : Nested π} {inner : String → Session π → List (Question π)}
variable {source : Source} {session : Session π} {ribbon : Ribbon Tag} {reading : Reading π}

theorem questionsTo_succ (count : Nat) :
    questionsTo settings nested inner source session (count + 1) =
      questionsTo settings nested inner source session count ++
        match ((tagger settings nested).scanTo source count).outcome { session := session } with
        | (.ok _, reading) => questionsAt nested inner ⟨source, count⟩ reading
        | (.error _, _) => [] := by
  rw [questionsTo, List.range_succ, List.flatMap_append, List.flatMap_singleton, questionsTo]

/-- A scan that has failed puts no more questions. -/
theorem questionsTo_of_error {count more : Nat} {failure : Failure} (hle : count ≤ more)
    (h : ((tagger settings nested).scanTo source count).outcome { session := session } =
      (.error failure, reading)) :
    questionsTo settings nested inner source session more =
      questionsTo settings nested inner source session count := by
  induction hle with
  | refl => rfl
  | @step more hle ih =>
      rw [questionsTo_succ, ih, Tagger.outcome_scanTo_error hle h]
      exact List.append_nil _

variable (hinner : ∀ (text : String) (session session' : Session π) (result : Except Failure String),
  (nested text).outcome session = (result, session') →
    Interview session.packages (inner text session) session'.packages)
include hinner

theorem Reaches.interview {count : Nat}
    (h : (tagger settings nested).Reaches source { session := session } count ribbon reading) :
    Interview session.packages (questionsTo settings nested inner source session count)
      reading.session.packages := by
  induction h with
  | start => exact .nil
  | @step count ribbon middle reading window edits before hcount hcursor hlist hedits ih =>
      obtain ⟨segments, hscan, -⟩ := before.outcome_scanTo (isBlind_tagger _ _)
      have hmove := move_of_outcome hedits
      rw [hcursor] at hmove
      rw [questionsTo_succ, hscan]
      exact ih.append (hmove.interview hinner)

theorem Fails.interview {failure : Failure}
    (h : (tagger settings nested).Fails source { session := session } failure reading) :
    Interview session.packages (questionsOf settings nested inner source session)
      reading.session.packages := by
  cases h with
  | @step count ribbon middle _ window cause before hcount hcursor hlist hcause =>
      have hfailed := before.outcome_scanTo_error (isBlind_tagger _ _) hcursor hcause
      obtain ⟨segments, hscan, -⟩ := before.outcome_scanTo (isBlind_tagger _ _)
      have hstumble := stumble_of_outcome hcause
      rw [hcursor] at hstumble
      rw [questionsOf, questionsTo_of_error hcount hfailed, Tagger.outcome_scanTo_error hcount hfailed,
        ite_self, List.append_nil, questionsTo_succ, hscan]
      exact (Reaches.interview hinner before).append (hstumble.interview hinner)
  | @ended ribbon middle _ window cause before hlength hcursor hlist hcause =>
      obtain ⟨segments, hscan, -⟩ := before.outcome_scanTo (isBlind_tagger _ _)
      rw [questionsOf, if_neg (Nat.ne_of_gt hlength), hscan, ← hcursor]
      exact (Reaches.interview hinner before).append (interview_onEnd hcause)

theorem Completes.interview
    (h : (tagger settings nested).Completes source { session := session } ribbon reading) :
    Interview session.packages (questionsOf settings nested inner source session)
      reading.session.packages := by
  cases h with
  | empty hlength =>
      rw [questionsOf, if_pos hlength, hlength]
      exact .nil
  | @ended ribbon middle _ window edits before hlength hcursor hlist hedits =>
      obtain ⟨segments, hscan, -⟩ := before.outcome_scanTo (isBlind_tagger _ _)
      rw [questionsOf, if_neg (Nat.ne_of_gt hlength), hscan, ← hcursor]
      exact (Reaches.interview hinner before).append (interview_onEnd hedits)

/-- A scan puts its questions to the packages, whether it succeeds or fails. -/
theorem interview_scan {result : Except Failure (Segmentation Tag)}
    (h : ((tagger settings nested).scan source).outcome { session := session } = (result, reading)) :
    Interview session.packages (questionsOf settings nested inner source session)
      reading.session.packages := by
  cases result with
  | error failure => exact Fails.interview hinner (Tagger.fails_of_scan h)
  | ok segments =>
      obtain ⟨ribbon, hcompletes, -⟩ := Tagger.exists_completes h
      exact Completes.interview hinner hcompletes

end Run

variable {settings : Settings}

/-- A nested text puts its questions and those of the texts nested in it. -/
theorem interview_nestedProse (levels : Nat) (text : String) (session session' : Session π)
    (result : Except Failure String)
    (h : (nestedProse settings levels text).outcome session = (result, session')) :
    Interview session.packages (questions settings levels text session) session'.packages := by
  induction levels generalizing text session session' result with
  | zero =>
      cases h
      exact .nil
  | succ levels ih =>
      rw [nestedProse, outcome_proseBy] at h
      rcases hscan : ((tagger settings (nestedProse settings levels)).scan (.ofString text)).outcome
        { session := session } with ⟨failure | segments, reading⟩
      all_goals
        rw [hscan] at h
        obtain ⟨-, rfl⟩ := Prod.mk.inj h
        exact interview_scan ih hscan

namespace Document

/-- What a document puts to its packages. -/
def questions (settings : Settings) (packages : Chain π) (text : String) : List (Question π) :=
  Latex.questions settings (settings.maxNesting + 1) text { packages := packages }

theorem interview (settings : Settings) (packages : Chain π) (text : String) :
    Interview packages (questions settings packages text)
      (withPackages settings packages text).read.2.session.packages := by
  have hscan {result : Except Failure (Segmentation Tag)} {reading : Reading π}
      (h : ((documentTagger settings).scan (.ofString text)).outcome { session := { packages := packages } } =
        (result, reading)) :
      Interview packages (questions settings packages text) reading.session.packages :=
    interview_scan (interview_nestedProse settings.maxNesting) h
  rw [read_withPackages]
  rcases hread : ((documentTagger settings).scan (.ofString text)).outcome
    { session := { packages := packages } } with ⟨failure | segments, reading⟩
  · exact hscan hread
  · exact hscan hread

end Document

/-- Whether a document can be read or not, its packages are the same packages in the same order, as they are
after the questions of the document and of all texts nested in it. Each question finds what all before it
have left, and it finds all packages. The first of them hears every question. -/
theorem interview_read (settings : Settings) (packages : Chain π) (text : String) :
    let questions := Document.questions settings packages text
    let left := (Document.withPackages settings packages text).read.2.session.packages
    left = Package.after packages (questions.map (·.command)) ∧
      (∀ earlier question later, questions = earlier ++ question :: later →
        question.packages = Package.after packages (earlier.map (·.command)) ∧
          question.packages.size = packages.size) ∧
      List.Forall₂ (fun package package' => ∃ heard : List Command,
          heard.Sublist (questions.map (·.command)) ∧ package' = Package.after package heard)
        packages.packages left.packages ∧
      left.packages.head? = packages.packages.head?.map (Package.after · (questions.map (·.command))) := by
  have hinterview := Document.interview settings packages text
  refine ⟨hinterview.eq_after, ?_, hinterview.forall₂_heard, ?_⟩
  · intro earlier question later hsplit
    rw [hsplit] at hinterview
    exact ⟨hinterview.packages_eq, hinterview.size_question⟩
  · rw [hinterview.eq_after]
    exact Package.head?_after packages _

/-- A package that declines all commands and writes down what it was asked. -/
structure Ledger where
  heard : List Command := []
  deriving DecidableEq, Repr

instance : Package Ledger where
  ask ledger command := ⟨none, ⟨ledger.heard ++ [command]⟩, []⟩

theorem after_ledger (ledger : Ledger) (commands : List Command) :
    Package.after (.inl ledger : Ledger ⊕ π) commands = .inl ⟨ledger.heard ++ commands⟩ := by
  induction commands generalizing ledger with
  | nil => simp [Package.after]
  | cons command rest ih =>
      calc Package.after (.inl ledger : Ledger ⊕ π) (command :: rest)
          = Package.after (.inl ⟨ledger.heard ++ [command]⟩ : Ledger ⊕ π) rest := rfl
        _ = .inl ⟨ledger.heard ++ [command] ++ rest⟩ := ih _
        _ = .inl ⟨ledger.heard ++ command :: rest⟩ := by rw [List.append_assoc, List.singleton_append]

/-- The questions of a document are what a package in front of all others writes down. -/
theorem heard_read (settings : Settings) (packages : List (Ledger ⊕ π)) (text : String) :
    (Document.withPackages settings ⟨.inl {} :: packages⟩ text).read.2.session.packages.packages.head? =
      some (.inl ⟨(Document.questions settings ⟨.inl {} :: packages⟩ text).map (·.command)⟩) := by
  rw [(Document.interview settings _ text).eq_after, Package.head?_after]
  exact congrArg some (after_ledger _ _)

/-- The second argument fails inside, and the commands that own the arguments are never put. -/
example :
    ((Document.withPackages {} (⟨[.inl {}, .inr (.listener {})]⟩ : Chain (Ledger ⊕ Plugin))
        "\\a\x7b\\b\x7bx\x7d\\c\x7d\x7b\\d\x7b\\e\\f[\x7d\x7d").read.2.session.packages.packages.head?.map
      (Sum.elim (fun ledger => ledger.heard.map (·.name)) fun _ => [])) =
      some ["\\b", "\\c", "\\e"] := by
  decide +kernel

end TexProse.Latex
