import TexProse.Proofs.Bracket.Nesting
import TexProse.Proofs.Latex.Trail

/-!
# Texts with balanced brackets

A reading counts the brackets of one kind at a time, and only from where an argument or a group begins.
Where curly and square brackets nest, the bracket that closes one encloses nested brackets again, whatever
commands, quotation marks and comments stand among them, and no bracket is open at the end of a text.
Main statement: `read_of_isNested`.
-/

namespace TexProse.Latex

/-- The kinds of brackets that a document is read by. -/
def brackets : List Bracket := [.curly, .square]

theorem mem_brackets {bracket : Bracket} (h : bracket ≠ .angle) : bracket ∈ brackets := by
  cases bracket with
  | curly => decide
  | square => decide
  | angle => exact absurd rfl h

/-- What a bracket encloses is nested, and less deep. -/
theorem Site.Encloses.isNested {site : Site} {inner : String} (h : site.Encloses inner)
    (htext : Bracket.IsNested brackets site.text.toList) :
    Bracket.IsNested brackets inner.toList ∧
      Bracket.nesting brackets inner.toList < Bracket.nesting brackets site.text.toList := by
  obtain ⟨bracket, before, after, hbracket, hsplit, -, hinner⟩ := h
  rw [List.append_assoc, List.cons_append] at hsplit
  rw [hsplit] at htext ⊢
  exact htext.inner (mem_brackets hbracket) hinner

/-- Nothing that a bracket opened is open at the end of a nested text. -/
theorem not_opens_of_isNested {source : Source} {bracket : Bracket} {start depth : Nat}
    (h : Bracket.IsNested brackets source.chars.toList) (hbracket : bracket ≠ .angle) :
    ¬ Opens source bracket start source.length depth := by
  rintro ⟨before, inside, htake, -, hinside⟩
  rw [← source.take_length, htake] at h
  cases hinside.symm.trans (h.depthAfter_of_open (mem_brackets hbracket))

variable {π : Type} [Package π] {settings : Settings} {nested : Nested π} {text : String}

/-- The end of a nested text is reached where it may end. -/
theorem outcome_onEnd_of_isNested {source : Source} {window : Window Tag} {reading reading' : Reading π}
    {failure : Failure} (h : Bracket.IsNested brackets source.chars.toList)
    (htracks : reading.mode.Tracks source source.length) :
    (onEnd window).outcome reading ≠ (.error failure, reading') := by
  intro hfailure
  rw [outcome_onEnd] at hfailure
  split at hfailure <;> cases hfailure
  next hmode =>
    rw [hmode] at htracks
    exact not_opens_of_isNested h htracks.1 htracks.2
  next hmode =>
    rw [hmode] at htracks
    have hend : source.char? source.length = none := Array.getElem?_eq_none (Nat.le_refl _)
    cases hend.symm.trans htracks.2
  next hmode =>
    rw [hmode] at htracks
    exact not_opens_of_isNested h (by decide) htracks

/-- Texts with nested brackets fail only by their depth, and not below `levels`. -/
def FailsDeep (settings : Settings) (nested : Nested π) (levels : Nat) : Prop :=
  ∀ (inner : String) (session session' : Session π) (failure : Failure),
    Bracket.IsNested brackets inner.toList →
      (nested inner).outcome session = (.error failure, session') →
        failure.root = .tooDeep settings.maxNesting ∧
          levels ≤ Bracket.nesting brackets inner.toList

/-- A nested text fails only as one of the texts inside it. -/
theorem tooDeep_of_fails {levels : Nat} {initial reading : Reading π} {failure : Failure}
    (hinitial : initial.mode = .text) (hnested : FailsDeep settings nested levels)
    (htext : Bracket.IsNested brackets text.toList)
    (h : (tagger settings nested).Fails (.ofString text) initial failure reading) :
    failure.root = .tooDeep settings.maxNesting ∧
      levels < Bracket.nesting brackets text.toList := by
  have hinside : ∀ {offset : Nat} {inner : String} {session session' : Session π} {cause : Failure},
      Site.Encloses ⟨text, offset⟩ inner →
      (nested inner).outcome session = (.error cause, session') →
      (Failure.within (Site.location ⟨text, offset⟩) cause).root = .tooDeep settings.maxNesting ∧
        levels < Bracket.nesting brackets text.toList := by
    intro offset inner session session' cause hencloses hfailed
    obtain ⟨hinner, hless⟩ := hencloses.isNested htext
    obtain ⟨hroot, hlevels⟩ := hnested inner session session' cause hinner hfailed
    exact ⟨hroot, Nat.lt_of_le_of_lt hlevels hless⟩
  cases h with
  | @step count ribbon middle _ window cause before hcount hcursor hlist hcause =>
      have htracks := Reaches.tracks hinitial before
      have hstumble := stumble_of_outcome hcause
      rw [hcursor] at hstumble
      cases hstumble with
      | argument hmode hchar hfailed =>
          rw [hmode] at htracks
          exact hinside (htracks.2.encloses htracks.1 hcount hchar) hfailed
      | group hmode hchar hfailed =>
          rw [hmode] at htracks
          exact hinside (htracks.encloses (by decide) hcount hchar) hfailed
  | ended before hlength hcursor hlist hcause =>
      exact absurd hcause (outcome_onEnd_of_isNested htext (Reaches.tracks hinitial before))

theorem failsDeep_nestedProse (settings : Settings) (levels : Nat) :
    FailsDeep settings (@nestedProse π _ settings levels) levels := by
  induction levels with
  | zero =>
      intro inner session session' failure hinner hfailed
      cases hfailed
      exact ⟨rfl, Nat.zero_le _⟩
  | succ levels ih =>
      intro inner session session' failure hinner hfailed
      obtain ⟨reading, hfails, -⟩ := outcome_proseBy_error hfailed
      exact tooDeep_of_fails rfl ih hinner hfails

/-- A document whose curly and square brackets nest never has an open bracket at the end of a text, and it
is read if its brackets are nested no deeper than is permitted. A bracket counts wherever it stands: behind
a backslash, in a comment or as plain text. -/
theorem read_of_isNested {packages : Chain π} (h : Bracket.IsNested brackets text.toList) :
    (∀ failure document,
      (Document.withPackages settings packages text).read = (.error failure, document) →
        failure.root = .tooDeep settings.maxNesting) ∧
    (Bracket.nesting brackets text.toList ≤ settings.maxNesting →
      ∃ document, (Document.withPackages settings packages text).read = (.ok (), document)) := by
  rw [Document.read_withPackages]
  rcases hscan : ((documentTagger settings).scan (.ofString text)).outcome
    { session := { packages := packages } } with ⟨cause | segments, reading⟩
  · have hnested := @failsDeep_nestedProse π _ settings settings.maxNesting
    obtain ⟨hroot, hdeep⟩ := tooDeep_of_fails rfl hnested h
      (Tagger.fails_of_scan hscan)
    constructor
    · rintro failure document ⟨⟩
      exact hroot
    · intro hshallow
      exact absurd hdeep (Nat.not_lt.mpr hshallow)
  · constructor
    · rintro failure document ⟨⟩
    · intro hshallow
      exact ⟨_, rfl⟩

theorem read_of_isNested_mixed :
    Bracket.IsNested brackets "[a\\b[\x7bc\x7d]\x7b\"d[`]\x7d] % e\n\x7bf\x7d".toList ∧
      Bracket.nesting brackets "[a\\b[\x7bc\x7d]\x7b\"d[`]\x7d] % e\n\x7bf\x7d".toList = 3 ∧
      ∃ document, (Document.withPackages { maxNesting := 3 } (Chain.bundled {})
        "[a\\b[\x7bc\x7d]\x7b\"d[`]\x7d] % e\n\x7bf\x7d").read = (.ok (), document) := by
  have hnested : Bracket.IsNested brackets "[a\\b[\x7bc\x7d]\x7b\"d[`]\x7d] % e\n\x7bf\x7d".toList := by
    decide
  have hdepth : Bracket.nesting brackets "[a\\b[\x7bc\x7d]\x7b\"d[`]\x7d] % e\n\x7bf\x7d".toList = 3 := by
    decide
  exact ⟨hnested, hdepth, (read_of_isNested hnested).2 (Nat.le_of_eq hdepth)⟩

end TexProse.Latex
