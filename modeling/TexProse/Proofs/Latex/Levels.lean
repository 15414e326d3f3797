import TexProse.Proofs.Latex.Questions
import TexProse.Proofs.Latex.Trail
import TexProse.Proofs.Tagging.Extension

/-!
# The number of levels is only a limit

Whether a text is read or cannot be read, one more level changes nothing, as long as no text inside lies too
deep; and none can lie too deep if the levels are at least half as many as the characters, for each level
costs the two brackets around it. Main statement: `read_eq_of_levels_le`.

## Implementation notes

A document with more levels makes the same moves, for a move depends on the levels only through the outcomes
of nested texts. `Action.Extends` carries this from the rules to the scan and, by induction on the levels, to
nested texts; the questions follow the scan.
-/

namespace TexProse

namespace Failure

/-- Some nested text lies below the last permitted level. -/
def IsTooDeep (failure : Failure) : Prop := ∃ levels, failure.root = .tooDeep levels

theorem IsTooDeep.within (location : String) (cause : Failure) (h : cause.IsTooDeep) :
    (Failure.within location cause).IsTooDeep := h

end Failure

namespace Latex
variable {π : Type} [Package π] {settings settings' : Settings} {nested nested' : Nested π}

section Rules
variable {bad : Failure → Prop} {window : Window Tag} {reading : Reading π} {start : Nat}

/-- A reading that does not fail in a bad way at the end of an argument has read it without such a
failure. -/
theorem avoids_argument {command : Command} {bracket : Bracket}
    (havoids : (onChar settings nested window).Avoids bad reading)
    (hmode : reading.mode = .argument command bracket start 0)
    (hchar : window.toCursor.char = bracket.closing) :
    (nested (window.toCursor.textSince start)).Avoids bad reading.session := by
  intro failure hfailure
  have hstumble : Stumble nested window.toCursor reading failure _ :=
    .argument hmode hchar (Prod.ext hfailure rfl)
  exact havoids failure (congrArg Prod.fst hstumble.outcome)

theorem avoids_group (havoids : (onChar settings nested window).Avoids bad reading)
    (hmode : reading.mode = .group start 0) (hchar : window.toCursor.char = '}') :
    (nested (window.toCursor.textSince (start + 1))).Avoids bad reading.session := by
  intro failure hfailure
  have hstumble : Stumble nested window.toCursor reading failure _ :=
    .group hmode hchar (Prod.ext hfailure rfl)
  exact havoids failure (congrArg Prod.fst hstumble.outcome)

section Extends
variable (hpairs : ∀ c, pairedQuote? settings' c = pairedQuote? settings c)
variable (hnested : ∀ text, Action.Extends bad (nested text) (nested' text))
include hnested

omit [Package π] in
theorem nested_of_ok {text prose : String} {session session' : Session π}
    (h : (nested text).outcome session = (.ok prose, session')) :
    (nested' text).outcome session = (.ok prose, session') :=
  (hnested text session (.of_ok h)).trans h

include hpairs

/-- What is possible for a reading stays possible if its nested texts can do more. -/
theorem Move.extend {here : Cursor} {step : Step π} (h : Move settings nested here reading step) :
    Move settings' nested' here reading step := by
  cases h with
  | text hmode => exact .text hmode
  | blank hmode hc => exact .blank hmode hc
  | endSpace hmode hc => exact .endSpace hmode hc
  | remark hmode hc => exact .remark hmode hc
  | endComment hmode hc => exact .endComment hmode hc
  | pair hmode hmark => exact .pair hmode ((hpairs _).trans hmark)
  | straight hmode hmark hnotice => exact .straight hmode ((hpairs _).trans hmark) hnotice
  | nameChar hmode hc => exact .nameChar hmode hc
  | escape hmode hshort hc => exact .escape hmode hshort hc
  | openArgument hmode hlong hc hbracket => exact .openArgument hmode hlong hc hbracket
  | nameSpace hmode hlong hc hbracket hblank => exact .nameSpace hmode hlong hc hbracket hblank
  | endName hmode hlong hc hbracket hblank => exact .endName hmode hlong hc hbracket hblank
  | reopening hmode => exact .reopening hmode
  | inArgument hmode hdepth => exact .inArgument hmode hdepth
  | nextArgument hmode hchar hok hnext => exact .nextArgument hmode hchar (nested_of_ok hnested hok) hnext
  | lastArgument hmode hchar hok hnext => exact .lastArgument hmode hchar (nested_of_ok hnested hok) hnext
  | inGroup hmode hdepth => exact .inGroup hmode hdepth
  | endGroup hmode hchar hok => exact .endGroup hmode hchar (nested_of_ok hnested hok)

theorem extends_onChar (window : Window Tag) :
    Action.Extends bad (onChar settings nested window) (onChar settings' nested' window) := by
  intro reading havoids
  rcases outcome_cases settings nested window reading with
    ⟨step, hmove, hstep⟩ | ⟨failure, reading', hstumble, hfailure⟩
  · rw [hstep]
    exact (hmove.extend hpairs hnested).outcome
  · rw [hfailure]
    cases hstumble with
    | argument hmode hchar hfailed =>
        have hsame := hnested _ _ (avoids_argument havoids hmode hchar)
        exact (Stumble.argument hmode hchar (hsame.trans hfailed)).outcome
    | group hmode hchar hfailed =>
        have hsame := hnested _ _ (avoids_group havoids hmode hchar)
        exact (Stumble.group hmode hchar (hsame.trans hfailed)).outcome

theorem extends_tagger :
    Tagger.Extends bad (tagger settings nested) (tagger settings' nested') where
  start := rfl
  onChar := extends_onChar hpairs hnested
  onEnd window := .refl (onEnd window)

omit hpairs hnested in
/-- A text whose prose does not fail in a bad way is scanned without such a failure. -/
theorem avoids_scan {text : String} {session : Session π}
    (havoids : (proseBy (tagger settings nested) text).Avoids bad session) :
    ((tagger settings nested).scan (.ofString text)).Avoids bad { session := session } := by
  intro failure hfailure
  apply havoids failure
  rw [outcome_proseBy, show ((tagger settings nested).scan (.ofString text)).outcome
    { session := session } = (.error failure, _) from Prod.ext hfailure rfl]

variable (hwithin : ∀ location cause, bad cause → bad (.within location cause))
include hwithin

theorem extends_proseBy (text : String) :
    Action.Extends bad (proseBy (tagger settings nested) text) (proseBy (tagger settings' nested') text) := by
  intro session havoids
  rw [outcome_proseBy, outcome_proseBy,
    (extends_tagger hpairs hnested).scan hwithin _ _ (avoids_scan havoids)]

section Questions
variable {inner inner' : String → Session π → List (Question π)} {source : Source} {session : Session π}
variable (hinner : ∀ text session, (nested text).Avoids bad session → inner' text session = inner text session)
include hinner

omit hpairs hwithin in
theorem questionsAt_of_avoids (havoids : (onChar settings nested window).Avoids bad reading) :
    questionsAt nested' inner' window.toCursor reading = questionsAt nested inner window.toCursor reading := by
  cases hmode : reading.mode with
  | argument command bracket start depth =>
      cases depth with
      | zero =>
          by_cases hchar : window.toCursor.char = bracket.closing
          · have hsafe := avoids_argument havoids hmode hchar
            simp only [questionsAt, hmode, if_pos hchar, hinner _ _ hsafe, hnested _ _ hsafe]
          · simp only [questionsAt, hmode, if_neg hchar]
      | succ depth => simp only [questionsAt, hmode]
  | group start depth =>
      cases depth with
      | zero =>
          by_cases hchar : window.toCursor.char = '}'
          · have hsafe := avoids_group havoids hmode hchar
            simp only [questionsAt, hmode, if_pos hchar, hinner _ _ hsafe]
          · simp only [questionsAt, hmode, if_neg hchar]
      | succ depth => simp only [questionsAt, hmode]
  | _ => simp only [questionsAt, hmode]

theorem questionsTo_of_avoids {count : Nat}
    (havoids : ((tagger settings nested).scanTo source count).Avoids bad { session := session }) :
    questionsTo settings' nested' inner' source session count =
      questionsTo settings nested inner source session count := by
  induction count with
  | zero => rfl
  | succ count ih =>
      rw [Tagger.scanTo_succ] at havoids
      rw [questionsTo_succ, questionsTo_succ, ih havoids.first,
        (extends_tagger hpairs hnested).scanTo hwithin _ _ _ havoids.first]
      rcases hscan : ((tagger settings nested).scanTo source count).outcome { session := session } with
        ⟨failure | segments, reading⟩
      · rfl
      · have hstep := Tagger.avoids_of_visit hwithin (havoids.next hscan)
        exact congrArg (_ ++ ·) (questionsAt_of_avoids hnested hinner hstep)

theorem questionsOf_of_avoids
    (havoids : ((tagger settings nested).scan source).Avoids bad { session := session }) :
    questionsOf settings' nested' inner' source session =
      questionsOf settings nested inner source session := by
  rcases Nat.eq_zero_or_pos source.length with hlength | hlength
  · simp [questionsOf, questionsTo, hlength]
  · rw [Tagger.scan_of_length_pos hlength] at havoids
    rw [questionsOf, questionsOf, questionsTo_of_avoids hpairs hnested hwithin hinner havoids.first,
      (extends_tagger hpairs hnested).scanTo hwithin _ _ _ havoids.first]

end Questions

end Extends

end Rules

section Levels
variable (hpairs : ∀ c, pairedQuote? settings' c = pairedQuote? settings c)
include hpairs

/-- With more levels a nested text comes to the same, unless it lies too deep. -/
theorem extends_nestedProse {levels more : Nat} (hle : levels ≤ more) (text : String) :
    Action.Extends (σ := Session π) Failure.IsTooDeep (nestedProse settings levels text)
      (nestedProse settings' more text) := by
  induction levels generalizing more text with
  | zero =>
      intro session havoids
      exact absurd ⟨settings.maxNesting, rfl⟩ (havoids _ rfl)
  | succ levels ih =>
      obtain ⟨more, rfl⟩ := Nat.exists_eq_add_of_le' hle
      exact extends_proseBy hpairs (ih (Nat.le_add_left levels more)) Failure.IsTooDeep.within text

/-- With more levels a text puts the same questions, unless it lies too deep. -/
theorem questions_of_avoids {levels more : Nat} (hle : levels ≤ more) (text : String) (session : Session π)
    (havoids : (nestedProse settings levels text).Avoids Failure.IsTooDeep session) :
    questions settings' more text session = questions settings levels text session := by
  induction levels generalizing more text session with
  | zero => exact absurd ⟨settings.maxNesting, rfl⟩ (havoids _ rfl)
  | succ levels ih =>
      obtain ⟨more, rfl⟩ := Nat.exists_eq_add_of_le' hle
      have hle' : levels ≤ more + levels := Nat.le_add_left levels more
      exact questionsOf_of_avoids hpairs (extends_nestedProse hpairs hle') Failure.IsTooDeep.within
        (fun text session => ih hle' text session) (avoids_scan havoids)

end Levels

/-- A text that lies too deep has two characters for each level around it. -/
theorem Trail.length_of_isTooDeep {levels : Nat} {text : String} {failure : Failure} {trail : List Site}
    (h : Trail settings levels text failure trail) (hdeep : failure.IsTooDeep) :
    2 * levels ≤ text.length := by
  induction h with
  | tooDeep => exact Nat.zero_le _
  | @unclosed levels text offset bracket hend hbracket =>
      obtain ⟨permitted, hroot⟩ := hdeep
      cases hroot
  | @inner levels text inner offset cause trail hinner htrail ih =>
      have hlevels : 2 * levels ≤ inner.length := ih hdeep
      obtain ⟨bracket, before, after, -, htext, -⟩ := hinner
      have hlength := congrArg List.length htext
      simp only [List.length_append, List.length_cons, String.length_toList] at hlength
      omega

namespace Document

/-- A document that can be read, or fails otherwise than by lying too deep, is scanned so. -/
theorem avoids_scan {packages : Chain π} {text : String}
    (h : ∀ failure, (withPackages settings packages text).read.1 = .error failure → ¬ failure.IsTooDeep) :
    ((documentTagger settings).scan (.ofString text)).Avoids Failure.IsTooDeep
      { session := { packages := packages } } := by
  intro failure hfailure
  apply h failure
  rw [read_withPackages, show ((documentTagger settings).scan (.ofString text)).outcome
    { session := { packages := packages } } = (.error failure, _) from Prod.ext hfailure rfl]

/-- Documents whose scans come to the same are read to the same. -/
theorem read_of_outcome_eq {packages : Chain π} {text : String}
    (h : ((documentTagger settings').scan (.ofString text)).outcome
        { session := { packages := packages } } =
      ((documentTagger settings).scan (.ofString text)).outcome
        { session := { packages := packages } }) :
    let first := (withPackages settings packages text).read
    let second := (withPackages settings' packages text).read
    second.1 = first.1 ∧ second.2.map = first.2.map ∧ second.2.session = first.2.session := by
  have hfirst := read_withPackages settings packages text
  have hsecond := read_withPackages settings' packages text
  rw [h] at hsecond
  generalize ((documentTagger settings).scan (.ofString text)).outcome
    { session := { packages := packages } } = result at hfirst hsecond
  obtain ⟨failure | segments, reading⟩ := result
  · simp only [hfirst, hsecond, map, Pass.map, session, and_self]
  · simp only [hfirst, hsecond, map, Pass.map, session, and_self]

theorem length_of_isTooDeep {packages : Chain π} {text : String} {document : Document π} {failure : Failure}
    (h : (withPackages settings packages text).read = (.error failure, document))
    (hdeep : failure.IsTooDeep) : 2 * (settings.maxNesting + 1) ≤ text.length := by
  obtain ⟨trail, htrail⟩ := trail_of_fails rfl
    (fun inner session session' cause hinner => trail_of_nestedProse hinner) (fails_of_read h)
  exact htrail.length_of_isTooDeep hdeep

end Document

/-- The number of levels is only a limit. A document that does not lie too deep comes to the same with more
levels: it has the same segments or fails in the same way at the same places, it leaves its packages and its
notices the same, and it puts the same questions. With half as many levels as characters it never lies too
deep. -/
theorem read_eq_of_levels_le (settings : Settings) (packages : Chain π) (text : String) :
    (∀ levels more, levels ≤ more →
      let few := { settings with maxNesting := levels }
      let many := { settings with maxNesting := more }
      let first := (Document.withPackages few packages text).read
      let second := (Document.withPackages many packages text).read
      (∀ failure, first.1 = .error failure → ¬ failure.IsTooDeep) →
        second.1 = first.1 ∧ second.2.map = first.2.map ∧ second.2.session = first.2.session ∧
          Document.questions many packages text = Document.questions few packages text) ∧
      (text.length ≤ 2 * settings.maxNesting →
        ∀ failure, (Document.withPackages settings packages text).read.1 = .error failure →
          ¬ failure.IsTooDeep) := by
  constructor
  · intro levels more hle few many first second hread
    have hpairs (c : Char) : pairedQuote? many c = pairedQuote? few c := rfl
    have havoids := Document.avoids_scan hread
    have hnested := extends_nestedProse (π := π) hpairs hle
    have hscan := (extends_tagger hpairs hnested).scan Failure.IsTooDeep.within _ _ havoids
    obtain ⟨hresult, hmap, hsession⟩ := Document.read_of_outcome_eq hscan
    refine ⟨hresult, hmap, hsession, ?_⟩
    exact questionsOf_of_avoids hpairs hnested Failure.IsTooDeep.within (questions_of_avoids hpairs hle) havoids
  · intro hlength failure hfailure hdeep
    have hlong := Document.length_of_isTooDeep (Prod.ext hfailure rfl) hdeep
    omega

theorem read_eq_of_levels_le_unclosed :
    let few : Settings := { maxNesting := 1 }
    let many : Settings := { maxNesting := 5 }
    let first := (Document.withPackages few (Chain.bundled {}) "\\a\x7bb\x7d\x7b\x7b").read
    let second := (Document.withPackages many (Chain.bundled {}) "\\a\x7bb\x7d\x7b\x7b").read
    first.1.mapError Failure.root = .error (.unclosed '}') ∧ second.1 = first.1 ∧
      second.2.map = first.2.map ∧ second.2.session = first.2.session ∧
      Document.questions many (Chain.bundled {}) "\\a\x7bb\x7d\x7b\x7b" =
        Document.questions few (Chain.bundled {}) "\\a\x7bb\x7d\x7b\x7b" ∧
      ∀ failure, second.1 = .error failure → ¬ failure.IsTooDeep := by
  intro few many first second
  have hroot : first.1.mapError Failure.root = .error (.unclosed '}') := by decide +kernel
  have hshallow : ∀ failure, first.1 = .error failure → ¬ failure.IsTooDeep := by
    rintro failure hfailure ⟨levels, hdeep⟩
    rw [hfailure] at hroot
    cases hdeep.symm.trans (Except.error.inj hroot)
  obtain ⟨hlimit, -⟩ := read_eq_of_levels_le few (Chain.bundled {}) "\\a\x7bb\x7d\x7b\x7b"
  obtain ⟨-, hlength⟩ := read_eq_of_levels_le many (Chain.bundled {}) "\\a\x7bb\x7d\x7b\x7b"
  obtain ⟨hresult, hmap, hsession, hquestions⟩ := hlimit 1 5 (by decide) hshallow
  exact ⟨hroot, hresult, hmap, hsession, hquestions, hlength (by decide)⟩

end Latex
end TexProse
