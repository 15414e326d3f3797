import TexProse.Proofs.Bracket.Groups
import TexProse.Proofs.Latex.Speech

/-!
# Which texts without commands and comments are read

Without a backslash and a percent sign only curly brackets matter. A reading is in a group exactly where
one is open, and each group that it closes was read one level further down. So it fails at the first
outermost group that is too deep, or else at the end if a group is open there. Main statement:
`read_isOk_iff_of_isUnmarked`.
-/

namespace TexProse

namespace Latex

/-- A text that begins no command and no comment. -/
def IsUnmarked (text : List Char) : Prop := '\\' ∉ text ∧ '%' ∉ text

theorem IsUnmarked.inside {text before inside : List Char} {count : Nat} {c : Char} (h : IsUnmarked text)
    (hread : text.take count = before ++ c :: inside) : IsUnmarked inside := by
  have hpart : ∀ c' ∈ inside, c' ∈ text := by
    intro c' hc'
    apply List.mem_of_mem_take
    rw [hread]
    exact List.mem_append_right before (List.mem_cons_of_mem c hc')
  exact ⟨fun hmem => h.1 (hpart _ hmem), fun hmem => h.2 (hpart _ hmem)⟩

/-- How many groups are open behind a text. -/
abbrev openGroups (text : List Char) : Nat := Bracket.openDepth [.curly] text

/-- How deep groups are nested in a text. -/
abbrev groupNesting (text : List Char) : Nat := Bracket.nesting [.curly] text

/-- What a mode says of the groups in an unmarked text that was read. -/
def Mode.Groups (read : List Char) : Mode → Prop
  | .text | .space _ | .quote => openGroups read = 0
  | .group start depth => ∃ before inside, read = before ++ '{' :: inside ∧ start = before.length ∧
      openGroups before = 0 ∧ Bracket.curly.depthAfter 0 inside = some depth
  | .comment | .name _ | .argument _ _ _ _ | .reopening _ _ => False

theorem openGroups_concat {read : List Char} {c : Char} (hread : openGroups read = 0) (hc : c ≠ '{') :
    openGroups (read ++ [c]) = 0 := by
  have hdepth : Bracket.openDepth [.curly] read = 0 := hread
  rw [openGroups, Bracket.openDepth_append, hdepth]
  exact Bracket.level_zero hc

theorem Mode.groups_ofChar {read : List Char} {c : Char} (hread : openGroups read = 0) (hname : c ≠ '\\')
    (hcomment : c ≠ '%') : (Mode.ofChar read.length c).Groups (read ++ [c]) := by
  rw [Mode.ofChar]
  split_ifs with hblank hquote hgroup
  · apply openGroups_concat hread
    rintro rfl
    exact absurd hblank (by decide)
  · apply openGroups_concat hread
    rintro rfl
    exact absurd hquote (by decide)
  · exact ⟨read, [], by rw [hgroup], rfl, hread, rfl⟩
  · exact openGroups_concat hread hgroup

/-- A group stands open at its first bracket and at those inside it that are open. -/
theorem Mode.Groups.eq_group {read before inside : List Char} {mode : Mode} (h : mode.Groups read)
    (hread : read = before ++ '{' :: inside) (hbefore : openGroups before = 0)
    (hinside : Bracket.curly.IsBalanced inside) : mode = .group before.length 0 := by
  have hopen : openGroups read = 1 := hread ▸ Bracket.openDepth_opening hbefore hinside
  cases mode with
  | group start depth =>
      obtain ⟨before', inside', hread', rfl, hbefore', hinside'⟩ := h
      have hdepth : openGroups read = depth + 1 := hread' ▸ Bracket.openDepth_opening hbefore' hinside'
      obtain rfl : depth = 0 := by omega
      have hsplit := hread.symm.trans hread'
      obtain rfl : inside = inside' := Bracket.eq_of_isBalanced hinside hinside' hsplit
      rw [List.append_cancel_right hsplit]
  | text => cases hopen.symm.trans h
  | space start => cases hopen.symm.trans h
  | quote => cases hopen.symm.trans h
  | comment => exact h.elim
  | name start => exact h.elim
  | argument command bracket start depth => exact h.elim
  | reopening command bracket => exact h.elim

variable {π : Type} [Package π] {settings : Settings} {nested : Nested π}

section Step
variable {here : Cursor} {read : List Char} {reading : Reading π} {step : Step π}

/-- Every move keeps count of the groups. -/
theorem Move.groups (h : Move settings nested here reading step) (hlength : read.length = here.offset)
    (hname : here.char ≠ '\\') (hcomment : here.char ≠ '%') (hgroups : reading.mode.Groups read) :
    step.2.mode.Groups (read ++ [here.char]) := by
  have htext : ∀ reading : Reading π, openGroups read = 0 →
      (textRule here reading).2.mode.Groups (read ++ [here.char]) := by
    intro reading hread
    rw [mode_textRule, ← hlength]
    exact Mode.groups_ofChar hread hname hcomment
  cases h with
  | text hmode =>
      rw [hmode] at hgroups
      exact htext _ hgroups
  | blank hmode hc =>
      rw [hmode] at hgroups
      rw [Step.edit, hmode]
      apply openGroups_concat hgroups
      intro hopening
      rw [hopening] at hc
      cases hc
  | endSpace hmode hc =>
      rw [hmode] at hgroups
      exact htext _ hgroups
  | pair hmode hmark =>
      rw [hmode] at hgroups
      apply openGroups_concat hgroups
      intro hopening
      rw [hopening] at hmark
      cases hmark
  | straight hmode hmark hnotice =>
      rw [hmode] at hgroups
      exact htext _ hgroups
  | inGroup hmode hdepth =>
      rw [hmode] at hgroups
      obtain ⟨before, inside, rfl, hstart, hbefore, hinside⟩ := hgroups
      refine ⟨before, inside ++ [here.char], ?_, hstart, hbefore, ?_⟩
      · rw [List.append_assoc, List.cons_append]
      · exact (Bracket.depthAfter_concat _ hinside).trans hdepth
  | endGroup hmode hchar hnested =>
      rw [hmode] at hgroups
      obtain ⟨before, inside, rfl, hstart, hbefore, hinside⟩ := hgroups
      have hopen : Bracket.openDepth [.curly] (before ++ '{' :: inside) = 0 + 1 :=
        Bracket.openDepth_opening hbefore hinside
      change Bracket.openDepth _ _ = 0
      rw [Bracket.openDepth_append, hopen, hchar]
      exact Bracket.level_closing (List.mem_singleton_self Bracket.curly) 1
  | _ => simp_all [Mode.Groups]

/-- A bracket that closes an outermost group closes it in the reading, too. -/
theorem Move.exists_nested {before inside : List Char} (h : Move settings nested here reading step)
    (hmode : reading.mode = .group before.length 0) (hchar : here.char = '}')
    (hread : here.source.chars.toList.take here.offset = before ++ '{' :: inside) :
    ∃ prose session, (nested (String.ofList inside)).outcome reading.session = (.ok prose, session) := by
  have htext := Cursor.textSince_of_take hread
  have hstep := @Move.outcome _ _ _ _ ⟨here, .single .text⟩ _ _ h
  rw [outcome_onChar, hmode] at hstep
  simp only [outcome_groupRule_close hchar, htext] at hstep
  rcases hnested : (nested (String.ofList inside)).outcome reading.session with
    ⟨failure | prose, session⟩
  · rw [hnested] at hstep
    cases hstep
  · exact ⟨prose, session, rfl⟩

end Step

/-- Balanced unmarked texts are read if they are nested less deep than `levels`, and are too deep
otherwise. -/
structure Measures (settings : Settings) (nested : Nested π) (levels : Nat) : Prop where
  shallow : ∀ {inner : List Char} {session session' : Session π} {prose : String}, IsUnmarked inner →
    Bracket.curly.IsBalanced inner →
      (nested (String.ofList inner)).outcome session = (.ok prose, session') → groupNesting inner < levels
  deep : ∀ {inner : List Char} {session session' : Session π} {failure : Failure}, IsUnmarked inner →
    Bracket.curly.IsBalanced inner →
      (nested (String.ofList inner)).outcome session = (.error failure, session') →
        failure.root = .tooDeep settings.maxNesting ∧ levels ≤ groupNesting inner

/-- No outermost group of a text is nested deeper than `levels`. -/
def IsShallow (levels : Nat) (text : List Char) : Prop :=
  ∀ group, Bracket.curly.IsOutermost text group → groupNesting group ≤ levels

section Run
variable {levels count : Nat} {source : Source} {initial reading : Reading π} {ribbon : Ribbon Tag}
variable (hnested : Measures settings nested levels) (hsource : IsUnmarked source.chars.toList)
variable (hinitial : initial.mode = .text)
include hnested hsource hinitial

/-- A reading keeps count of the groups, and those behind it were not too deep. -/
theorem Reaches.groups (h : (tagger settings nested).Reaches source initial count ribbon reading) :
    reading.mode.Groups (source.chars.toList.take count) ∧
      IsShallow levels (source.chars.toList.take count) := by
  induction h with
  | start =>
      constructor
      · rw [hinitial]
        rfl
      · rintro group ⟨before, inside, after, htext, rfl, -⟩
        simp at htext
  | @step count ribbon reading reading' window edits before hcount hcursor hlist hedits ih =>
      obtain ⟨hgroups, hshallow⟩ := ih
      have hmove := move_of_outcome hedits
      rw [hcursor] at hmove
      have hchar : Cursor.char ⟨source, count⟩ ∈ source.chars.toList := by
        apply List.mem_of_mem_take
        rw [Source.take_succ hcount]
        exact List.mem_concat_self
      have hlength : (source.chars.toList.take count).length = count :=
        List.length_take_of_le (Nat.le_of_lt hcount)
      rw [Source.take_succ hcount]
      constructor
      · apply hmove.groups hlength _ _ hgroups
        · intro hname
          exact hsource.1 (hname ▸ hchar)
        · intro hcomment
          exact hsource.2 (hcomment ▸ hchar)
      · intro group hgroup
        rcases hgroup.of_concat with
          hearlier | ⟨outside, inside, hclosing, hread, houtside, hinside, rfl⟩
        · exact hshallow group hearlier
        · -- the group that closes here was read one level further down
          have hmode := hgroups.eq_group hread houtside hinside
          obtain ⟨prose, session, hok⟩ := hmove.exists_nested hmode hclosing hread
          have hless := hnested.shallow (hsource.inside hread) hinside hok
          exact (Bracket.nesting_group hinside).trans_le hless

theorem Completes.groups (h : (tagger settings nested).Completes source initial ribbon reading) :
    openGroups source.chars.toList = 0 ∧ IsShallow levels source.chars.toList := by
  cases h with
  | empty hlength =>
      have hnil : source.chars.toList = [] := List.eq_nil_of_length_eq_zero hlength
      rw [hnil]
      constructor
      · rfl
      · rintro group ⟨before, inside, after, htext, rfl, -⟩
        simp at htext
  | @ended ribbon middle _ window edits before hlength hcursor hlist hedits =>
      obtain ⟨hgroups, hshallow⟩ := Reaches.groups hnested hsource hinitial before
      rw [source.take_length] at hgroups hshallow
      refine ⟨?_, hshallow⟩
      change (onEnd window).outcome middle = _ at hedits
      rw [outcome_onEnd] at hedits
      split at hedits <;> cases hedits
      all_goals simp_all [Mode.Groups]

/-- A text fails at a group that is too deep, or at its end in one that is open. -/
theorem Fails.groups {failure : Failure}
    (h : (tagger settings nested).Fails source initial failure reading) :
    (failure.root = .tooDeep settings.maxNesting ∧ ¬ IsShallow levels source.chars.toList) ∨
      (failure = .within (source.location (source.length - 1)) (.unclosed '}') ∧
        0 < openGroups source.chars.toList ∧ IsShallow levels source.chars.toList) := by
  cases h with
  | @step count ribbon middle _ window cause before hcount hcursor hlist hcause =>
      obtain ⟨hgroups, -⟩ := Reaches.groups hnested hsource hinitial before
      have hstumble := stumble_of_outcome hcause
      rw [hcursor] at hstumble
      cases hstumble with
      | argument hmode => simp_all [Mode.Groups]
      | @group start cause session hmode hchar hfailed =>
          rw [hmode] at hgroups
          obtain ⟨outside, inside, hread, rfl, houtside, hinside⟩ := hgroups
          rw [@Cursor.textSince_of_take ⟨source, count⟩ _ _ _ hread] at hfailed
          obtain ⟨hroot, hdeep⟩ := hnested.deep (hsource.inside hread) hinside hfailed
          have hgroup : Bracket.curly.IsOutermost source.chars.toList ('{' :: (inside ++ ['}'])) := by
            refine ⟨outside, inside, source.chars.toList.drop (count + 1), ?_, rfl, houtside, hinside⟩
            have hsplit := Source.eq_take_append hcount
            rw [hread, hchar] at hsplit
            simpa using hsplit
          have hnesting : groupNesting ('{' :: (inside ++ ['}'])) = groupNesting inside + 1 :=
            Bracket.nesting_group hinside
          refine .inl ⟨hroot, fun hshallow => ?_⟩
          have hlimit := hshallow _ hgroup
          omega
  | @ended ribbon middle _ window cause before hlength hcursor hlist hcause =>
      obtain ⟨hgroups, hshallow⟩ := Reaches.groups hnested hsource hinitial before
      rw [source.take_length] at hgroups hshallow
      right
      change (onEnd window).outcome middle = _ at hcause
      rw [outcome_onEnd] at hcause
      split at hcause <;> cases hcause
      · simp_all [Mode.Groups]
      · simp_all [Mode.Groups]
      next hmode =>
        rw [hmode] at hgroups
        obtain ⟨outside, inside, hread, -, houtside, hinside⟩ := hgroups
        have hopen : openGroups source.chars.toList = _ + 1 :=
          hread ▸ Bracket.openDepth_opening houtside hinside
        refine ⟨rfl, ?_, hshallow⟩
        omega

end Run

theorem measures_nestedProse (settings : Settings) (levels : Nat) :
    Measures settings (@nestedProse π _ settings levels) levels := by
  have hchars (inner : List Char) : (Source.ofString (String.ofList inner)).chars.toList = inner := by simp
  induction levels with
  | zero =>
      constructor
      · intro inner session session' prose hunmarked hbalanced hok
        cases hok
      · intro inner session session' failure hunmarked hbalanced hfailed
        cases hfailed
        exact ⟨rfl, Nat.zero_le _⟩
  | succ levels ih =>
      constructor
      · intro inner session session' prose hunmarked hbalanced hok
        rw [nestedProse, outcome_proseBy] at hok
        rcases hscan : ((tagger settings (nestedProse settings levels)).scan
          (.ofString (String.ofList inner))).outcome { session := session } with ⟨_ | segments, reading⟩
        · rw [hscan] at hok
          cases hok
        · obtain ⟨ribbon, hcompletes, -⟩ := Tagger.exists_completes hscan
          obtain ⟨-, hshallow⟩ := Completes.groups ih ((hchars inner).symm ▸ hunmarked) rfl hcompletes
          rw [hchars] at hshallow
          apply Nat.lt_succ_of_le
          apply Nat.le_of_not_lt
          intro hdeep
          obtain ⟨group, hgroup, hlimit⟩ :=
            Bracket.exists_isOutermost (Bracket.isNested_single.mpr hbalanced) hdeep
          exact absurd (hshallow group hgroup) (Nat.not_le.mpr hlimit)
      · intro inner session session' failure hunmarked hbalanced hfailed
        obtain ⟨reading, hfails, -⟩ := outcome_proseBy_error hfailed
        have hcases := Fails.groups ih ((hchars inner).symm ▸ hunmarked) rfl hfails
        rw [hchars] at hcases
        rcases hcases with ⟨hroot, hdeep⟩ | ⟨-, hopen, -⟩
        · refine ⟨hroot, Nat.succ_le_of_lt (Nat.lt_of_not_le fun hle => hdeep fun group hgroup => ?_)⟩
          exact Nat.le_trans hgroup.nesting_le hle
        · have hclosed : openGroups inner = 0 := Bracket.openDepth_of_isBalanced hbalanced
          omega

/-- Without a bracket that opens a group there is none. -/
theorem groups_of_notMem {text : List Char} (h : '{' ∉ text) (levels : Nat) :
    openGroups text = 0 ∧ IsShallow levels text := by
  constructor
  · induction text with
    | nil => rfl
    | cons c rest ih =>
        rw [List.mem_cons, not_or] at h
        obtain ⟨hc, hrest⟩ := h
        have hlevel : Bracket.level [.curly] 0 c = 0 := Bracket.level_zero (Ne.symm hc)
        change rest.foldl _ (Bracket.level [.curly] 0 c) = 0
        rw [hlevel]
        exact ih hrest
  · rintro group ⟨before, inside, after, rfl, rfl, -⟩
    exact absurd (show '{' ∈ _ by simp [Bracket.opening]) h

/-- What a text without commands and comments comes to. -/
theorem read_cases_of_isUnmarked (settings : Settings) (packages : Chain π) {text : String}
    (h : IsUnmarked text.toList) :
    (∃ document, (Document.withPackages settings packages text).read = (.ok (), document) ∧
        openGroups text.toList = 0 ∧ IsShallow settings.maxNesting text.toList) ∨
      (∃ failure document,
        (Document.withPackages settings packages text).read = (.error failure, document) ∧
          failure.root = .tooDeep settings.maxNesting ∧
          ¬ IsShallow settings.maxNesting text.toList) ∨
      ∃ document, (Document.withPackages settings packages text).read =
          (.error (.within ((Source.ofString text).location (text.length - 1)) (.unclosed '}')),
            document) ∧
        0 < openGroups text.toList ∧ IsShallow settings.maxNesting text.toList := by
  have hmeasures := @measures_nestedProse π _ settings settings.maxNesting
  rw [Document.read_withPackages]
  rcases hscan : ((documentTagger settings).scan (.ofString text)).outcome
    { session := { packages := packages } } with ⟨cause | segments, reading⟩
  · have hcases := Fails.groups hmeasures h rfl (Tagger.fails_of_scan hscan)
    rw [Source.length_ofString] at hcases
    rcases hcases with ⟨hroot, hdeep⟩ | ⟨rfl, hopen, hshallow⟩
    · exact .inr (.inl ⟨_, _, rfl, hroot, hdeep⟩)
    · exact .inr (.inr ⟨_, rfl, hopen, hshallow⟩)
  · obtain ⟨ribbon, hcompletes, -⟩ := Tagger.exists_completes hscan
    exact .inl ⟨_, rfl, Completes.groups hmeasures h rfl hcompletes⟩

/-- A text without commands and comments is read exactly if all its groups are closed and no outermost one
is too deep. If one is, that is the failure, and otherwise it is the last character of the text behind which
a bracket is missing. Square brackets, quotation marks and brackets that close nothing fail nowhere. -/
theorem read_isOk_iff_of_isUnmarked {packages : Chain π} {text : String} (h : IsUnmarked text.toList) :
    ((∃ document, (Document.withPackages settings packages text).read = (.ok (), document)) ↔
        openGroups text.toList = 0 ∧ IsShallow settings.maxNesting text.toList) ∧
      (¬ IsShallow settings.maxNesting text.toList →
        ∃ failure document,
          (Document.withPackages settings packages text).read = (.error failure, document) ∧
            failure.root = .tooDeep settings.maxNesting) ∧
      (IsShallow settings.maxNesting text.toList → 0 < openGroups text.toList →
        ∃ document, (Document.withPackages settings packages text).read =
          (.error (.within ((Source.ofString text).location (text.length - 1)) (.unclosed '}')),
            document)) ∧
      ('{' ∉ text.toList →
        ∃ document, (Document.withPackages settings packages text).read = (.ok (), document)) := by
  have hnone := @groups_of_notMem text.toList
  rcases read_cases_of_isUnmarked settings packages h with
    ⟨document, hread, hclosed, hshallow⟩ | ⟨failure, document, hread, hroot, hdeep⟩ |
      ⟨document, hread, hopen, hshallow⟩
  · rw [hread]
    refine ⟨⟨fun _ => ⟨hclosed, hshallow⟩, fun _ => ⟨_, rfl⟩⟩, ?_, ?_, fun _ => ⟨_, rfl⟩⟩
    · intro hdeep
      exact absurd hshallow hdeep
    · intro _ hopen
      exact absurd hclosed (Nat.ne_of_gt hopen)
  · rw [hread]
    refine ⟨⟨?_, ?_⟩, fun _ => ⟨_, _, rfl, hroot⟩, ?_, ?_⟩
    · rintro ⟨document, ⟨⟩⟩
    · rintro ⟨-, hshallow⟩
      exact absurd hshallow hdeep
    · intro hshallow
      exact absurd hshallow hdeep
    · intro hmem
      exact absurd (hnone hmem _).2 hdeep
  · rw [hread]
    refine ⟨⟨?_, ?_⟩, ?_, fun _ _ => ⟨_, rfl⟩, ?_⟩
    · rintro ⟨document, ⟨⟩⟩
    · rintro ⟨hclosed, -⟩
      exact absurd hclosed (Nat.ne_of_gt hopen)
    · intro hdeep
      exact absurd hshallow hdeep
    · intro hmem
      exact absurd (hnone hmem settings.maxNesting).1 (Nat.ne_of_gt hopen)

/-- The second group is too deep, which counts before the third that is never closed. -/
theorem read_isOk_iff_of_isUnmarked_deep :
    IsUnmarked "\x7da]\x7bb\x7d \"\x7b[\x7bc\x7d\x7d \x7bd".toList ∧
      ∃ failure document, (Document.withPackages { maxNesting := 1 } (Chain.bundled {})
          "\x7da]\x7bb\x7d \"\x7b[\x7bc\x7d\x7d \x7bd").read = (.error failure, document) ∧
        failure.root = .tooDeep 1 := by
  have hunmarked : IsUnmarked "\x7da]\x7bb\x7d \"\x7b[\x7bc\x7d\x7d \x7bd".toList := by
    constructor <;> decide
  have hdeep : ¬ IsShallow 1 "\x7da]\x7bb\x7d \"\x7b[\x7bc\x7d\x7d \x7bd".toList := by
    intro hshallow
    have hgroup := hshallow "\x7b[\x7bc\x7d\x7d".toList
      ⟨"\x7da]\x7bb\x7d \"".toList, "[\x7bc\x7d".toList, " \x7bd".toList,
        by decide, by decide, by decide, by decide⟩
    exact absurd hgroup (by decide)
  exact ⟨hunmarked, (read_isOk_iff_of_isUnmarked hunmarked).2.1 hdeep⟩

end Latex
end TexProse
