import TexProse.Latex.Document
import TexProse.Proofs.Bracket.Depth
import TexProse.Proofs.Tagging.Scan

/-!
# Moves of a reading

`Move` lists what one character can do to a reading, and `Stumble` how it can fail: only where a bracket
closes the outermost argument or group, and only as the nested text fails. Whatever holds of a reading is
proved of these cases, and nothing else opens the rules.
-/

namespace TexProse.Latex
variable {π : Type}

theorem outcome_inSession {α : Type} (action : Action (Session π) α) (reading : Reading π) :
    (inSession action).outcome reading =
      ((action.outcome reading.session).1,
        { reading with session := (action.outcome reading.session).2 }) := rfl

variable [Package π] {settings : Settings} {nested : Nested π} {here : Cursor}

/-- What the current character can do to a reading. -/
inductive Move (settings : Settings) (nested : Nested π) (here : Cursor) (reading : Reading π) :
    Step π → Prop
  | text (hmode : reading.mode = .text) : Move settings nested here reading (textRule here reading)
  | blank {start : Nat} (hmode : reading.mode = .space start) (hc : isBlank here.char = true) :
      Move settings nested here reading (Step.edit [] reading)
  | endSpace {start : Nat} (hmode : reading.mode = .space start) (hc : isBlank here.char = false) :
      Move settings nested here reading (backToText here (closeSpace here start here.offset reading))
  | remark (hmode : reading.mode = .comment) (hc : isLineBreak here.char = false) :
      Move settings nested here reading (Step.edit [] reading)
  | endComment (hmode : reading.mode = .comment) (hc : isLineBreak here.char = true) :
      Move settings nested here reading (Step.into (.space here.offset) [.tagHere .space] reading)
  | pair {mark : String} (hmode : reading.mode = .quote)
      (hmark : pairedQuote? settings here.char = some mark) :
      Move settings nested here reading
        ((Step.emit mark reading).andThen (Step.into .text [.tagNext .text]))
  | straight {notice : Notice} (hmode : reading.mode = .quote)
      (hmark : pairedQuote? settings here.char = none)
      (hnotice : notice =
        if isLetter here.char then .bareQuote here.location
        else .unknownQuote here.location here.char) :
      Move settings nested here reading (backToText here ([.append "\""], reading.notify notice))
  | nameChar {start : Nat} (hmode : reading.mode = .name start)
      (hc : (if here.offset - start ≤ 1 then isLetter here.char else isNameChar here.char) = true) :
      Move settings nested here reading (Step.edit [] reading)
  | escape {start : Nat} (hmode : reading.mode = .name start) (hshort : here.offset - start ≤ 1)
      (hc : isLetter here.char = false) :
      Move settings nested here reading
        ((Step.resolve { name := here.source.slice start (here.offset + 1) } reading).andThen
          (Step.into .text [.tagNext .text]))
  | openArgument {start : Nat} {bracket : Bracket} (hmode : reading.mode = .name start)
      (hlong : ¬ here.offset - start ≤ 1) (hc : isNameChar here.char = false)
      (hbracket : Bracket.ofArgument? here.char = some bracket) :
      Move settings nested here reading
        (Step.into (.argument { name := here.textSince start } bracket (here.offset + 1) 0)
          [.tagNext .argument] reading)
  | nameSpace {start : Nat} (hmode : reading.mode = .name start) (hlong : ¬ here.offset - start ≤ 1)
      (hc : isNameChar here.char = false) (hbracket : Bracket.ofArgument? here.char = none)
      (hblank : isBlank here.char = true) :
      Move settings nested here reading
        ((Step.resolve { name := here.textSince start } reading).andThen
          (Step.into (.space here.offset) [.tagHere .space]))
  | endName {start : Nat} (hmode : reading.mode = .name start) (hlong : ¬ here.offset - start ≤ 1)
      (hc : isNameChar here.char = false) (hbracket : Bracket.ofArgument? here.char = none)
      (hblank : isBlank here.char = false) :
      Move settings nested here reading
        (backToText here (Step.resolve { name := here.textSince start } reading))
  | reopening {command : Command} {bracket : Bracket} (hmode : reading.mode = .reopening command bracket) :
      Move settings nested here reading
        (Step.into (.argument command bracket (here.offset + 1) 0) [.tagNext .argument] reading)
  | inArgument {command : Command} {bracket : Bracket} {start depth depth' : Nat}
      (hmode : reading.mode = .argument command bracket start depth)
      (hdepth : bracket.depthAfter depth [here.char] = some depth') :
      Move settings nested here reading
        (Step.into (.argument command bracket start depth') [] reading)
  | nextArgument {command : Command} {bracket bracket' : Bracket} {start : Nat} {argument : String}
      {session : Session π} (hmode : reading.mode = .argument command bracket start 0)
      (hchar : here.char = bracket.closing)
      (hnested : (nested (here.textSince start)).outcome reading.session = (.ok argument, session))
      (hnext : here.next?.bind Bracket.ofArgument? = some bracket') :
      Move settings nested here reading
        (Step.into (.reopening { command with arguments := command.arguments ++ [argument] } bracket')
          [.tagHere .command] { reading with session := session })
  | lastArgument {command : Command} {bracket : Bracket} {start : Nat} {argument : String}
      {session : Session π} (hmode : reading.mode = .argument command bracket start 0)
      (hchar : here.char = bracket.closing)
      (hnested : (nested (here.textSince start)).outcome reading.session = (.ok argument, session))
      (hnext : here.next?.bind Bracket.ofArgument? = none) :
      Move settings nested here reading
        (closeArgument here { command with arguments := command.arguments ++ [argument] }
          (here.offset = start) { reading with session := session })
  | inGroup {start depth depth' : Nat} (hmode : reading.mode = .group start depth)
      (hdepth : Bracket.curly.depthAfter depth [here.char] = some depth') :
      Move settings nested here reading (Step.into (.group start depth') [] reading)
  | endGroup {start : Nat} {prose : String} {session : Session π}
      (hmode : reading.mode = .group start 0) (hchar : here.char = '}')
      (hnested : (nested (here.textSince (start + 1))).outcome reading.session = (.ok prose, session)) :
      Move settings nested here reading
        ((Step.emit prose { reading with session := session }).andThen
          (Step.into .text [.tagNext .text]))

/-- How the current character can fail. -/
inductive Stumble (nested : Nested π) (here : Cursor) (reading : Reading π) :
    Failure → Reading π → Prop
  | argument {command : Command} {bracket : Bracket} {start : Nat} {failure : Failure}
      {session : Session π} (hmode : reading.mode = .argument command bracket start 0)
      (hchar : here.char = bracket.closing)
      (hnested : (nested (here.textSince start)).outcome reading.session = (.error failure, session)) :
      Stumble nested here reading failure { reading with session := session }
  | group {start : Nat} {failure : Failure} {session : Session π}
      (hmode : reading.mode = .group start 0) (hchar : here.char = '}')
      (hnested : (nested (here.textSince (start + 1))).outcome reading.session =
        (.error failure, session)) :
      Stumble nested here reading failure { reading with session := session }

omit [Package π] in
theorem outcome_groupRule_close {start : Nat} {reading : Reading π} (hchar : here.char = '}') :
    (groupRule nested here start 0).outcome reading =
      match (nested (here.textSince (start + 1))).outcome reading.session with
      | (.ok prose, session) =>
        let step := (Step.emit prose { reading with session := session }).andThen
          (Step.into .text [.tagNext .text])
        (.ok step.1, step.2)
      | (.error failure, session) => (.error failure, { reading with session := session }) := by
  rw [groupRule]
  rw [if_pos hchar]
  simp only [Action.outcome_bind, outcome_inSession]
  rcases (nested (here.textSince (start + 1))).outcome reading.session with ⟨_ | _, _⟩ <;> rfl

theorem outcome_argumentRule_close {command : Command} {bracket : Bracket} {start : Nat}
    {reading : Reading π} (hchar : here.char = bracket.closing) :
    (argumentRule nested here command bracket start 0).outcome reading =
      match (nested (here.textSince start)).outcome reading.session with
      | (.ok argument, session) =>
        let step := closeArgument here { command with arguments := command.arguments ++ [argument] }
          (here.offset = start) { reading with session := session }
        (.ok step.1, step.2)
      | (.error failure, session) => (.error failure, { reading with session := session }) := by
  rw [argumentRule]
  rw [if_pos hchar]
  simp only [Action.outcome_bind, outcome_inSession]
  rcases (nested (here.textSince start)).outcome reading.session with ⟨_ | _, _⟩ <;> rfl

omit [Package π] in
/-- Away from the bracket that closes it, a group only counts its brackets. -/
theorem outcome_groupRule_inside {start depth depth' : Nat} {reading : Reading π}
    (hmode : reading.mode = .group start depth)
    (hdepth : Bracket.curly.depthAfter depth [here.char] = some depth') :
    (groupRule nested here start depth).outcome reading =
      (.ok [], reading.enter (.group start depth')) := by
  have hsame : reading.enter (.group start depth) = reading := by rw [← hmode]; rfl
  unfold Bracket.depthAfter at hdepth
  unfold groupRule
  split at hdepth
  next hclosing =>
    rw [if_pos (show here.char = '}' from hclosing)]
    cases depth with
    | zero => cases hdepth
    | succ depth => cases hdepth; rfl
  next hclosing =>
    rw [if_neg (show ¬ here.char = '}' from hclosing)]
    split at hdepth
    next hopening => rw [if_pos (show here.char = '{' from hopening)]; cases hdepth; rfl
    next hopening =>
      rw [if_neg (show ¬ here.char = '{' from hopening)]
      obtain rfl : depth = depth' := Option.some.inj hdepth
      rw [hsame]
      rfl

theorem outcome_argumentRule_inside {command : Command} {bracket : Bracket}
    {start depth depth' : Nat} {reading : Reading π}
    (hmode : reading.mode = .argument command bracket start depth)
    (hdepth : bracket.depthAfter depth [here.char] = some depth') :
    (argumentRule nested here command bracket start depth).outcome reading =
      (.ok [], reading.enter (.argument command bracket start depth')) := by
  have hsame : reading.enter (.argument command bracket start depth) = reading := by rw [← hmode]; rfl
  unfold Bracket.depthAfter at hdepth
  unfold argumentRule
  split at hdepth
  next hclosing =>
    rw [if_pos hclosing]
    cases depth with
    | zero => cases hdepth
    | succ depth => cases hdepth; rfl
  next hclosing =>
    rw [if_neg hclosing]
    split at hdepth
    next hopening => rw [if_pos hopening]; cases hdepth; rfl
    next hopening =>
      rw [if_neg hopening]
      obtain rfl : depth = depth' := Option.some.inj hdepth
      rw [hsame]
      rfl

theorem outcome_onChar (settings : Settings) (nested : Nested π) (window : Window Tag)
    (reading : Reading π) :
    (onChar settings nested window).outcome reading =
      match reading.mode with
      | .argument command bracket start depth =>
        (argumentRule nested window.toCursor command bracket start depth).outcome reading
      | .group start depth => (groupRule nested window.toCursor start depth).outcome reading
      | .text => let step := textRule window.toCursor reading; (.ok step.1, step.2)
      | .space start => let step := spaceRule window.toCursor start reading; (.ok step.1, step.2)
      | .comment => let step := commentRule window.toCursor reading; (.ok step.1, step.2)
      | .quote => let step := quoteRule settings window.toCursor reading; (.ok step.1, step.2)
      | .name start => let step := nameRule window.toCursor start reading; (.ok step.1, step.2)
      | .reopening command bracket =>
        let step := reopeningRule window.toCursor command bracket reading
        (.ok step.1, step.2) := by
  obtain ⟨mode, spaced, session⟩ := reading
  cases mode <;> rfl

section Rules
variable {reading : Reading π} {start : Nat}

theorem move_spaceRule (hmode : reading.mode = .space start) :
    Move settings nested here reading (spaceRule here start reading) := by
  rw [spaceRule]
  split
  next hc => exact .blank hmode hc
  next hc => exact .endSpace hmode (Bool.eq_false_iff.mpr hc)

theorem move_commentRule (hmode : reading.mode = .comment) :
    Move settings nested here reading (commentRule here reading) := by
  rw [commentRule]
  split
  next hc => exact .endComment hmode hc
  next hc => exact .remark hmode (Bool.eq_false_iff.mpr hc)

theorem move_quoteRule (hmode : reading.mode = .quote) :
    Move settings nested here reading (quoteRule settings here reading) := by
  rw [quoteRule]
  split
  next mark hmark => exact .pair hmode hmark
  next hmark => exact .straight hmode hmark rfl

theorem move_nameRule (hmode : reading.mode = .name start) :
    Move settings nested here reading (nameRule here start reading) := by
  rw [nameRule]
  dsimp only
  split
  next hshort =>
    split
    next hc => exact .nameChar hmode (by rwa [if_pos hshort])
    next hc => exact .escape hmode hshort (Bool.eq_false_iff.mpr hc)
  next hlong =>
    split
    next hc => exact .nameChar hmode (by rwa [if_neg hlong])
    next hc =>
      replace hc := Bool.eq_false_iff.mpr hc
      split
      next bracket hbracket => exact .openArgument hmode hlong hc hbracket
      next hbracket =>
        split
        next hblank => exact .nameSpace hmode hlong hc hbracket hblank
        next hblank => exact .endName hmode hlong hc hbracket (Bool.eq_false_iff.mpr hblank)

theorem move_closeArgument {command : Command} {bracket : Bracket} {argument : String} {session : Session π}
    (hmode : reading.mode = .argument command bracket start 0) (hchar : here.char = bracket.closing)
    (hnested : (nested (here.textSince start)).outcome reading.session = (.ok argument, session)) :
    Move settings nested here reading
      (closeArgument here { command with arguments := command.arguments ++ [argument] }
        (here.offset = start) { reading with session := session }) := by
  cases hnext : here.next?.bind Bracket.ofArgument? with
  | none => exact .lastArgument hmode hchar hnested hnext
  | some bracket' =>
      have hmove := @Move.nextArgument _ _ settings nested here reading _ _ _ _ _ _ hmode hchar hnested hnext
      simpa only [closeArgument, hnext] using hmove

end Rules

/-- A character either stays inside the brackets of its kind or closes the outermost. -/
theorem depthAfter_char_cases (bracket : Bracket) (depth : Nat) (c : Char) :
    (∃ depth', bracket.depthAfter depth [c] = some depth') ∨ (depth = 0 ∧ c = bracket.closing) := by
  unfold Bracket.depthAfter
  by_cases hclosing : c = bracket.closing
  · cases depth with
    | zero => exact .inr ⟨rfl, hclosing⟩
    | succ depth => exact .inl ⟨depth, by simp [hclosing]⟩
  · rw [if_neg hclosing]
    split
    · exact .inl ⟨_, rfl⟩
    · exact .inl ⟨_, rfl⟩

/-- A character makes a move or a reading stumbles. -/
theorem outcome_cases (settings : Settings) (nested : Nested π) (window : Window Tag)
    (reading : Reading π) :
    (∃ step, Move settings nested window.toCursor reading step ∧
      (onChar settings nested window).outcome reading = (.ok step.1, step.2)) ∨
    ∃ failure reading', Stumble nested window.toCursor reading failure reading' ∧
      (onChar settings nested window).outcome reading = (.error failure, reading') := by
  rw [outcome_onChar]
  cases hmode : reading.mode with
  | argument command bracket start depth =>
      rcases depthAfter_char_cases bracket depth window.toCursor.char with ⟨depth', hdepth⟩ | ⟨rfl, hchar⟩
      · exact .inl ⟨_, .inArgument hmode hdepth, outcome_argumentRule_inside hmode hdepth⟩
      · simp only [outcome_argumentRule_close hchar]
        rcases hnested : (nested (window.toCursor.textSince start)).outcome reading.session with
          ⟨failure | argument, session⟩
        · exact .inr ⟨failure, _, .argument hmode hchar hnested, rfl⟩
        · exact .inl ⟨_, move_closeArgument hmode hchar hnested, rfl⟩
  | group start depth =>
      rcases depthAfter_char_cases .curly depth window.toCursor.char with ⟨depth', hdepth⟩ | ⟨rfl, hchar⟩
      · exact .inl ⟨_, .inGroup hmode hdepth, outcome_groupRule_inside hmode hdepth⟩
      · simp only [outcome_groupRule_close hchar]
        rcases hnested : (nested (window.toCursor.textSince (start + 1))).outcome reading.session with
          ⟨failure | prose, session⟩
        · exact .inr ⟨failure, _, .group hmode hchar hnested, rfl⟩
        · exact .inl ⟨_, .endGroup hmode hchar hnested, rfl⟩
  | text => exact .inl ⟨_, .text hmode, rfl⟩
  | space start => exact .inl ⟨_, move_spaceRule hmode, rfl⟩
  | comment => exact .inl ⟨_, move_commentRule hmode, rfl⟩
  | quote => exact .inl ⟨_, move_quoteRule hmode, rfl⟩
  | name start => exact .inl ⟨_, move_nameRule hmode, rfl⟩
  | reopening command bracket => exact .inl ⟨_, .reopening hmode, rfl⟩

theorem move_of_outcome {window : Window Tag} {reading reading' : Reading π} {edits : List (Edit Tag)}
    (h : (onChar settings nested window).outcome reading = (.ok edits, reading')) :
    Move settings nested window.toCursor reading (edits, reading') := by
  rcases outcome_cases settings nested window reading with
    ⟨step, hmove, hstep⟩ | ⟨failure, after, -, hfailure⟩
  · cases hstep.symm.trans h
    exact hmove
  · cases hfailure.symm.trans h

theorem stumble_of_outcome {window : Window Tag} {reading reading' : Reading π} {failure : Failure}
    (h : (onChar settings nested window).outcome reading = (.error failure, reading')) :
    Stumble nested window.toCursor reading failure reading' := by
  rcases outcome_cases settings nested window reading with
    ⟨step, -, hstep⟩ | ⟨failure, after, hstumble, hfailure⟩
  · cases hstep.symm.trans h
  · cases hfailure.symm.trans h
    exact hstumble

/-- Every move is made. -/
theorem Move.outcome {window : Window Tag} {reading : Reading π} {step : Step π}
    (h : Move settings nested window.toCursor reading step) :
    (onChar settings nested window).outcome reading = (.ok step.1, step.2) := by
  rw [outcome_onChar]
  cases h with
  | text hmode => simp only [hmode]
  | blank hmode hc => simp only [hmode, spaceRule, hc, if_true]
  | endSpace hmode hc => simp [hmode, spaceRule, hc]
  | remark hmode hc => simp [hmode, commentRule, hc]
  | endComment hmode hc => simp only [hmode, commentRule, hc, if_true]
  | pair hmode hmark => simp only [hmode, quoteRule, hmark]
  | straight hmode hmark hnotice => simp only [hmode, quoteRule, hmark, hnotice]
  | nameChar hmode hc =>
      simp only [hmode, nameRule]
      split at hc <;> simp [*]
  | escape hmode hshort hc => simp [hmode, nameRule, hshort, hc, resolveAlone]
  | openArgument hmode hlong hc hbracket => simp [hmode, nameRule, hlong, hc, hbracket]
  | nameSpace hmode hlong hc hbracket hblank =>
      simp [hmode, nameRule, hlong, hc, hbracket, hblank, resolveAlone]
  | endName hmode hlong hc hbracket hblank =>
      simp [hmode, nameRule, hlong, hc, hbracket, hblank, resolveAlone]
  | reopening hmode => simp only [hmode, reopeningRule]
  | inArgument hmode hdepth =>
      simp only [hmode]
      exact outcome_argumentRule_inside hmode hdepth
  | nextArgument hmode hchar hnested hnext =>
      simp only [hmode, outcome_argumentRule_close hchar, hnested, closeArgument, hnext]
  | lastArgument hmode hchar hnested hnext =>
      simp only [hmode, outcome_argumentRule_close hchar, hnested]
  | inGroup hmode hdepth =>
      simp only [hmode]
      exact outcome_groupRule_inside hmode hdepth
  | endGroup hmode hchar hnested => simp only [hmode, outcome_groupRule_close hchar, hnested]

/-- Every stumble fails. -/
theorem Stumble.outcome {window : Window Tag} {reading reading' : Reading π} {failure : Failure}
    (h : Stumble nested window.toCursor reading failure reading') :
    (onChar settings nested window).outcome reading = (.error failure, reading') := by
  rw [outcome_onChar]
  cases h with
  | argument hmode hchar hnested => simp only [hmode, outcome_argumentRule_close hchar, hnested]
  | group hmode hchar hnested => simp only [hmode, outcome_groupRule_close hchar, hnested]

section Forward
variable {source : Source} {initial reading : Reading π} {ribbon : Ribbon Tag} {count : Nat}
variable (hreach : (tagger settings nested).Reaches source initial count ribbon reading)
include hreach

theorem Reaches.move {step : Step π} (hcount : count < source.length)
    (hmove : Move settings nested ⟨source, count⟩ reading step) :
    (tagger settings nested).Reaches source initial (count + 1)
      (ribbon.lay step.1 (Cursor.char ⟨source, count⟩)) step.2 := by
  obtain ⟨segments, hlist⟩ := Tagger.exists_segments hreach.isSolid
  have hedits := @Move.outcome _ _ _ _ ⟨⟨source, count⟩, segments⟩ _ _ hmove
  exact .step hreach hcount rfl hlist hedits

theorem Reaches.stumble {reading' : Reading π} {failure : Failure} (hcount : count < source.length)
    (hstumble : Stumble nested ⟨source, count⟩ reading failure reading') :
    (tagger settings nested).Fails source initial (.within (source.location count) failure) reading' := by
  obtain ⟨segments, hlist⟩ := Tagger.exists_segments hreach.isSolid
  have hcause := @Stumble.outcome _ _ settings _ ⟨⟨source, count⟩, segments⟩ _ _ _ hstumble
  exact .step hreach hcount rfl hlist hcause

end Forward

end TexProse.Latex
