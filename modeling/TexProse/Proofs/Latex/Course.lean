import TexProse.Proofs.Latex.Speech

/-!
# The course of a reading

`Stands` says that a scan has read the first characters of a text, in which mode it is there and what it
has said. One lemma for each thing that the next character can do, forward from one place to the next;
nested texts come in by what they are known to yield.
-/

namespace TexProse

namespace Source
variable {source : Source} {before piece after : List Char} {c : Char}

/-- The character behind the text read so far. -/
theorem char_of_split (h : source.chars.toList = before ++ c :: after) :
    Cursor.char ⟨source, before.length⟩ = c ∧ before.length < source.length := by
  have hchar : source.char? before.length = some c := char?_of_split h 0
  constructor
  · rw [Cursor.char, hchar, Option.getD_some]
  · exact lt_length_of_char? hchar

theorem slice_of_split (h : source.chars.toList = before ++ piece ++ after) {stop : Nat}
    (hstop : stop = before.length + piece.length) :
    source.slice before.length stop = String.ofList piece := by
  rw [← String.toList_inj, toList_slice, h, hstop]
  simp

end Source

namespace Latex
variable {π : Type} [Package π] {settings : Settings} {nested : Nested π}
variable {source : Source} {session : Session π}

/-- The scan of a text stands between what it has read and what is left, in a mode, and has said
a speech. -/
def Stands (settings : Settings) (nested : Nested π) (source : Source) (session : Session π)
    (before after : List Char) (mode : Mode) (speech : Speech π) : Prop :=
  source.chars.toList = before ++ after ∧
    ∃ ribbon reading,
      (tagger settings nested).Reaches source { session := session } before.length ribbon reading ∧
        reading.mode = mode ∧ Says ribbon reading speech

/-- What a nested text is known to yield from the packages as they stand. -/
def Yields (nested : Nested π) (text : String) (packages : Chain π) (prose : String)
    (packages' : Chain π) : Prop :=
  ∀ session : Session π, session.packages = packages →
    ∃ session', (nested text).outcome session = (.ok prose, session') ∧ session'.packages = packages'

theorem stands_start :
    Stands settings nested source session [] source.chars.toList .text { packages := session.packages } := by
  refine ⟨rfl, _, _, .start, rfl, ?_⟩
  exact ⟨by rw [Ribbon.prose, Ribbon.told, Stretch.prose_fresh]; rfl, rfl, rfl⟩

section Move
variable {before after : List Char} {c : Char} {mode mode' : Mode} {speech speech' : Speech π}
variable (h : Stands settings nested source session before (c :: after) mode speech)
include h

/-- Where a scan stands it goes on by any move that it can make there. -/
theorem Stands.move
    (hmove : ∀ ribbon reading, reading.mode = mode →
      ribbon.chars = source.chars.toList.take before.length →
      Fits settings before.length reading.spaced mode ribbon → Says ribbon reading speech →
      ∃ step, Move settings nested ⟨source, before.length⟩ reading step ∧ step.2.mode = mode' ∧
        Says (ribbon.lay step.1 c) step.2 speech') :
    Stands settings nested source session (before ++ [c]) after mode' speech' := by
  obtain ⟨hsource, ribbon, reading, hreach, hmode, hspeech⟩ := h
  obtain ⟨hchar, hcount⟩ := Source.char_of_split hsource
  have hfits := Reaches.fits rfl rfl hreach
  obtain ⟨step, hstep, hmode', hsaid⟩ := hmove ribbon reading hmode hreach.chars (hmode ▸ hfits) hspeech
  have hreach' := Reaches.move hreach hcount hstep
  rw [← List.length_singleton, ← List.length_append, hchar] at hreach'
  exact ⟨hsource.trans (List.append_cons _ _ _), _, _, hreach', hmode', hsaid⟩

theorem Stands.enter (hadmits : mode.admits ⟨source, before.length⟩ = true) :
    Stands settings nested source session (before ++ [c]) after (Mode.ofChar before.length c)
      ((mode.settle ⟨source, before.length⟩ speech).hear before.length c) := by
  obtain ⟨hchar, hcount⟩ := Source.char_of_split h.1
  apply h.move
  intro ribbon reading hmode hread hfits hspeech
  subst hmode
  obtain ⟨step, hstep, hmode', hsaid⟩ := exists_enter hcount hread hfits hadmits hspeech
  rw [hchar] at hmode' hsaid
  exact ⟨step, hstep, hmode', hsaid⟩

end Move

omit [Package π] in
/-- Markup that is complete with the current character. -/
theorem says_andThen_text {step : Step π} {ribbon : Ribbon Tag} {last : Stretch Tag} {rest : Ribbon Tag}
    {speech : Speech π} (hcalm : Edit.IsCalm step.1)
    (hfold : step.1.foldl Ribbon.edit ribbon = last :: rest) (htag : last.tag ≠ .text)
    (h : Says (last :: rest) step.2 speech) (c : Char) :
    Says (ribbon.lay (step.andThen (Step.into .text [.tagNext .text])).1 c)
      (step.andThen (Step.into .text [.tagNext .text])).2 speech := by
  rw [Step.andThen, Step.into, Ribbon.lay_tagNext hcalm, hfold]
  exact ((h.put htag c).beginNext .text).enter .text

/-- The bracket behind the last argument puts the command, whether the argument is empty or not. -/
theorem says_closeArgument {here : Cursor} {reading : Reading π} {last : Stretch Tag}
    {rest : Ribbon Tag} {speech : Speech π} {start : Nat} (htag : last.tag = .argument)
    (hnone : last.rendering = none) (hstart : start + last.chars.length = here.offset)
    (hnext : here.next?.bind Bracket.ofArgument? = none) (h : Says (last :: rest) reading speech)
    (command : Command) (c : Char) :
    (closeArgument here command (here.offset = start) reading).2.mode = .text ∧
      Says (Ribbon.lay (last :: rest) (closeArgument here command (here.offset = start) reading).1 c)
        (closeArgument here command (here.offset = start) reading).2 (speech.ask command) := by
  have hmarkup : last.tag.IsMarkup := htag ▸ trivial
  have hturns (speech : Speech π) : Turns fun ribbon reading => Says ribbon reading speech :=
    fun last rest reading hempty h => h.turn hempty .command
  obtain ⟨step, head, tail, hstep, hcalm, hfold, hhead, hclosed⟩ :=
    exists_closeArgument (hturns speech) (hturns (speech.ask command))
      (fun last rest reading hmarkup h => h.resolve hmarkup.ne.1 command) hmarkup hnone hstart hnext h
  rw [hstep]
  constructor
  · rfl
  · exact says_andThen_text hcalm hfold (by simp [hhead]) hclosed c

section Rules
variable {before after : List Char} {c : Char} {speech : Speech π} {start : Nat}
theorem Stands.blank (h : Stands settings nested source session before (c :: after) (.space start) speech)
    (hc : isBlank c = true) :
    Stands settings nested source session (before ++ [c]) after (.space start) speech := by
  have hchar := (Source.char_of_split h.1).1
  apply h.move
  intro ribbon reading hmode hread hfits hspeech
  refine ⟨_, .blank hmode (hchar ▸ hc), hmode, ?_⟩
  cases hfits with
  | space => exact hspeech.put (by simp) c

theorem Stands.remark (h : Stands settings nested source session before (c :: after) .comment speech)
    (hc : isLineBreak c = false) :
    Stands settings nested source session (before ++ [c]) after .comment speech := by
  have hchar := (Source.char_of_split h.1).1
  apply h.move
  intro ribbon reading hmode hread hfits hspeech
  refine ⟨_, .remark hmode (hchar ▸ hc), hmode, ?_⟩
  cases hfits with
  | comment htag => exact hspeech.put (by simp [htag]) c

/-- A mark and the character that makes a pair with it. -/
theorem Stands.pair {mark : String}
    (h : Stands settings nested source session before (c :: after) .quote speech)
    (hmark : pairedQuote? settings c = some mark) :
    Stands settings nested source session (before ++ [c]) after .text (speech.add mark) := by
  have hchar := (Source.char_of_split h.1).1
  apply h.move
  intro ribbon reading hmode hread hfits hspeech
  refine ⟨_, .pair hmode (hchar ▸ hmark), rfl, ?_⟩
  cases hfits with
  | quote =>
      have hmarked := hspeech.emit (show Tag.quotationMarks ≠ .text by decide) mark
      exact says_andThen_text (fun tag => by simp [Step.emit]) rfl (by simp) hmarked c

theorem Stands.name (h : Stands settings nested source session before (c :: after) (.name start) speech)
    (hc : (if before.length - start ≤ 1 then isLetter c else isNameChar c) = true) :
    Stands settings nested source session (before ++ [c]) after (.name start) speech := by
  have hchar := (Source.char_of_split h.1).1
  apply h.move
  intro ribbon reading hmode hread hfits hspeech
  refine ⟨_, .nameChar hmode (hchar ▸ hc), hmode, ?_⟩
  cases hfits with
  | name htag => exact hspeech.put (by simp [htag]) c

/-- A name of one character that is not a letter. -/
theorem Stands.escape (h : Stands settings nested source session before (c :: after) (.name start) speech)
    (hstart : before.length - start ≤ 1) (hc : isLetter c = false) :
    Stands settings nested source session (before ++ [c]) after .text
      (speech.ask { name := source.slice start (before.length + 1) }) := by
  have hchar := (Source.char_of_split h.1).1
  apply h.move
  intro ribbon reading hmode hread hfits hspeech
  refine ⟨_, .escape hmode hstart (hchar ▸ hc), rfl, ?_⟩
  cases hfits with
  | name htag =>
      obtain ⟨rendering, hfold, hresolved⟩ :=
        hspeech.resolve (by simp [htag]) { name := source.slice start (before.length + 1) }
      exact says_andThen_text (isCalm_resolve _ _) hfold (by simp [htag]) hresolved c

/-- The bracket behind a name. -/
theorem Stands.openArgument {bracket : Bracket}
    (h : Stands settings nested source session before (c :: after) (.name start) speech)
    (hstart : ¬ before.length - start ≤ 1) (hc : isNameChar c = false)
    (hbracket : Bracket.ofArgument? c = some bracket) :
    Stands settings nested source session (before ++ [c]) after
      (.argument { name := source.slice start before.length } bracket (before ++ [c]).length 0) speech := by
  have hchar := (Source.char_of_split h.1).1
  rw [List.length_append, List.length_singleton]
  apply h.move
  intro ribbon reading hmode hread hfits hspeech
  refine ⟨_, .openArgument hmode hstart (hchar ▸ hc) (hchar ▸ hbracket), rfl, ?_⟩
  rw [Step.into, Ribbon.lay_singleton_tagNext]
  cases hfits with
  | name htag => exact ((hspeech.put (by simp [htag]) c).beginNext .argument).enter _

section Brackets
variable {command : Command} {bracket : Bracket} {depth depth' : Nat}

theorem Stands.inArgument
    (h : Stands settings nested source session before (c :: after)
      (.argument command bracket start depth) speech)
    (hdepth : bracket.depthAfter depth [c] = some depth') :
    Stands settings nested source session (before ++ [c]) after (.argument command bracket start depth')
      speech := by
  have hchar := (Source.char_of_split h.1).1
  apply h.move
  intro ribbon reading hmode hread hfits hspeech
  refine ⟨_, .inArgument hmode (hchar ▸ hdepth), rfl, ?_⟩
  cases hfits with
  | argument htag => exact (hspeech.put (by simp [htag]) c).enter _

theorem Stands.inGroup
    (h : Stands settings nested source session before (c :: after) (.group start depth) speech)
    (hdepth : Bracket.curly.depthAfter depth [c] = some depth') :
    Stands settings nested source session (before ++ [c]) after (.group start depth') speech := by
  have hchar := (Source.char_of_split h.1).1
  apply h.move
  intro ribbon reading hmode hread hfits hspeech
  refine ⟨_, .inGroup hmode (hchar ▸ hdepth), rfl, ?_⟩
  cases hfits with
  | group htag => exact (hspeech.put (by simp [htag]) c).enter _

theorem Stands.reopen
    (h : Stands settings nested source session before (c :: after) (.reopening command bracket) speech) :
    Stands settings nested source session (before ++ [c]) after
      (.argument command bracket (before ++ [c]).length 0) speech := by
  rw [List.length_append, List.length_singleton]
  apply h.move
  intro ribbon reading hmode hread hfits hspeech
  refine ⟨_, .reopening hmode, rfl, ?_⟩
  rw [Step.into, Ribbon.lay_singleton_tagNext]
  cases hfits with
  | reopening htag => exact ((hspeech.put (by simp [htag]) c).beginNext .argument).enter _

variable {value : String} {packages : Chain π}

/-- The bracket that closes a group. -/
theorem Stands.closeGroup
    (h : Stands settings nested source session before (c :: after) (.group start 0) speech)
    (hc : c = '}')
    (hyields : Yields nested (source.slice (start + 1) before.length) speech.packages value packages) :
    Stands settings nested source session (before ++ [c]) after .text
      { prose := speech.prose ++ value, packages := packages } := by
  have hchar := (Source.char_of_split h.1).1
  apply h.move
  intro ribbon reading hmode hread hfits hspeech
  obtain ⟨session', hnested, hpackages⟩ := hyields reading.session hspeech.packages
  refine ⟨_, .endGroup hmode (hchar.trans hc) hnested, rfl, ?_⟩
  cases hfits with
  | @group _ _ last rest htag =>
      have hread : Says (last :: rest) { reading with session := session' }
          { speech with packages := packages } := ⟨hspeech.prose, hspeech.spaced, hpackages⟩
      exact says_andThen_text (fun tag => by simp [Step.emit]) rfl (by simp [htag])
        (hread.emit (by simp [htag]) value) c

/-- The bracket between two arguments. -/
theorem Stands.nextArgument {bracket' : Bracket}
    (h : Stands settings nested source session before (c :: after) (.argument command bracket start 0) speech)
    (hc : c = bracket.closing)
    (hyields : Yields nested (source.slice start before.length) speech.packages value packages)
    (hnext : after.head?.bind Bracket.ofArgument? = some bracket') :
    Stands settings nested source session (before ++ [c]) after
      (.reopening { command with arguments := command.arguments ++ [value] } bracket')
      { speech with packages := packages } := by
  have hchar := (Source.char_of_split h.1).1
  have hbehind := Cursor.next?_of_split h.1
  apply h.move
  intro ribbon reading hmode hread hfits hspeech
  obtain ⟨session', hnested, hpackages⟩ := hyields reading.session hspeech.packages
  refine ⟨_, .nextArgument hmode (hchar.trans hc) hnested (hbehind ▸ hnext), rfl, ?_⟩
  cases hfits with
  | @argument _ _ _ _ last rest htag hnone =>
      have hread : Says (last :: rest) { reading with session := session' }
          { speech with packages := packages } := ⟨hspeech.prose, hspeech.spaced, hpackages⟩
      exact (hread.turn_put (fun _ => hnone) (show Tag.command ≠ .text by decide) c).enter _

/-- The bracket behind the last argument. -/
theorem Stands.lastArgument
    (h : Stands settings nested source session before (c :: after) (.argument command bracket start 0) speech)
    (hc : c = bracket.closing)
    (hyields : Yields nested (source.slice start before.length) speech.packages value packages)
    (hnext : after.head?.bind Bracket.ofArgument? = none) :
    Stands settings nested source session (before ++ [c]) after .text
      ({ speech with packages := packages }.ask
        { command with arguments := command.arguments ++ [value] }) := by
  have hchar := (Source.char_of_split h.1).1
  have hbehind := Cursor.next?_of_split h.1
  apply h.move
  intro ribbon reading hmode hread hfits hspeech
  obtain ⟨session', hnested, hpackages⟩ := hyields reading.session hspeech.packages
  rw [← hbehind] at hnext
  refine ⟨_, .lastArgument hmode (hchar.trans hc) hnested hnext, ?_⟩
  cases hfits with
  | @argument _ _ _ _ last rest htag hnone hstart =>
      have hread : Says (last :: rest) { reading with session := session' }
          { speech with packages := packages } := ⟨hspeech.prose, hspeech.spaced, hpackages⟩
      exact @says_closeArgument _ _ ⟨source, before.length⟩ _ _ _ _ _ htag hnone hstart hnext hread _ c

end Brackets

end Rules

end Latex
end TexProse
