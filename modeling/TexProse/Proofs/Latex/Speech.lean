import TexProse.Proofs.Latex.Blanks
import TexProse.Proofs.Latex.Grammar

/-!
# What a reading has said

`Says` ties the segments so far and the reading to a speech: the prose, the flag for blanks, and the
packages. An open run of blanks, quotation mark or name has said nothing yet, and `Mode.settle` is what it
says once it is over. Main statement: `exists_enter`, which says how any mode that a character ends is
settled before the character is read as text.
-/

namespace TexProse.Latex
variable {π : Type} {settings : Settings}

/-- The segments and the reading behind a speech. -/
structure Says (ribbon : Ribbon Tag) (reading : Reading π) (speech : Speech π) : Prop where
  prose : ribbon.prose = speech.prose
  spaced : reading.spaced = isSpaced speech.prose
  packages : reading.session.packages = speech.packages

namespace Says
variable {last : Stretch Tag} {rest : Ribbon Tag} {reading : Reading π} {speech : Speech π}

theorem clean (hempty : last.chars = [] → last.rendering = none) :
    ∀ head ∈ (last :: rest).head?, head.chars = [] → head.prose = "" := by
  rintro _ ⟨⟩ hchars
  rw [eq_fresh hchars (hempty hchars), Stretch.prose_fresh]

theorem turn (h : Says (last :: rest) reading speech) (hempty : last.chars = [] → last.rendering = none)
    (tag : Tag) : Says (Ribbon.turn tag (last :: rest)) reading speech :=
  ⟨(Ribbon.told_turn Stretch.prose_fresh tag (clean hempty)).trans h.prose, h.spaced, h.packages⟩

theorem settle (h : Says (last :: rest) reading speech)
    (hempty : last.chars = [] → last.rendering = none) : Says (Ribbon.settle (last :: rest)) reading speech :=
  ⟨(Ribbon.told_settle (clean hempty)).trans h.prose, h.spaced, h.packages⟩

theorem enter {ribbon : Ribbon Tag} (h : Says ribbon reading speech) (mode : Mode) :
    Says ribbon (reading.enter mode) speech := ⟨h.prose, h.spaced, h.packages⟩

theorem beginNext (h : Says rest reading speech) (tag : Tag) :
    Says (rest.beginNext tag) reading speech :=
  ⟨(Ribbon.told_beginNext Stretch.prose_fresh tag rest).trans h.prose, h.spaced, h.packages⟩

/-- Only text says a character by reading it. -/
theorem put (h : Says (last :: rest) reading speech) (htag : last.tag ≠ .text) (c : Char) :
    Says (Ribbon.put c (last :: rest)) reading speech := by
  have hsame : Stretch.prose { last with chars := last.chars ++ [c] } = last.prose := by
    rw [prose_of_ne_text htag]
    exact prose_of_ne_text (by exact htag)
  refine ⟨?_, h.spaced, h.packages⟩
  exact (congrArg (fun said => _ ++ said) hsame).trans h.prose

theorem put_text (h : Says (last :: rest) reading speech) (htext : last.tag = .text) {c : Char}
    (hc : isBlank c = false) {reading' : Reading π} (hspaced : reading'.spaced = false)
    (hpackages : reading'.session.packages = reading.session.packages) :
    Says (Ribbon.put c (last :: rest)) reading' (speech.add (String.ofList [c])) := by
  have hmore : Stretch.prose { last with chars := last.chars ++ [c] } =
      last.prose ++ String.ofList [c] := by
    rw [prose_of_text htext, ← String.ofList_append]
    exact prose_of_text (by exact htext)
  refine ⟨?_, ?_, hpackages.trans h.packages⟩
  · calc Ribbon.prose (Ribbon.put c (last :: rest))
        = Ribbon.told Stretch.prose rest ++ (last.prose ++ String.ofList [c]) :=
          congrArg (fun said => _ ++ said) hmore
      _ = Ribbon.prose (last :: rest) ++ String.ofList [c] := String.append_assoc.symm
      _ = speech.prose ++ String.ofList [c] := congrArg (· ++ String.ofList [c]) h.prose
  · rw [hspaced]
    exact (hc.symm.trans (isSpaced_concat speech.prose [] c).symm)

theorem emit (h : Says (last :: rest) reading speech) (htag : last.tag ≠ .text) (text : String) :
    Says (last.amend (·.append text) :: rest) (Step.emit text reading).2 (speech.add text) := by
  have hmore : Stretch.prose (last.amend (·.append text)) = last.prose ++ text := by
    rw [prose_of_ne_text htag, prose_of_ne_text (by exact htag)]
    exact Boundary.getD_append (last.boundary 0) text
  refine ⟨?_, spaced_emit text h.spaced, h.packages⟩
  calc Ribbon.prose (last.amend (·.append text) :: rest)
      = Ribbon.told Stretch.prose rest ++ (last.prose ++ text) := congrArg (fun said => _ ++ said) hmore
    _ = Ribbon.prose (last :: rest) ++ text := String.append_assoc.symm
    _ = speech.prose ++ text := congrArg (· ++ text) h.prose

theorem resolve [Package π] (h : Says (last :: rest) reading speech) (htag : last.tag ≠ .text)
    (command : Command) :
    ∃ rendering, (Step.resolve command reading).1.foldl Ribbon.edit (last :: rest) =
        { last with rendering := rendering } :: rest ∧
      Says ({ last with rendering := rendering } :: rest) (Step.resolve command reading).2
        (speech.ask command) := by
  unfold Step.resolve Session.ask Speech.ask
  rw [h.packages]
  dsimp only
  generalize speech.packages.ask command = answer
  obtain ⟨text, packages, notices⟩ := answer
  have hasked : Says (last :: rest)
      { reading with session := ⟨packages, reading.session.notices ++ notices.toArray⟩ }
      { speech with packages := packages } := ⟨h.prose, h.spaced, rfl⟩
  cases text with
  | none => exact ⟨_, rfl, ⟨h.prose.trans (by simp), h.spaced.trans (by simp), rfl⟩⟩
  | some text => exact ⟨_, rfl, hasked.emit htag text⟩

/-- A run of blanks that ends says what it hears it may. -/
theorem blank {here : Cursor} {start stop : Nat} {chars : List Char} (hsome : chars ≠ [])
    (hblank : ∀ c ∈ chars, isBlank c) (hslice : here.source.slice start stop = String.ofList chars)
    (h : Says (⟨.space, chars, none⟩ :: rest) reading speech) :
    ∃ rendering, (closeSpace here start stop reading).1.foldl Ribbon.edit (⟨.space, chars, none⟩ :: rest) =
        ⟨.space, chars, rendering⟩ :: rest ∧
      Says (⟨.space, chars, rendering⟩ :: rest) (closeSpace here start stop reading).2
        (speech.blank (String.ofList chars)) := by
  have hprose : Ribbon.told Stretch.prose rest = speech.prose := by
    have hall := h.prose
    rwa [Ribbon.prose, Ribbon.told, prose_of_ne_text (by simp), Option.getD_none,
      String.append_empty] at hall
  refine ⟨_, foldl_closeSpace rest hsome hslice, ?_, ?_, ?_⟩
  · rw [Ribbon.prose, Ribbon.told, prose_of_ne_text (by simp), hprose, Speech.blank, Speech.add, blankFor,
      ← h.spaced]
  · rw [spaced_closeSpace, Speech.blank, Speech.add, blankFor, ← h.spaced]
    cases hflag : reading.spaced with
    | true => simpa [← h.spaced] using hflag.symm
    | false => exact (isSpaced_append_blankOf _ hsome hblank).symm
  · rw [closeSpace]
    split <;> exact h.packages

/-- Where a construct other than text begins, nothing is said of it yet. -/
theorem turn_put (h : Says (last :: rest) reading speech) (hempty : last.chars = [] → last.rendering = none)
    {tag : Tag} (htag : tag ≠ .text) (c : Char) :
    Says ((Ribbon.turn tag (last :: rest)).put c) reading speech := by
  obtain ⟨head, tail, hturn, hhead⟩ := Ribbon.exists_turn tag (last :: rest)
  have hturned := h.turn hempty tag
  rw [hturn] at hturned ⊢
  exact hturned.put (hhead ▸ htag) c

end Says

/-- The mode behind a character that is read as text. -/
def Mode.ofChar (offset : Nat) (c : Char) : Mode :=
  if isBlank c then .space offset
  else if c = '%' then .comment
  else if c = '\\' then .name offset
  else if c = '"' then .quote
  else if c = '{' then .group offset 0
  else .text

theorem Mode.ofChar_of_isBlank (offset : Nat) {c : Char} (hc : isBlank c = true) :
    Mode.ofChar offset c = .space offset := by
  rw [Mode.ofChar, if_pos hc]

/-- What a character says that is read as text. -/
def Speech.hear (offset : Nat) (c : Char) (speech : Speech π) : Speech π :=
  if Mode.ofChar offset c = .text then speech.add (String.ofList [c]) else speech

section Text
variable {here : Cursor} {last : Stretch Tag} {rest : Ribbon Tag} {reading : Reading π} {speech : Speech π}

/-- A character read as text opens a construct, or is said. -/
theorem textRule_cases (here : Cursor) (reading : Reading π) :
    (∃ tag, tag ≠ .text ∧ Mode.ofChar here.offset here.char ≠ .text ∧
        textRule here reading = Step.into (Mode.ofChar here.offset here.char) [.tagHere tag] reading) ∨
      (Mode.ofChar here.offset here.char = .text ∧ isBlank here.char = false ∧
        ∃ reading', textRule here reading = ([], reading') ∧ reading'.mode = .text ∧
          reading'.spaced = false ∧ reading'.session.packages = reading.session.packages) := by
  rw [textRule, Mode.ofChar]
  dsimp only
  split_ifs with hblank
  · exact .inl ⟨_, show Tag.space ≠ .text by decide, by simp, rfl⟩
  · exact .inl ⟨_, show Tag.comment ≠ .text by decide, by simp, rfl⟩
  · exact .inl ⟨_, show Tag.command ≠ .text by decide, by simp, rfl⟩
  · exact .inl ⟨_, show Tag.quotationMarks ≠ .text by decide, by simp, rfl⟩
  · exact .inl ⟨_, show Tag.group ≠ .text by decide, by simp, rfl⟩
  · refine .inr ⟨rfl, Bool.eq_false_iff.mpr hblank, _, rfl, ?_⟩
    cases missingSpace? here <;> exact ⟨rfl, rfl, rfl⟩

theorem mode_textRule (here : Cursor) (reading : Reading π) :
    (textRule here reading).2.mode = Mode.ofChar here.offset here.char := by
  rcases textRule_cases here reading with ⟨tag, -, -, hrule⟩ | ⟨htext, -, reading', hrule, hmode, -⟩
  · rw [hrule]
    rfl
  · rw [hrule, htext]
    exact hmode

theorem says_textRule (htag : last.tag = .text) (hempty : last.chars = [] → last.rendering = none)
    (h : Says (last :: rest) reading speech) :
    Says (((textRule here reading).1.foldl Ribbon.edit (last :: rest)).put here.char)
      (textRule here reading).2 (speech.hear here.offset here.char) := by
  rcases textRule_cases here reading with
    ⟨tag, hopens, hmode, hrule⟩ | ⟨htext, hblank, reading', hrule, -, hspaced, hpackages⟩
  · rw [hrule, Speech.hear, if_neg hmode]
    exact (h.turn_put hempty hopens here.char).enter _
  · rw [hrule, Speech.hear, if_pos htext]
    exact h.put_text htag hblank hspaced hpackages

theorem says_backToText {step : Step π} {ribbon : Ribbon Tag} (hcalm : Edit.IsCalm step.1)
    (hfold : step.1.foldl Ribbon.edit ribbon = last :: rest) (hsome : last.chars ≠ [])
    (h : Says (last :: rest) step.2 speech) :
    Says (ribbon.lay (backToText here step).1 here.char) (backToText here step).2
      (speech.hear here.offset here.char) := by
  obtain ⟨head, tail, hturn, htag, hempty, hback⟩ := exists_backToText here hfold hsome
  have hturned := h.turn (fun hchars => absurd hchars hsome) .text
  rw [hturn] at hturned
  rw [Ribbon.lay_calm (isCalm_backToText here hcalm), hback]
  apply says_textRule htag _ (hturned.enter .text)
  intro hchars
  rw [(hempty hchars).1]

end Text

/-- What a mode still has to say once it is over. -/
def Mode.settle [Package π] (here : Cursor) (mode : Mode) (speech : Speech π) : Speech π :=
  match mode with
  | .space start => speech.blank (here.textSince start)
  | .name start => speech.ask { name := here.textSince start }
  | _ => speech

/-- Whether a character ends the construct of a mode and is read as text, or could be. -/
def Mode.admits (here : Cursor) : Mode → Bool
  | .text => true
  | .space _ => !isBlank here.char
  | .comment => isLineBreak here.char
  | .name start => start + 1 < here.offset && !isNameChar here.char && (Bracket.ofArgument? here.char).isNone
  | .quote | .argument _ _ _ _ | .reopening _ _ | .group _ _ => false

/-- A mode that a character ends is settled, and the character is read as text. -/
theorem exists_enter [Package π] {nested : Nested π} {here : Cursor} {reading : Reading π}
    {ribbon : Ribbon Tag} {speech : Speech π} (hcount : here.offset < here.source.length)
    (hread : ribbon.chars = here.source.chars.toList.take here.offset)
    (hfits : Fits settings here.offset reading.spaced reading.mode ribbon)
    (hadmits : reading.mode.admits here = true) (h : Says ribbon reading speech) :
    ∃ step, Move settings nested here reading step ∧ step.2.mode = Mode.ofChar here.offset here.char ∧
      Says (ribbon.lay step.1 here.char) step.2
        ((reading.mode.settle here speech).hear here.offset here.char) := by
  cases hmode : reading.mode with
  | text =>
      rw [hmode] at hfits
      cases hfits with
      | text htag hempty hvoiced =>
          refine ⟨_, .text hmode, mode_textRule here reading, ?_⟩
          rw [Ribbon.lay_calm (isCalm_textRule _ _)]
          exact says_textRule htag (fun hchars => (hempty hchars).1) h
  | space start =>
      rw [hmode] at hfits hadmits
      cases hfits with
      | space hsome hblank hstart hvoiced =>
          have hc : isBlank here.char = false := by simpa [Mode.admits] using hadmits
          have hslice := Ribbon.slice_of_read hread hstart (Nat.le_of_lt hcount)
          obtain ⟨rendering, hfold, hclosed⟩ := h.blank hsome hblank hslice
          refine ⟨_, .endSpace hmode hc, mode_textRule here _, ?_⟩
          rw [Mode.settle, Cursor.textSince, hslice]
          exact says_backToText (isCalm_closeSpace _ _ _ _) hfold hsome hclosed
  | comment =>
      rw [hmode] at hfits hadmits
      cases hfits with
      | comment htag hsome hvoiced =>
          have hc : isLineBreak here.char = true := hadmits
          have hopens := Mode.ofChar_of_isBlank here.offset (isBlank_of_isLineBreak hc)
          refine ⟨_, .endComment hmode hc, hopens.symm, ?_⟩
          rw [Step.into, Ribbon.lay_calm (fun tag => by simp), Speech.hear, hopens, if_neg (by simp)]
          exact (h.turn_put (fun hchars => absurd hchars hsome) (show Tag.space ≠ .text by decide)
            here.char).enter _
  | name start =>
      rw [hmode] at hfits hadmits
      cases hfits with
      | @name _ last rest htag hsome hvoiced =>
          simp only [Mode.admits, Bool.and_eq_true, decide_eq_true_eq, Bool.not_eq_true',
            Option.isNone_iff_eq_none] at hadmits
          obtain ⟨⟨hlong, hname⟩, hbracket⟩ := hadmits
          replace hlong : ¬ here.offset - start ≤ 1 := by omega
          obtain ⟨rendering, hfold, hresolved⟩ :=
            h.resolve (show last.tag ≠ .text by simp [htag]) { name := here.textSince start }
          cases hblank : isBlank here.char with
          | true =>
              have hopens := Mode.ofChar_of_isBlank here.offset hblank
              refine ⟨_, .nameSpace hmode hlong hname hbracket hblank, hopens.symm, ?_⟩
              rw [Step.andThen, Step.into, Ribbon.lay_calm ((isCalm_resolve _ _).append fun tag => by simp),
                List.foldl_append, hfold, Speech.hear, hopens, if_neg (by simp)]
              exact (hresolved.turn_put (fun hchars => absurd hchars hsome)
                (show Tag.space ≠ .text by decide) here.char).enter _
          | false =>
              refine ⟨_, .endName hmode hlong hname hbracket hblank, mode_textRule here _, ?_⟩
              exact says_backToText (isCalm_resolve _ _) hfold hsome hresolved
  | _ =>
      rw [hmode] at hadmits
      cases hadmits

end TexProse.Latex
