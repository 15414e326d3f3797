import TexProse.Proofs.Latex.Heard
import TexProse.Proofs.Latex.Partition

/-!
# The blanks of a document

`Fits` says for each mode what the last segment looks like and which blanks are settled: all of them, but
for a run that is still open. Every move keeps it, so it holds along every reading, and the end of the
text settles what is open. Main statement: `rendering_of_space`.
-/

namespace TexProse.Latex
variable {π : Type} {settings : Settings}

/-- What a mode says of the segments before an offset. -/
inductive Fits (settings : Settings) (offset : Nat) (spaced : Bool) : Mode → Ribbon Tag → Prop
  | text {last : Stretch Tag} {rest : Ribbon Tag} (htag : last.tag = .text)
      (hempty : last.chars = [] → last.rendering = none ∧ rest.head?.map (·.tag) ≠ some .space)
      (hvoiced : IsVoiced settings (last :: rest) spaced) : Fits settings offset spaced .text (last :: rest)
  | space {start : Nat} {chars : List Char} {rest : Ribbon Tag} (hsome : chars ≠ [])
      (hblank : ∀ c ∈ chars, isBlank c) (hstart : start + chars.length = offset)
      (hvoiced : IsVoiced settings rest spaced) :
      Fits settings offset spaced (.space start) (⟨.space, chars, none⟩ :: rest)
  | comment {last : Stretch Tag} {rest : Ribbon Tag} (htag : last.tag = .comment)
      (hsome : last.chars ≠ []) (hvoiced : IsVoiced settings (last :: rest) spaced) :
      Fits settings offset spaced .comment (last :: rest)
  | quote {chars : List Char} {rendering : Option String} {rest : Ribbon Tag}
      (hmarks : rendering.getD "" = marks settings "\"" chars) (hlawful : IsLawful settings rest)
      (hspaced : spaced = isSpaced (rest.told (heard settings) ++ marks settings "" chars)) :
      Fits settings offset spaced .quote (⟨.quotationMarks, chars ++ ['"'], rendering⟩ :: rest)
  | name {start : Nat} {last : Stretch Tag} {rest : Ribbon Tag} (htag : last.tag = .command)
      (hsome : last.chars ≠ []) (hvoiced : IsVoiced settings (last :: rest) spaced) :
      Fits settings offset spaced (.name start) (last :: rest)
  | argument {command : Command} {bracket : Bracket} {start depth : Nat} {last : Stretch Tag}
      {rest : Ribbon Tag} (htag : last.tag = .argument) (hnone : last.rendering = none)
      (hstart : start + last.chars.length = offset) (hvoiced : IsVoiced settings (last :: rest) spaced) :
      Fits settings offset spaced (.argument command bracket start depth) (last :: rest)
  | reopening {command : Command} {bracket : Bracket} {last : Stretch Tag} {rest : Ribbon Tag}
      (htag : last.tag = .command) (hsome : last.chars ≠ [])
      (hvoiced : IsVoiced settings (last :: rest) spaced) :
      Fits settings offset spaced (.reopening command bracket) (last :: rest)
  | group {start depth : Nat} {last : Stretch Tag} {rest : Ribbon Tag} (htag : last.tag = .group)
      (hsome : last.chars ≠ []) (hvoiced : IsVoiced settings (last :: rest) spaced) :
      Fits settings offset spaced (.group start depth) (last :: rest)

/-- What closing a run of blanks does to it. -/
theorem foldl_closeSpace {here : Cursor} {reading : Reading π} {start stop : Nat} {chars : List Char}
    (rest : Ribbon Tag) (hsome : chars ≠ []) (hslice : here.source.slice start stop = String.ofList chars) :
    (closeSpace here start stop reading).1.foldl Ribbon.edit (⟨.space, chars, none⟩ :: rest) =
      ⟨.space, chars, if reading.spaced then none else some (blankOf (String.ofList chars))⟩ :: rest := by
  have hrun : String.ofList chars ≠ "" := fun h => hsome (by simpa using congrArg String.toList h)
  rw [closeSpace]
  rw [hslice]
  by_cases hflag : reading.spaced = true
  · rw [if_pos hflag, if_pos hflag]
    rfl
  · rw [if_neg hflag, if_neg hflag]
    change Ribbon.edit (⟨Tag.space, chars, none⟩ :: rest)
      (.render (some (blankOf (String.ofList chars)))) = _
    simp [Ribbon.edit, Stretch.amend, Boundary.render, Stretch.boundary, Option.filter,
      blankOf_ne_empty hrun]

theorem spaced_closeSpace (here : Cursor) (reading : Reading π) (start stop : Nat) :
    (closeSpace here start stop reading).2.spaced = true := by
  rw [closeSpace]
  split
  next hflag => exact hflag
  next => rfl

/-- A run of blanks that ends obeys what it hears. -/
theorem fits_closeSpace {here : Cursor} {reading : Reading π} {start stop : Nat} {chars : List Char}
    {rest : Ribbon Tag} (hsome : chars ≠ []) (hblank : ∀ c ∈ chars, isBlank c)
    (hslice : here.source.slice start stop = String.ofList chars)
    (hvoiced : IsVoiced settings rest reading.spaced) :
    ∃ rendering, (closeSpace here start stop reading).1.foldl Ribbon.edit (⟨.space, chars, none⟩ :: rest) =
        ⟨.space, chars, rendering⟩ :: rest ∧
      IsVoiced settings (⟨.space, chars, rendering⟩ :: rest)
        (closeSpace here start stop reading).2.spaced := by
  obtain ⟨hlawful, hspaced⟩ := hvoiced
  refine ⟨_, foldl_closeSpace rest hsome hslice, ⟨?_, hlawful⟩, ?_⟩
  · change _ = blankFor _ _
    rw [blankFor, ← hspaced]
  · rw [spaced_closeSpace, Ribbon.told, heard_eq_prose (by simp), prose_of_ne_text (by simp)]
    cases hflag : reading.spaced with
    | true => simpa [← hspaced] using hflag.symm
    | false => exact (isSpaced_append_blankOf _ hsome hblank).symm

section Step
variable {here : Cursor}

/-- The first character behind a construct that is over. -/
theorem fits_textRule {reading : Reading π} {last : Stretch Tag} {rest : Ribbon Tag}
    (htag : last.tag = .text)
    (hempty : last.chars = [] →
      last.rendering = none ∧ (isBlank here.char → rest.head?.map (·.tag) ≠ some .space))
    (hvoiced : IsVoiced settings (last :: rest) reading.spaced) :
    Fits settings (here.offset + 1) (textRule here reading).2.spaced (textRule here reading).2.mode
      (((textRule here reading).1.foldl Ribbon.edit (last :: rest)).put here.char) := by
  have hclean : last.chars = [] → last.rendering = none := fun h => (hempty h).1
  rw [textRule]
  dsimp only
  split_ifs with hblank hcomment hname hquote hgroup
  · -- blanks never join a run before them
    have hturn : ∃ before, Ribbon.turn .space (last :: rest) = { tag := .space } :: before ∧
        IsVoiced settings before reading.spaced := by
      simp only [Ribbon.turn]
      rw [if_neg (by simp [htag])]
      split
      next hchars =>
        rw [if_neg ((hempty hchars).2 hblank)]
        exact ⟨rest, rfl, hvoiced.tail hchars (hclean hchars)⟩
      next => exact ⟨last :: rest, rfl, hvoiced⟩
    obtain ⟨before, hturn, hbefore⟩ := hturn
    change Fits _ _ _ _ ((Ribbon.turn .space (last :: rest)).put here.char)
    rw [hturn]
    exact .space (by simp) (by simpa using hblank) rfl hbefore
  · obtain ⟨head, tail, hput, hhead, hsome, hbegun⟩ :=
      hvoiced.turn_put hclean (show Tag.comment.IsMarkup from trivial) here.char
    exact hput ▸ .comment hhead hsome hbegun
  · obtain ⟨head, tail, hput, hhead, hsome, hbegun⟩ :=
      hvoiced.turn_put hclean (show Tag.command.IsMarkup from trivial) here.char
    exact hput ▸ .name hhead hsome hbegun
  · -- marks may join those right before them
    obtain ⟨⟨tag, chars, rendering⟩, tail, hturn, rfl⟩ :=
      Ribbon.exists_turn Tag.quotationMarks (last :: rest)
    have hbegun := hvoiced.turn hclean (show Tag.quotationMarks ≠ .space by decide)
    change Fits _ _ _ _ ((Ribbon.turn .quotationMarks (last :: rest)).put here.char)
    rw [hturn] at hbegun ⊢
    rw [hquote]
    exact .quote hbegun.lawful.1 hbegun.lawful.2 hbegun.spaced
  · obtain ⟨head, tail, hput, hhead, hsome, hbegun⟩ :=
      hvoiced.turn_put hclean (show Tag.group.IsMarkup from trivial) here.char
    exact hput ▸ .group hhead hsome hbegun
  · have hvoiced := hvoiced.put_text htag (Bool.eq_false_iff.mpr hblank)
    have hfits : Fits settings (here.offset + 1) false .text (Ribbon.put here.char (last :: rest)) :=
      .text htag (by simp) hvoiced
    cases missingSpace? here <;> exact hfits

/-- Where a construct is closed, its character is read as text on a ribbon that ends in text. -/
theorem exists_backToText (here : Cursor) {step : Step π} {ribbon : Ribbon Tag} {last : Stretch Tag}
    {rest : Ribbon Tag} (hfold : step.1.foldl Ribbon.edit ribbon = last :: rest) (hsome : last.chars ≠ []) :
    ∃ head tail, Ribbon.turn .text (last :: rest) = head :: tail ∧ head.tag = .text ∧
      (head.chars = [] → head = { tag := .text } ∧ tail = last :: rest) ∧
      (backToText here step).1.foldl Ribbon.edit ribbon =
        (textRule here (step.2.enter .text)).1.foldl Ribbon.edit (head :: tail) := by
  have hback : (backToText here step).1.foldl Ribbon.edit ribbon =
      (textRule here (step.2.enter .text)).1.foldl Ribbon.edit (Ribbon.turn .text (last :: rest)) := by
    simp only [backToText, Step.andThen, Step.into, List.foldl_append, hfold]
    rfl
  rw [hback, Ribbon.turn]
  split
  next htag => exact ⟨last, rest, rfl, htag, fun hchars => absurd hchars hsome, rfl⟩
  next htag => exact ⟨_, _, rfl, rfl, fun _ => ⟨rfl, rfl⟩, rfl⟩

/-- The first character behind a construct that is closed here. -/
theorem fits_backToText {step : Step π} {ribbon : Ribbon Tag} {last : Stretch Tag} {rest : Ribbon Tag}
    (hcalm : Edit.IsCalm step.1) (hfold : step.1.foldl Ribbon.edit ribbon = last :: rest)
    (hsome : last.chars ≠ []) (hspace : isBlank here.char → last.tag ≠ .space)
    (hvoiced : IsVoiced settings (last :: rest) step.2.spaced) :
    Fits settings (here.offset + 1) (backToText here step).2.spaced (backToText here step).2.mode
      (ribbon.lay (backToText here step).1 here.char) := by
  obtain ⟨head, tail, hturn, htag, hempty, hback⟩ := exists_backToText here hfold hsome
  have hturned := hvoiced.turn (fun hchars => absurd hchars hsome) (show Tag.text ≠ .space by decide)
  rw [hturn] at hturned
  rw [Ribbon.lay_calm (isCalm_backToText here hcalm), hback]
  apply fits_textRule htag _ hturned
  intro hchars
  obtain ⟨rfl, rfl⟩ := hempty hchars
  constructor
  · rfl
  · intro hc hspace'
    exact hspace hc (Option.some.inj hspace')

/-- Text that begins behind a construct. -/
theorem fits_beginNext_text {offset : Nat} {spaced : Bool} {last : Stretch Tag} {rest : Ribbon Tag}
    (hsome : last.chars ≠ []) (hspace : last.tag ≠ .space)
    (hvoiced : IsVoiced settings (last :: rest) spaced) :
    Fits settings offset spaced .text (Ribbon.beginNext .text (last :: rest)) := by
  have hnext := hvoiced.beginNext (show Tag.text ≠ .space by decide)
  unfold Ribbon.beginNext at hnext ⊢
  split
  next htag => exact .text (Option.some.inj htag) (fun hchars => absurd hchars hsome) hvoiced
  next htag =>
    rw [if_neg htag] at hnext
    exact .text rfl (fun _ => ⟨rfl, fun h => hspace (Option.some.inj h)⟩) hnext

theorem fits_beginNext_argument {offset : Nat} {spaced : Bool} {command : Command} {bracket : Bracket}
    {last : Stretch Tag} {rest : Ribbon Tag} (htag : last.tag = .command)
    (hvoiced : IsVoiced settings (last :: rest) spaced) :
    Fits settings offset spaced (.argument command bracket offset 0)
      (Ribbon.beginNext .argument (last :: rest)) := by
  have hnext := hvoiced.beginNext (show Tag.argument ≠ .space by decide)
  have hbegin : Ribbon.beginNext .argument (last :: rest) = { tag := .argument } :: last :: rest := by
    simp [Ribbon.beginNext, htag]
  rw [hbegin] at hnext ⊢
  exact .argument rfl rfl rfl hnext

/-- A run of blanks that begins behind a construct. -/
theorem fits_turn_space {spaced : Bool} {last : Stretch Tag} {rest : Ribbon Tag} (hsome : last.chars ≠ [])
    (hspace : last.tag ≠ .space) (hc : isBlank here.char)
    (hvoiced : IsVoiced settings (last :: rest) spaced) :
    Fits settings (here.offset + 1) spaced (.space here.offset)
      ((Ribbon.turn .space (last :: rest)).put here.char) := by
  have hturn : Ribbon.turn .space (last :: rest) = { tag := .space } :: last :: rest := by
    simp [Ribbon.turn, hspace, hsome]
  rw [hturn]
  exact .space (by simp) (by simpa using hc) rfl hvoiced

theorem Fits.blank {spaced : Bool} {start : Nat} {ribbon : Ribbon Tag} (hc : isBlank here.char = true)
    (hfits : Fits settings here.offset spaced (.space start) ribbon) :
    Fits settings (here.offset + 1) spaced (.space start) (ribbon.put here.char) := by
  cases hfits with
  | space hsome hblank hstart hvoiced =>
      apply Fits.space _ _ _ hvoiced
      · simp
      · simpa [or_imp, forall_and] using ⟨hblank, hc⟩
      · simp [← hstart, Nat.add_assoc]

/-- The end of a run of blanks. -/
theorem Fits.endSpace {reading : Reading π} {start : Nat} {ribbon : Ribbon Tag}
    (hcount : here.offset < here.source.length)
    (hread : ribbon.chars = here.source.chars.toList.take here.offset) (hc : isBlank here.char = false)
    (hfits : Fits settings here.offset reading.spaced (.space start) ribbon) :
    let step := backToText here (closeSpace here start here.offset reading)
    Fits settings (here.offset + 1) step.2.spaced step.2.mode (ribbon.lay step.1 here.char) := by
  cases hfits with
  | space hsome hblank hstart hvoiced =>
      have hslice := Ribbon.slice_of_read hread hstart (Nat.le_of_lt hcount)
      obtain ⟨rendering, hfold, hclosed⟩ := fits_closeSpace hsome hblank hslice hvoiced
      apply fits_backToText (isCalm_closeSpace _ _ _ _) hfold hsome _ hclosed
      intro hblank
      rw [hc] at hblank
      cases hblank

section Quote
variable {reading : Reading π} {ribbon : Ribbon Tag}

/-- A mark that makes a pair is heard. -/
theorem Fits.pair {mark : String} (hmark : pairedQuote? settings here.char = some mark)
    (hfits : Fits settings here.offset reading.spaced .quote ribbon) :
    let step := (Step.emit mark reading).andThen (Step.into .text [.tagNext .text])
    Fits settings (here.offset + 1) step.2.spaced step.2.mode (ribbon.lay step.1 here.char) := by
  cases hfits with
  | @quote chars rendering rest hmarks hlawful hspaced =>
      dsimp only
      rw [Step.andThen, Step.into, Ribbon.lay_tagNext (fun tag => by simp [Step.emit])]
      apply fits_beginNext_text (by simp) (by simp)
      constructor
      · apply And.intro _ hlawful
        apply (Boundary.getD_append
          (Stretch.boundary ⟨Tag.quotationMarks, chars ++ ['"'], rendering⟩ 0) mark).trans
        exact (congrArg (· ++ mark) hmarks).trans (marks_concat_pair settings "\"" chars hmark).symm
      · apply (spaced_emit mark hspaced).trans
        change _ = isSpaced (_ ++ marks settings "" (chars ++ ['"'] ++ [here.char]))
        rw [marks_concat_pair settings "" chars hmark, String.append_assoc]

/-- A mark that makes no pair is shown and goes unheard. -/
theorem Fits.straight (notice : Notice) (hfits : Fits settings here.offset reading.spaced .quote ribbon) :
    let step := backToText here ([.append "\""], reading.notify notice)
    Fits settings (here.offset + 1) step.2.spaced step.2.mode (ribbon.lay step.1 here.char) := by
  cases hfits with
  | @quote chars rendering rest hmarks hlawful hspaced =>
      apply fits_backToText (fun tag => by simp) rfl (by simp) (fun _ => by simp)
      constructor
      · apply And.intro _ hlawful
        apply (Boundary.getD_append
          (Stretch.boundary ⟨Tag.quotationMarks, chars ++ ['"'], rendering⟩ 0) "\"").trans
        exact (congrArg (· ++ "\"") hmarks).trans (marks_concat_straight settings "\"" chars).symm
      · apply hspaced.trans
        change _ = isSpaced (_ ++ marks settings "" (chars ++ ['"']))
        rw [marks_concat_straight, String.append_empty]

end Quote

/-- Markup that is complete with the current character. -/
theorem fits_andThen_text {step : Step π} {ribbon : Ribbon Tag} {last : Stretch Tag} {rest : Ribbon Tag}
    (hcalm : Edit.IsCalm step.1) (hfold : step.1.foldl Ribbon.edit ribbon = last :: rest)
    (hmarkup : last.tag.IsMarkup) (hvoiced : IsVoiced settings (last :: rest) step.2.spaced) :
    Fits settings (here.offset + 1) (step.andThen (Step.into .text [.tagNext .text])).2.spaced
      (step.andThen (Step.into .text [.tagNext .text])).2.mode
      (ribbon.lay (step.andThen (Step.into .text [.tagNext .text])).1 here.char) := by
  rw [Step.andThen, Step.into, Ribbon.lay_tagNext hcalm, hfold]
  exact fits_beginNext_text (by simp) hmarkup.ne.2.1 (hvoiced.put hmarkup _)

variable [Package π] {nested : Nested π}

/-- A property of the segments that lasts when the command behind them is tagged. -/
def Turns (P : Ribbon Tag → Reading π → Prop) : Prop :=
  ∀ (last : Stretch Tag) (rest : Ribbon Tag) (reading : Reading π),
    (last.chars = [] → last.rendering = none) → P (last :: rest) reading →
      P (Ribbon.turn .command (last :: rest)) reading

/-- The bracket behind the last argument turns to the command and puts it, in the one order or the other. -/
theorem exists_closeArgument {P Q : Ribbon Tag → Reading π → Prop} {reading : Reading π}
    {command : Command} {start : Nat} {last : Stretch Tag} {rest : Ribbon Tag} (hP : Turns P) (hQ : Turns Q)
    (hresolve : ∀ (last : Stretch Tag) (rest : Ribbon Tag) (reading : Reading π), last.tag.IsMarkup →
      P (last :: rest) reading →
      ∃ rendering, (Step.resolve command reading).1.foldl Ribbon.edit (last :: rest) =
          { last with rendering := rendering } :: rest ∧
        Q ({ last with rendering := rendering } :: rest) (Step.resolve command reading).2)
    (hmarkup : last.tag.IsMarkup) (hnone : last.rendering = none)
    (hstart : start + last.chars.length = here.offset)
    (hnext : here.next?.bind Bracket.ofArgument? = none) (h : P (last :: rest) reading) :
    ∃ (step : Step π) (head : Stretch Tag) (tail : Ribbon Tag),
      closeArgument here command (here.offset = start) reading =
          step.andThen (Step.into .text [.tagNext .text]) ∧
        Edit.IsCalm step.1 ∧ step.1.foldl Ribbon.edit (last :: rest) = head :: tail ∧
        head.tag = .command ∧ Q (head :: tail) step.2 := by
  have hcommand : Tag.command.IsMarkup := trivial
  have htagged : Edit.IsCalm [Edit.tagHere Tag.command] := fun tag => by simp
  rw [closeArgument]
  simp only [hnext]
  split
  next hempty =>
    obtain ⟨head, tail, hturned, hhead⟩ := Ribbon.exists_turn Tag.command (last :: rest)
    have hbegun := hP _ _ _ (fun _ => hnone) h
    rw [hturned] at hbegun
    obtain ⟨rendering, hfold, hresolved⟩ := hresolve head tail _ (hhead ▸ hcommand) hbegun
    refine ⟨_, { head with rendering := rendering }, tail, rfl, htagged.append (isCalm_resolve _ _), ?_,
      hhead, hresolved⟩
    rw [← hfold, ← hturned]
    rfl
  next hsome =>
    have hchars : last.chars ≠ [] := by
      intro hchars
      simp only [decide_eq_true_eq, ← hstart, hchars] at hsome
      exact hsome rfl
    obtain ⟨rendering, hfold, hresolved⟩ := hresolve last rest _ hmarkup h
    obtain ⟨head, tail, hturned, hhead⟩ :=
      Ribbon.exists_turn Tag.command ({ last with rendering := rendering } :: rest)
    have hbegun := hQ { last with rendering := rendering } rest _ (fun hnil => absurd hnil hchars) hresolved
    rw [hturned] at hbegun
    refine ⟨(Step.resolve command reading).andThen (Step.edit [.tagHere .command]), head, tail, ?_,
      (isCalm_resolve _ _).append htagged, ?_, hhead, hbegun⟩
    · simp [Step.andThen, Step.into, Step.edit]
    · rw [Step.andThen, List.foldl_append, hfold]
      exact hturned

theorem fits_closeArgument {reading : Reading π} {command command' : Command} {bracket : Bracket}
    {start depth : Nat} {ribbon : Ribbon Tag} (hnext : here.next?.bind Bracket.ofArgument? = none)
    (hfits : Fits settings here.offset reading.spaced (.argument command bracket start depth) ribbon) :
    Fits settings (here.offset + 1) (closeArgument here command' (here.offset = start) reading).2.spaced
      (closeArgument here command' (here.offset = start) reading).2.mode
      (ribbon.lay (closeArgument here command' (here.offset = start) reading).1 here.char) := by
  cases hfits with
  | @argument _ _ _ _ last rest htag hnone hstart hvoiced =>
      have hmarkup : last.tag.IsMarkup := htag ▸ trivial
      have hturns : Turns fun ribbon (reading : Reading π) => IsVoiced settings ribbon reading.spaced :=
        fun last rest reading hempty h => h.turn hempty (show Tag.command ≠ .space by decide)
      obtain ⟨step, head, tail, hstep, hcalm, hfold, hhead, hclosed⟩ :=
        exists_closeArgument hturns hturns
          (fun last rest reading hmarkup h => h.resolve hmarkup command') hmarkup hnone hstart hnext hvoiced
      rw [hstep]
      exact fits_andThen_text hcalm hfold (hhead ▸ trivial) hclosed

/-- Every move keeps the blanks before it settled. -/
theorem Move.fits {reading : Reading π} {step : Step π} {ribbon : Ribbon Tag}
    (h : Move settings nested here reading step) (hcount : here.offset < here.source.length)
    (hread : ribbon.chars = here.source.chars.toList.take here.offset)
    (hfits : Fits settings here.offset reading.spaced reading.mode ribbon) :
    Fits settings (here.offset + 1) step.2.spaced step.2.mode (ribbon.lay step.1 here.char) := by
  cases h with
  | text hmode =>
      rw [hmode] at hfits
      cases hfits with
      | text htag hempty hvoiced =>
          rw [Ribbon.lay_calm (isCalm_textRule _ _)]
          exact fits_textRule htag (fun hchars => ⟨(hempty hchars).1, fun _ => (hempty hchars).2⟩) hvoiced
  | blank hmode hc =>
      rw [Step.edit, hmode]
      exact Fits.blank hc (hmode ▸ hfits)
  | endSpace hmode hc => exact Fits.endSpace hcount hread hc (hmode ▸ hfits)
  | remark hmode hc =>
      rw [hmode] at hfits
      cases hfits with
      | comment htag hsome hvoiced =>
          rw [Step.edit, hmode]
          exact .comment htag (by simp) (hvoiced.put (htag ▸ trivial) _)
  | endComment hmode hc =>
      rw [hmode] at hfits
      cases hfits with
      | comment htag hsome hvoiced =>
          rw [Step.into, Ribbon.lay_calm fun tag => by simp]
          exact fits_turn_space hsome (by simp [htag]) (isBlank_of_isLineBreak hc) hvoiced
  | pair hmode hmark => exact Fits.pair hmark (hmode ▸ hfits)
  | straight hmode hmark hnotice => exact Fits.straight _ (hmode ▸ hfits)
  | nameChar hmode hc =>
      rw [hmode] at hfits
      cases hfits with
      | name htag hsome hvoiced =>
          rw [Step.edit, hmode]
          exact .name htag (by simp) (hvoiced.put (htag ▸ trivial) _)
  | escape hmode hshort hc =>
      rw [hmode] at hfits
      cases hfits with
      | @name _ last rest htag hsome hvoiced =>
          have hmarkup : last.tag.IsMarkup := htag ▸ trivial
          obtain ⟨rendering, hfold, hresolved⟩ := hvoiced.resolve hmarkup _
          exact fits_andThen_text (isCalm_resolve _ _) hfold hmarkup hresolved
  | openArgument hmode hlong hc hbracket =>
      rw [hmode] at hfits
      cases hfits with
      | name htag hsome hvoiced =>
          rw [Step.into, Ribbon.lay_singleton_tagNext]
          exact fits_beginNext_argument htag (hvoiced.put (htag ▸ trivial) _)
  | nameSpace hmode hlong hc hbracket hblank =>
      rw [hmode] at hfits
      cases hfits with
      | name htag hsome hvoiced =>
          obtain ⟨rendering, hfold, hresolved⟩ := hvoiced.resolve (htag ▸ trivial) _
          rw [Step.andThen, Step.into, Ribbon.lay_calm ((isCalm_resolve _ _).append fun tag => by simp),
            List.foldl_append, hfold]
          exact fits_turn_space hsome (by simp [htag]) hblank hresolved
  | endName hmode hlong hc hbracket hblank =>
      rw [hmode] at hfits
      cases hfits with
      | name htag hsome hvoiced =>
          obtain ⟨rendering, hfold, hresolved⟩ := hvoiced.resolve (htag ▸ trivial) _
          exact fits_backToText (isCalm_resolve _ _) hfold hsome (fun _ => by simp [htag]) hresolved
  | reopening hmode =>
      rw [hmode] at hfits
      cases hfits with
      | reopening htag hsome hvoiced =>
          rw [Step.into, Ribbon.lay_singleton_tagNext]
          exact fits_beginNext_argument htag (hvoiced.put (htag ▸ trivial) _)
  | inArgument hmode hdepth =>
      rw [hmode] at hfits
      cases hfits with
      | argument htag hnone hstart hvoiced =>
          refine .argument htag hnone ?_ (hvoiced.put (htag ▸ trivial) _)
          simp [← hstart, Nat.add_assoc]
  | nextArgument hmode hchar hnested hnext =>
      rw [hmode] at hfits
      cases hfits with
      | argument htag hnone hstart hvoiced =>
          obtain ⟨head, tail, hput, hhead, hsome, hbegun⟩ :=
            hvoiced.turn_put (fun _ => hnone) (show Tag.command.IsMarkup from trivial) here.char
          rw [Step.into, Ribbon.lay_calm fun tag => by simp]
          exact hput ▸ .reopening hhead hsome hbegun
  | @lastArgument command bracket start argument session hmode hchar hnested hnext =>
      have hread : Fits settings here.offset ({ reading with session := session } : Reading π).spaced
        (.argument command bracket start 0) ribbon := hmode ▸ hfits
      exact fits_closeArgument hnext hread
  | inGroup hmode hdepth =>
      rw [hmode] at hfits
      cases hfits with
      | group htag hsome hvoiced =>
          exact .group htag (by simp) (hvoiced.put (htag ▸ trivial) _)
  | @endGroup start prose session hmode hchar hnested =>
      rw [hmode] at hfits
      cases hfits with
      | @group _ _ last rest htag hsome hvoiced =>
          have hmarkup : last.tag.IsMarkup := htag ▸ trivial
          exact fits_andThen_text (fun tag => by simp [Step.emit]) rfl hmarkup
            (@IsVoiced.emit _ _ _ _ { reading with session := session } hvoiced hmarkup prose)

end Step

variable [Package π] {nested : Nested π} {source : Source} {initial reading : Reading π}
variable {ribbon : Ribbon Tag}

/-- Before the first character nothing is heard. -/
theorem isVoiced_start : IsVoiced settings [{ tag := .text }] true :=
  ⟨⟨isLawful_fresh (by decide) _, trivial⟩, by rw [Ribbon.told, heard_fresh]; rfl⟩

theorem Reaches.fits {count : Nat} (hmode : initial.mode = .text) (hspaced : initial.spaced = true)
    (h : (tagger settings nested).Reaches source initial count ribbon reading) :
    Fits settings count reading.spaced reading.mode ribbon := by
  induction h with
  | start =>
      rw [hmode, hspaced]
      exact .text rfl (fun _ => ⟨rfl, by simp⟩) isVoiced_start
  | @step count ribbon reading reading' window edits before hcount hcursor hlist hedits ih =>
      have hmove := move_of_outcome hedits
      rw [hcursor] at hmove
      exact @Move.fits _ _ ⟨source, count⟩ _ _ _ _ _ hmove hcount before.chars ih

theorem IsLawful.settle (h : IsLawful settings ribbon) : IsLawful settings ribbon.settle := by
  unfold Ribbon.settle
  split
  · split
    · exact h.2
    · exact h
  · exact h

/-- The end of a text settles what is still open. -/
theorem Completes.isLawful (hmode : initial.mode = .text) (hspaced : initial.spaced = true)
    (h : (tagger settings nested).Completes source initial ribbon reading) :
    IsLawful settings ribbon := by
  cases h with
  | empty hlength => exact isVoiced_start.lawful
  | @ended ribbon middle _ window edits before hlength hcursor hlist hedits =>
      have hfits := Reaches.fits hmode hspaced before
      obtain ⟨last, rest, hsettle⟩ := List.exists_cons_of_ne_nil before.isSolid.settle.ne_nil
      have hsome : last.chars ≠ [] := (before.settled hlength).2 last (by simp [hsettle])
      have hclose := Ribbon.close_amending (isAmending_onEnd hedits) hsome rest
      have hsource : window.source = source := congrArg Cursor.source hcursor
      have hend : window.offset + 1 = source.length := by
        rw [congrArg Cursor.offset hcursor]
        exact Nat.sub_add_cancel hlength
      rw [hsettle, hclose]
      change (onEnd window).outcome middle = _ at hedits
      rw [outcome_onEnd] at hedits
      split at hedits <;> cases hedits
      next start hmode =>
        rw [hmode] at hfits
        cases hfits with
        | @space _ chars rest' hchars hblank hstart hvoiced =>
            rw [Ribbon.settle_cons hchars] at hsettle
            cases hsettle
            have hslice := Ribbon.slice_of_read before.chars hstart (Nat.le_refl _)
            rw [← hend, ← hsource] at hslice
            obtain ⟨rendering, hfold, hclosed⟩ := fits_closeSpace hchars hblank hslice hvoiced
            exact hfold ▸ hclosed.lawful
      next hmode =>
        rw [hmode] at hfits
        cases hfits with
        | @quote chars rendering rest' hmarks hlawful hspaced =>
            rw [Ribbon.settle_cons (by simp)] at hsettle
            cases hsettle
            constructor
            · apply (Boundary.getD_append _ "\"").trans
              exact (congrArg (· ++ "\"") hmarks).trans (marks_concat_straight settings "\"" chars).symm
            · exact hlawful
      next start hmode =>
        rw [hmode] at hfits
        cases hfits with
        | name htag hchars hvoiced =>
            rw [Ribbon.settle_cons hchars] at hsettle
            cases hsettle
            obtain ⟨rendering, hfold, hresolved⟩ := hvoiced.resolve (htag ▸ trivial)
              { name := window.source.slice start (window.offset + 1) }
            exact hfold ▸ hresolved.lawful
      next hmode =>
        rw [hmode] at hfits
        cases hfits with
        | text htag hempty hvoiced => exact hsettle ▸ hvoiced.lawful.settle
      next hmode =>
        rw [hmode] at hfits
        cases hfits with
        | comment htag hchars hvoiced => exact hsettle ▸ hvoiced.lawful.settle

theorem blankFor_eq_iff {prose known run : String} :
    blankFor known run = blankFor prose run ↔ isSpaced known = isSpaced prose := by
  unfold blankFor
  cases isSpaced known <;> cases isSpaced prose <;> simp

/-- A run of blanks is rendered by what it hears before it: nothing if that is empty or ends in a blank,
itself if it is a single character, a space otherwise. It hears all prose but the quotation marks that make
no pair, so the prose itself decides exactly where those leave its end blank as it was. -/
theorem rendering_of_space {packages : Chain π} {text : String} {document : Document π}
    (h : (Document.withPackages settings packages text).read = (.ok (), document)) :
    ∃ map spans, document.map = .ok map ∧ map.spans = .ok spans ∧
      (∀ span ∈ spans, span.tag = .quotationMarks →
        span.prose = marks settings "\"" span.text.toList) ∧
      ∀ before span after, spans = before ++ span :: after → span.tag = .space →
        span.rendering = blankFor (String.join (before.map (Span.heard settings))) span.text ∧
        (isSpaced (String.join (before.map Span.prose)) = true → span.rendering = none) ∧
        (span.rendering = blankFor (String.join (before.map Span.prose)) span.text ↔
          ¬ (isSpaced (String.join (before.map (Span.heard settings))) = true ∧
            isSpaced (String.join (before.map Span.prose)) = false)) := by
  obtain ⟨map, ribbon, hmap, -, hcompletes, hprojects⟩ := Document.exists_projects h
  have hlawful := Completes.isLawful rfl rfl hcompletes
  refine ⟨map, ribbon.spans, hmap, hprojects.spans, ?_, ?_⟩
  · intro span hspan hquote
    obtain ⟨before, after, hsplit⟩ := List.append_of_mem hspan
    obtain ⟨later, last, earlier, rfl, -, rfl⟩ := Ribbon.exists_of_spans_eq hsplit
    have hlast := hlawful.of_append.1
    have htag : last.tag = .quotationMarks := hquote
    rw [Stretch.prose_span, prose_of_ne_text (by simp [htag])]
    simpa [Stretch.IsLawful, htag, Stretch.span] using hlast
  · intro before span after hsplit hspace
    obtain ⟨later, last, earlier, rfl, rfl, rfl⟩ := Ribbon.exists_of_spans_eq hsplit
    obtain ⟨hlast, hearlier⟩ := hlawful.of_append
    have htag : last.tag = .space := hspace
    rw [Ribbon.join_spans (heard_span settings), Ribbon.join_prose_spans]
    have hrendering : last.rendering =
        blankFor (Ribbon.told (heard settings) earlier) (String.ofList last.chars) := by
      simpa only [Stretch.IsLawful, htag] using hlast
    have hheard := hearlier.isSpaced_heard
    refine ⟨hrendering, ?_, ?_⟩
    · intro hspaced
      apply hrendering.trans
      rw [blankFor, if_pos (hheard hspaced)]
    · change last.rendering = blankFor (Ribbon.prose earlier) (String.ofList last.chars) ↔ _
      rw [hrendering, blankFor_eq_iff]
      cases hknown : isSpaced (Ribbon.told (heard settings) earlier) <;>
        cases hprose : isSpaced (Ribbon.prose earlier) <;> simp_all

theorem rendering_of_space_straight :
    ∃ document map spans,
      (Document.withPackages {} (Chain.bundled {}) "a \" b").read = (.ok (), document) ∧
        document.map = .ok map ∧ map.spans = .ok spans ∧
        ∀ before span after, spans = before ++ span :: after → span.tag = .space →
          span.rendering = blankFor (String.join (before.map (Span.heard {}))) span.text := by
  have hok : (Document.withPackages {} (Chain.bundled {}) "a \" b").read.1.isOk = true := by
    decide +kernel
  obtain ⟨document, hread⟩ := Document.exists_of_isOk hok
  obtain ⟨map, spans, hmap, hspans, -, hspaces⟩ := rendering_of_space hread
  refine ⟨document, map, spans, hread, hmap, hspans, ?_⟩
  intro before span after hsplit hspace
  exact (hspaces before span after hsplit hspace).1

/-- Behind a quotation mark that makes no pair the blank is lost, though the prose does not end in one. -/
theorem space_lost_behind_straight :
    ((Document.withPackages {} (Chain.bundled {}) "a \" b").read.2.map.bind TagMap.spans).toOption =
        some [⟨⟨0, .text, none⟩, 1, "a"⟩, ⟨⟨1, .space, some " "⟩, 2, " "⟩,
          ⟨⟨2, .quotationMarks, some "\""⟩, 3, "\""⟩, ⟨⟨3, .space, none⟩, 4, " "⟩,
          ⟨⟨4, .text, none⟩, 5, "b"⟩] ∧
      isSpaced "a \"" = false := by
  decide +kernel

end TexProse.Latex
