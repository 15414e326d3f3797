import TexProse.Proofs.Latex.Enclosure

/-!
# The characters of the segments

`Tag.Holds` says which characters a segment consists of, and `Tag.EndsBefore` where it has to end. A reading
keeps both of all its segments at every character, whatever mode it is in, as a segment takes one more
character only if it holds that too and gives way to another only in front of a character that it does not
take. Main statement: `read_classifies`.

## Implementation notes

Text that is tagged behind a closed construct may be empty until its character is read, and then that
character may begin a construct of its own. So the rules are followed with `Awaits`, which judges the last
segment by the character that is on its way.
-/

namespace TexProse.Latex
variable {π : Type}

/-- A character that is prose wherever text can stand. -/
def isProse (c : Char) : Bool := !isBlank c && c ∉ ['%', '\\', '"', '{']

/-- A quotation mark, alone or with the character that makes a pair with it. -/
def IsMark (piece : List Char) : Prop := piece ∈ [['"'], ['"', '`'], ['"', '\'']]

/-- Quotation marks one after the other. -/
def IsMarks (chars : List Char) : Prop :=
  ∃ pieces : List (List Char), (∀ piece ∈ pieces, IsMark piece) ∧ chars = pieces.flatten

namespace IsMarks
variable {chars : List Char}

theorem nil : IsMarks [] := ⟨[], by simp, rfl⟩

theorem append (h : IsMarks chars) {piece : List Char} (hpiece : IsMark piece) :
    IsMarks (chars ++ piece) := by
  obtain ⟨pieces, hpieces, rfl⟩ := h
  refine ⟨pieces ++ [piece], ?_, by simp⟩
  intro piece' hmem
  rcases List.mem_append.mp hmem with hmem | hmem
  · exact hpieces piece' hmem
  · rw [List.mem_singleton.mp hmem]
    exact hpiece

/-- A quotation mark at the end stands alone. -/
theorem of_concat (h : IsMarks (chars ++ ['"'])) : IsMarks chars := by
  obtain ⟨pieces, hpieces, hchars⟩ := h
  rcases List.eq_nil_or_concat' pieces with rfl | ⟨before, piece, rfl⟩
  · simp at hchars
  · have hpiece := hpieces piece (by simp)
    have hbefore : IsMarks before.flatten := ⟨before, fun piece' h => hpieces piece' (by simp [h]), rfl⟩
    rw [List.flatten_append, List.flatten_singleton] at hchars
    simp only [IsMark, List.mem_cons, List.not_mem_nil, or_false] at hpiece
    rcases hpiece with rfl | rfl | rfl
    · rwa [List.append_cancel_right hchars]
    · have hlast := congrArg List.getLast? hchars
      simp at hlast
    · have hlast := congrArg List.getLast? hchars
      simp at hlast

end IsMarks

namespace Tag

/-- What the characters of a segment are. -/
def Holds (tag : Tag) (chars : List Char) : Prop :=
  match tag with
  | text => ∀ c ∈ chars, isProse c = true
  | space => ∀ c ∈ chars, isBlank c = true
  | comment => (∀ first ∈ chars.head?, first = '%') ∧ ∀ c ∈ chars, isLineBreak c = false
  | quotationMarks => IsMarks chars
  | command | argument | group => True

/-- Whether a segment can give way to one with the tag `next` that begins with the character `first?`. -/
def EndsBefore (tag next : Tag) (first? : Option Char) : Prop :=
  match tag with
  | space => ∃ c ∈ first?, isBlank c = false
  | comment => next = space ∧ ∃ c ∈ first?, isLineBreak c = true
  | text | quotationMarks | command | argument | group => True

/-- A segment that can end before any character, and at the end of what was read. -/
def IsLoose : Tag → Prop
  | space | comment => False
  | text | quotationMarks | command | argument | group => True

variable {tag next : Tag} {chars : List Char} {first? : Option Char} {c : Char}

theorem holds_nil (tag : Tag) : tag.Holds [] := by
  cases tag with
  | quotationMarks => exact .nil
  | comment => exact ⟨by simp, by simp⟩
  | command | argument | group => trivial
  | text | space => intro c hc; cases hc

theorem IsLoose.endsBefore (h : tag.IsLoose) (next : Tag) (first? : Option Char) :
    tag.EndsBefore next first? := by
  cases tag <;> trivial

/-- What begins behind a segment goes on as it likes. -/
theorem EndsBefore.append (h : tag.EndsBefore next chars.head?) (more : List Char) :
    tag.EndsBefore next (chars ++ more).head? := by
  cases tag with
  | space =>
      obtain ⟨c, hc, hblank⟩ := h
      exact ⟨c, by simp [Option.mem_def.mp hc], hblank⟩
  | comment =>
      obtain ⟨hnext, c, hc, hbreak⟩ := h
      exact ⟨hnext, c, by simp [Option.mem_def.mp hc], hbreak⟩
  | text | quotationMarks | command | argument | group => trivial

/-- Only a comment minds the tag behind it, and only blanks can stand there. -/
theorem EndsBefore.retag (h : tag.EndsBefore next first?) (hnext : next ≠ .space) (tag' : Tag) :
    tag.EndsBefore tag' first? := by
  cases tag with
  | comment => exact absurd h.1 hnext
  | space => exact h
  | text | quotationMarks | command | argument | group => trivial

theorem Holds.text (hc : isProse c = true) (h : Tag.text.Holds chars) : Tag.text.Holds (chars ++ [c]) := by
  simpa [Holds, or_imp, forall_and] using ⟨h, hc⟩

theorem Holds.space (hc : isBlank c = true) (h : Tag.space.Holds chars) : Tag.space.Holds (chars ++ [c]) := by
  simpa [Holds, or_imp, forall_and] using ⟨h, hc⟩

theorem Holds.comment (h : Tag.comment.Holds chars) (hc : isLineBreak c = false)
    (hfirst : chars = [] → c = '%') : Tag.comment.Holds (chars ++ [c]) := by
  obtain ⟨hhead, hline⟩ := h
  constructor
  · cases chars with
    | nil => simpa using hfirst rfl
    | cons first remark => simpa using hhead
  · simpa [or_imp, forall_and] using ⟨hline, hc⟩

end Tag

/-- The last segment first, every segment holds what its tag demands and ends where it can. -/
def IsClassed : Ribbon Tag → Prop
  | [] => True
  | last :: rest =>
    last.tag.Holds last.chars ∧
      (∀ previous ∈ rest.head?, previous.tag.EndsBefore last.tag last.chars.head?) ∧ IsClassed rest

/-- The same, if the last segment takes the character `c`, which it need not hold. -/
def Awaits (c : Char) : Ribbon Tag → Prop
  | [] => False
  | last :: rest =>
    last.tag.Holds last.chars ∧
      (∀ previous ∈ rest.head?, previous.tag.EndsBefore last.tag (last.chars ++ [c]).head?) ∧ IsClassed rest

section Ribbons
variable {last : Stretch Tag} {rest : Ribbon Tag} {c : Char} {tag : Tag}

theorem IsClassed.awaits (h : IsClassed (last :: rest)) (c : Char) : Awaits c (last :: rest) :=
  ⟨h.1, fun previous hprevious => (h.2.1 previous hprevious).append [c], h.2.2⟩

theorem Awaits.put (h : Awaits c (last :: rest)) (hholds : last.tag.Holds (last.chars ++ [c])) :
    IsClassed (Ribbon.put c (last :: rest)) :=
  ⟨hholds, h.2⟩

theorem IsClassed.put (h : IsClassed (last :: rest)) (hholds : last.tag.Holds (last.chars ++ [c])) :
    IsClassed (Ribbon.put c (last :: rest)) :=
  (h.awaits c).put hholds

theorem Awaits.isClassed (h : Awaits c (last :: rest)) (hsome : last.chars ≠ []) :
    IsClassed (last :: rest) := by
  obtain ⟨hholds, hends, hrest⟩ := h
  refine ⟨hholds, ?_, hrest⟩
  intro previous hprevious
  simpa [List.head?_append_of_ne_nil _ hsome] using hends previous hprevious

/-- What begins behind a loose segment may be empty. -/
theorem IsClassed.fresh (h : IsClassed (last :: rest)) (hloose : last.tag.IsLoose) (tag : Tag) :
    IsClassed ({ tag := tag } :: last :: rest) := by
  refine ⟨tag.holds_nil, ?_, h⟩
  rintro previous ⟨⟩
  exact hloose.endsBefore tag none

/-- A character gets a tag that the segment before it can end in front of. -/
theorem Awaits.turn (h : Awaits c (last :: rest)) (hempty : last.chars = [] → last.tag ≠ .space)
    (hends : last.chars ≠ [] → last.tag.EndsBefore tag (some c)) :
    Awaits c (Ribbon.turn tag (last :: rest)) := by
  rw [Ribbon.turn]
  split_ifs with htag hchars hprevious
  · exact h
  · -- the segment before takes the character, though it ended in front of an empty one
    cases rest with
    | nil => cases hprevious
    | cons previous rest => exact h.2.2.awaits c
  · refine ⟨tag.holds_nil, ?_, h.2.2⟩
    intro previous hmem
    have hbefore := h.2.1 previous hmem
    rw [hchars] at hbefore
    exact hbefore.retag (hempty hchars) tag
  · refine ⟨tag.holds_nil, ?_, h.isClassed hchars⟩
    rintro previous ⟨⟩
    exact hends hchars

theorem Awaits.turn_loose (h : Awaits c (last :: rest)) (hloose : last.tag.IsLoose) (tag : Tag) :
    Awaits c (Ribbon.turn tag (last :: rest)) := by
  apply h.turn
  · rintro - hspace
    simp [hspace, Tag.IsLoose] at hloose
  · exact fun _ => hloose.endsBefore tag (some c)

/-- A character that gets a tag is put to the segment with it. -/
theorem Awaits.turn_put (h : Awaits c (Ribbon.turn tag (last :: rest)))
    (hholds : ∀ chars, tag.Holds chars → tag.Holds (chars ++ [c])) :
    IsClassed ((Ribbon.turn tag (last :: rest)).put c) := by
  obtain ⟨head, tail, hturn, rfl⟩ := Ribbon.exists_turn tag (last :: rest)
  rw [hturn] at h ⊢
  exact h.put (hholds head.chars h.1)

theorem IsClassed.amend (h : IsClassed (last :: rest)) (rendering : Option String) :
    IsClassed ({ last with rendering := rendering } :: rest) := h

theorem Awaits.amend (h : Awaits c (last :: rest)) (rendering : Option String) :
    Awaits c ({ last with rendering := rendering } :: rest) := h

theorem IsClassed.settle {ribbon : Ribbon Tag} (h : IsClassed ribbon) : IsClassed ribbon.settle := by
  unfold Ribbon.settle
  split
  · split
    · exact h.2.2
    · exact h
  · exact h

end Ribbons

section Step
variable {here : Cursor} {reading : Reading π} {last : Stretch Tag} {rest ribbon : Ribbon Tag}

/-- The first character behind a construct that is over. -/
theorem isClassed_textRule (htag : last.tag = .text) (h : Awaits here.char (last :: rest)) :
    IsClassed (((textRule here reading).1.foldl Ribbon.edit (last :: rest)).put here.char) := by
  have hturn := h.turn_loose (htag ▸ trivial)
  rw [textRule]
  dsimp only
  split_ifs with hblank hcomment hname hquote hgroup
  · exact (hturn .space).turn_put fun chars => Tag.Holds.space hblank
  · apply (hturn .comment).turn_put
    intro chars hholds
    exact hholds.comment (by rw [hcomment]; decide) fun _ => hcomment
  · exact (hturn .command).turn_put fun chars _ => trivial
  · apply (hturn .quotationMarks).turn_put
    intro chars hmarks
    exact IsMarks.append hmarks (by simp [IsMark, hquote])
  · exact (hturn .group).turn_put fun chars _ => trivial
  · have hprose : isProse here.char = true := by simp [isProse, hblank, hcomment, hname, hquote, hgroup]
    have hholds : last.tag.Holds (last.chars ++ [here.char]) := by
      have hlast := h.1
      rw [htag] at hlast ⊢
      exact hlast.text hprose
    exact h.put hholds

/-- The first character behind a construct that is closed here. -/
theorem isClassed_backToText {step : Step π} (hcalm : Edit.IsCalm step.1)
    (hfold : step.1.foldl Ribbon.edit ribbon = last :: rest) (hsome : last.chars ≠ [])
    (h : IsClassed (last :: rest)) (hends : last.tag.EndsBefore .text (some here.char)) :
    IsClassed (ribbon.lay (backToText here step).1 here.char) := by
  obtain ⟨head, tail, hturn, htag, -, hback⟩ := exists_backToText here hfold hsome
  have hturned : Awaits here.char (Ribbon.turn .text (last :: rest)) :=
    (h.awaits here.char).turn (fun hchars => absurd hchars hsome) fun _ => hends
  rw [hturn] at hturned
  rw [Ribbon.lay_calm (isCalm_backToText here hcalm), hback]
  exact isClassed_textRule htag hturned

/-- Markup that is complete with the current character. -/
theorem isClassed_andThen_text {step : Step π} (hcalm : Edit.IsCalm step.1)
    (hfold : step.1.foldl Ribbon.edit ribbon = last :: rest) (hloose : last.tag.IsLoose)
    (h : IsClassed (Ribbon.put here.char (last :: rest))) :
    IsClassed (ribbon.lay (step.andThen (Step.into .text [.tagNext .text])).1 here.char) := by
  rw [Step.andThen, Step.into, Ribbon.lay_tagNext hcalm, hfold, Ribbon.beginNext]
  split
  · exact h
  · exact h.fresh hloose .text

/-- A bracket behind a command opens an argument. -/
theorem isClassed_open (htag : last.tag = .command) (h : IsClassed (last :: rest)) :
    IsClassed (Ribbon.lay (last :: rest) [.tagNext .argument] here.char) := by
  have hput : IsClassed (Ribbon.put here.char (last :: rest)) := h.put (htag ▸ trivial)
  have hloose : last.tag.IsLoose := htag ▸ trivial
  rw [Ribbon.lay_singleton_tagNext, Ribbon.beginNext]
  split
  · exact hput
  · exact hput.fresh hloose .argument

variable [Package π] {settings : Settings} {nested : Nested π}

/-- A bracket is on its way that closes the last segment. -/
structure AwaitsBracket (bracket : Char) (ribbon : Ribbon Tag) : Prop where
  awaits : Awaits bracket ribbon
  loose : ∀ last ∈ ribbon.head?, last.tag.IsLoose

omit [Package π] in
theorem turns_awaitsBracket (bracket : Char) :
    Turns fun ribbon (_ : Reading π) => AwaitsBracket bracket ribbon := by
  rintro last rest reading - ⟨hawaits, hloose⟩
  obtain ⟨head, tail, hturn, hhead⟩ := Ribbon.exists_turn Tag.command (last :: rest)
  refine ⟨hawaits.turn_loose (hloose last rfl) .command, ?_⟩
  rw [hturn]
  rintro _ ⟨⟩
  exact hhead ▸ trivial

theorem AwaitsBracket.resolve {bracket : Char} (h : AwaitsBracket bracket (last :: rest)) (command : Command)
    (reading : Reading π) :
    ∃ rendering, (Step.resolve command reading).1.foldl Ribbon.edit (last :: rest) =
        { last with rendering := rendering } :: rest ∧
      AwaitsBracket bracket ({ last with rendering := rendering } :: rest) := by
  obtain ⟨rendering, hfold⟩ := exists_rendering (isAmending_resolve reading command) last rest
  refine ⟨rendering, hfold, h.awaits.amend rendering, ?_⟩
  rintro _ ⟨⟩
  exact h.loose last rfl

/-- The bracket behind the last argument is put to the command. -/
theorem isClassed_closeArgument {command command' : Command} {bracket : Bracket} {start depth : Nat}
    (hnext : here.next?.bind Bracket.ofArgument? = none)
    (hfits : Fits settings here.offset reading.spaced (.argument command bracket start depth) ribbon)
    (h : IsClassed ribbon) :
    IsClassed (ribbon.lay (closeArgument here command' (here.offset = start) reading).1 here.char) := by
  cases hfits with
  | @argument _ _ _ _ last rest htag hnone hstart hvoiced =>
      have hopen : AwaitsBracket here.char (last :: rest) := by
        refine ⟨h.awaits here.char, ?_⟩
        rintro _ ⟨⟩
        exact htag ▸ trivial
      have hturns := turns_awaitsBracket (π := π) here.char
      obtain ⟨step, head, tail, hstep, hcalm, hfold, hhead, hclosed⟩ :=
        exists_closeArgument hturns hturns (fun last rest reading _ hlast => hlast.resolve command' reading)
          (htag ▸ trivial) hnone hstart hnext hopen
      rw [hstep]
      exact isClassed_andThen_text hcalm hfold (hclosed.loose head rfl)
        (hclosed.awaits.put (hhead ▸ trivial))

/-- Every move keeps the segments in their classes. -/
theorem Move.isClassed {step : Step π} (h : Move settings nested here reading step)
    (hfits : Fits settings here.offset reading.spaced reading.mode ribbon) (hclassed : IsClassed ribbon) :
    IsClassed (ribbon.lay step.1 here.char) := by
  cases h with
  | text hmode =>
      rw [hmode] at hfits
      cases hfits with
      | text htag hempty hvoiced =>
          rw [Ribbon.lay_calm (isCalm_textRule _ _)]
          exact isClassed_textRule htag (hclassed.awaits here.char)
  | blank hmode hc =>
      rw [hmode] at hfits
      cases hfits with
      | space hsome hblank hstart hvoiced => exact hclassed.put (Tag.Holds.space hc hclassed.1)
  | endSpace hmode hc =>
      rw [hmode] at hfits
      cases hfits with
      | @space _ chars rest hsome hblank hstart hvoiced =>
          obtain ⟨rendering, hfold⟩ :=
            exists_rendering (isAmending_closeSpace here reading _ _) ⟨.space, chars, none⟩ rest
          exact isClassed_backToText (isCalm_closeSpace _ _ _ _) hfold hsome (hclassed.amend rendering)
            ⟨here.char, rfl, hc⟩
  | remark hmode hc =>
      rw [hmode] at hfits
      cases hfits with
      | @comment last rest htag hsome hvoiced =>
          have hholds : last.tag.Holds (last.chars ++ [here.char]) := by
            have hlast := hclassed.1
            rw [htag] at hlast ⊢
            exact hlast.comment hc fun hchars => absurd hchars hsome
          exact hclassed.put hholds
  | endComment hmode hc =>
      rw [hmode] at hfits
      cases hfits with
      | @comment last rest htag hsome hvoiced =>
          rw [Step.into, Ribbon.lay_calm fun tag => by simp]
          have hturned : Awaits here.char (Ribbon.turn .space (last :: rest)) := by
            apply (hclassed.awaits here.char).turn
            · exact fun hchars => absurd hchars hsome
            · rw [htag]
              exact fun _ => ⟨rfl, here.char, rfl, hc⟩
          exact hturned.turn_put fun chars => Tag.Holds.space (isBlank_of_isLineBreak hc)
  | pair hmode hmark =>
      rw [hmode] at hfits
      cases hfits with
      | @quote chars rendering rest hmarks hlawful hspaced =>
          have hmark' : IsMark ['"', here.char] := by
            unfold pairedQuote? at hmark
            split at hmark <;> simp_all [IsMark]
          have hmarks : IsMarks (chars ++ ['"'] ++ [here.char]) := by
            simpa using (IsMarks.of_concat hclassed.1).append hmark'
          apply isClassed_andThen_text (fun tag => by simp [Step.emit]) rfl
          · trivial
          · exact hclassed.put hmarks
  | straight hmode hmark hnotice =>
      rw [hmode] at hfits
      cases hfits with
      | quote hmarks hlawful hspaced =>
          exact isClassed_backToText (fun tag => by simp) rfl (by simp) hclassed trivial
  | nameChar hmode hc =>
      rw [hmode] at hfits
      cases hfits with
      | name htag hsome hvoiced => exact hclassed.put (htag ▸ trivial)
  | escape hmode hshort hc =>
      rw [hmode] at hfits
      cases hfits with
      | @name _ last rest htag hsome hvoiced =>
          obtain ⟨rendering, hfold⟩ := exists_rendering (isAmending_resolve reading _) last rest
          have hput : IsClassed (Ribbon.put here.char (last :: rest)) := hclassed.put (htag ▸ trivial)
          exact isClassed_andThen_text (isCalm_resolve _ _) hfold (htag ▸ trivial) (hput.amend rendering)
  | openArgument hmode hlong hc hbracket =>
      rw [hmode] at hfits
      cases hfits with
      | name htag hsome hvoiced => exact isClassed_open htag hclassed
  | nameSpace hmode hlong hc hbracket hblank =>
      rw [hmode] at hfits
      cases hfits with
      | @name _ last rest htag hsome hvoiced =>
          obtain ⟨rendering, hfold⟩ := exists_rendering (isAmending_resolve reading _) last rest
          rw [Step.andThen, Step.into, Ribbon.lay_calm ((isCalm_resolve _ _).append fun tag => by simp),
            List.foldl_append, hfold]
          have hturned := ((hclassed.amend rendering).awaits here.char).turn_loose (htag ▸ trivial) .space
          exact hturned.turn_put fun chars => Tag.Holds.space hblank
  | endName hmode hlong hc hbracket hblank =>
      rw [hmode] at hfits
      cases hfits with
      | @name _ last rest htag hsome hvoiced =>
          obtain ⟨rendering, hfold⟩ := exists_rendering (isAmending_resolve reading _) last rest
          exact isClassed_backToText (isCalm_resolve _ _) hfold hsome (hclassed.amend rendering)
            (Tag.IsLoose.endsBefore (htag ▸ trivial) _ _)
  | reopening hmode =>
      rw [hmode] at hfits
      cases hfits with
      | reopening htag hsome hvoiced => exact isClassed_open htag hclassed
  | inArgument hmode hdepth =>
      rw [hmode] at hfits
      cases hfits with
      | argument htag hnone hstart hvoiced => exact hclassed.put (htag ▸ trivial)
  | nextArgument hmode hchar hnested hnext =>
      rw [hmode] at hfits
      cases hfits with
      | @argument _ _ _ _ last rest htag hnone hstart hvoiced =>
          rw [Step.into, Ribbon.lay_calm fun tag => by simp]
          have hturned := (hclassed.awaits here.char).turn_loose (htag ▸ trivial) .command
          exact hturned.turn_put fun chars _ => trivial
  | @lastArgument command bracket start argument session hmode hchar hnested hnext =>
      have hread : Fits settings here.offset ({ reading with session := session } : Reading π).spaced
        (.argument command bracket start 0) ribbon := hmode ▸ hfits
      exact isClassed_closeArgument hnext hread hclassed
  | inGroup hmode hdepth =>
      rw [hmode] at hfits
      cases hfits with
      | group htag hsome hvoiced => exact hclassed.put (htag ▸ trivial)
  | endGroup hmode hchar hnested =>
      rw [hmode] at hfits
      cases hfits with
      | group htag hsome hvoiced =>
          apply isClassed_andThen_text (fun tag => by simp [Step.emit]) rfl
          · exact htag ▸ trivial
          · exact (hclassed.put (htag ▸ trivial)).amend _

end Step

section Run
variable [Package π] {settings : Settings} {nested : Nested π} {source : Source} {initial reading : Reading π}
  {ribbon : Ribbon Tag}

/-- A scan keeps the segments in their classes. -/
theorem Reaches.isClassed {count : Nat} (hmode : initial.mode = .text) (hspaced : initial.spaced = true)
    (h : (tagger settings nested).Reaches source initial count ribbon reading) : IsClassed ribbon := by
  induction h with
  | start => exact ⟨Tag.holds_nil .text, by simp, trivial⟩
  | @step count ribbon reading reading' window edits before hcount hcursor hlist hedits ih =>
      have hmove := move_of_outcome hedits
      rw [hcursor] at hmove
      have hfits : Fits settings count reading.spaced reading.mode ribbon := Reaches.fits hmode hspaced before
      exact @Move.isClassed _ ⟨source, count⟩ _ _ _ _ _ _ hmove hfits ih

/-- What a scan leaves is in its classes. -/
theorem Completes.isClassed (hmode : initial.mode = .text) (hspaced : initial.spaced = true)
    (h : (tagger settings nested).Completes source initial ribbon reading) : IsClassed ribbon := by
  cases h with
  | empty hlength => exact ⟨Tag.holds_nil .text, by simp, trivial⟩
  | @ended ribbon state state' window edits before hlength hcursor hlist hedits =>
      obtain ⟨-, hfull⟩ := before.settled hlength
      have hamending := isAmending_onEnd hedits
      have hsettled := (Reaches.isClassed hmode hspaced before).settle
      obtain ⟨last, rest, hsettle⟩ := List.exists_cons_of_ne_nil before.isSolid.settle.ne_nil
      rw [hsettle] at hfull hsettled ⊢
      obtain ⟨rendering, hfold⟩ := exists_rendering hamending last rest
      rw [Ribbon.close_amending hamending (hfull last List.mem_cons_self), hfold]
      exact hsettled.amend rendering

end Run

namespace IsClassed
variable {ribbon : Ribbon Tag}

theorem holds_spans (h : IsClassed ribbon) :
    ∀ span ∈ ribbon.spans, span.tag.Holds span.text.toList := by
  induction ribbon with
  | nil => intro span hspan; cases hspan
  | cons last rest ih =>
      intro span hspan
      rcases List.mem_append.mp hspan with hspan | hspan
      · exact ih h.2.2 span hspan
      · rw [List.mem_singleton.mp hspan]
        simpa [Stretch.span, Stretch.boundary] using h.1

theorem isChain_spans (h : IsClassed ribbon) :
    ribbon.spans.IsChain fun a b => a.tag.EndsBefore b.tag b.text.toList.head? := by
  induction ribbon with
  | nil => exact .nil
  | cons last rest ih =>
      apply List.isChain_append.mpr
      refine ⟨ih h.2.2, List.isChain_singleton _, ?_⟩
      rintro span hspan _ ⟨⟩
      cases rest with
      | nil => cases hspan
      | cons previous rest =>
          simp only [Ribbon.spans, List.getLast?_append, List.getLast?_singleton, Option.some_or,
            Option.mem_some_iff] at hspan
          subst hspan
          simpa [Stretch.span, Stretch.boundary] using h.2.1 previous rfl

end IsClassed

/-- A span holds what its tag demands and ends where the next one can begin. -/
structure Classified (span : Span Tag) (after : List (Span Tag)) : Prop where
  text : span.tag = .text → ∀ c ∈ span.text.toList, isBlank c = false ∧ c ∉ ['%', '\\', '"', '{']
  space : span.tag = .space → (∀ c ∈ span.text.toList, isBlank c = true) ∧
    ∀ next ∈ after.head?, ∃ c ∈ next.text.toList.head?, isBlank c = false
  comment : span.tag = .comment → span.text.toList.head? = some '%' ∧
    (∀ c ∈ span.text.toList, c ≠ '\n' ∧ c ≠ '\r') ∧
    ∀ next ∈ after.head?, next.tag = .space ∧ ∃ c ∈ next.text.toList.head?, c = '\n' ∨ c = '\r'
  quotationMarks : span.tag = .quotationMarks → ∃ pieces,
    (∀ piece ∈ pieces, piece ∈ ["\"", "\"`", "\"'"]) ∧ span.text = String.join pieces

theorem classified {span : Span Tag} {after : List (Span Tag)} (hsome : span.tag = .comment → span.text ≠ "")
    (hholds : span.tag.Holds span.text.toList)
    (hends : ∀ next ∈ after.head?, span.tag.EndsBefore next.tag next.text.toList.head?) :
    Classified span after where
  text htag c hc := by
    rw [htag] at hholds
    simpa [isProse] using hholds c hc
  space htag := by
    rw [htag] at hholds hends
    exact ⟨hholds, hends⟩
  comment htag := by
    have hnil : span.text.toList ≠ [] := fun hnil => hsome htag (String.toList_eq_nil_iff.mp hnil)
    rw [htag] at hholds hends
    obtain ⟨hhead, hline⟩ := hholds
    refine ⟨?_, ?_, ?_⟩
    · obtain ⟨first, remark, hchars⟩ := List.exists_cons_of_ne_nil hnil
      rw [hchars] at hhead ⊢
      exact congrArg some (hhead first rfl)
    · intro c hc
      simpa [isLineBreak] using hline c hc
    · intro next hnext
      obtain ⟨htag, c, hc, hbreak⟩ := hends next hnext
      exact ⟨htag, c, hc, by simpa [isLineBreak] using hbreak⟩
  quotationMarks htag := by
    rw [htag] at hholds
    obtain ⟨pieces, hpieces, htext⟩ := hholds
    refine ⟨pieces.map String.ofList, ?_, ?_⟩
    · intro piece hpiece
      obtain ⟨chars, hchars, rfl⟩ := List.mem_map.mp hpiece
      have hmark := hpieces chars hchars
      simp only [IsMark, List.mem_cons, List.not_mem_nil, or_false] at hmark
      rcases hmark with rfl | rfl | rfl <;> decide
    · apply String.toList_inj.mp
      simp [htext, String.toList_join, List.flatMap_map, List.flatMap_id']

/-- In a document that was read every segment consists of the characters of its kind and ends where they do:
text holds no blank and nothing that begins a construct, blanks are never followed by another one, a comment
goes on to the end of its line, and quotation marks follow each other whole. Only the segment of an empty
document is empty. -/
theorem read_classifies [Package π] {settings : Settings} {packages : Chain π} {text : String}
    {document : Document π} (h : (Document.withPackages settings packages text).read = (.ok (), document)) :
    ∃ map spans, document.map = .ok map ∧ map.spans = .ok spans ∧
      (text = "" → spans = [⟨{ start := 0, tag := .text }, 0, ""⟩]) ∧
      (text ≠ "" → ∀ span ∈ spans, span.text ≠ "") ∧
      ∀ before span after, spans = before ++ span :: after → Classified span after := by
  obtain ⟨map, ribbon, hmap, -, hcompletes, hprojects⟩ := Document.exists_projects h
  have hclassed := Completes.isClassed rfl rfl hcompletes
  have hempty : text = "" → ribbon = [{ tag := .text }] := by
    rintro rfl
    exact hcompletes.eq_single rfl
  have hfull : text ≠ "" → ∀ span ∈ ribbon.spans, span.text ≠ "" := by
    intro htext span hspan
    obtain ⟨before, after, hsplit⟩ := List.append_of_mem hspan
    obtain ⟨later, last, earlier, rfl, -, rfl⟩ := Ribbon.exists_of_spans_eq hsplit
    have hlength : 0 < (Source.ofString text).length := by
      rw [Source.length_ofString, ← String.length_toList]
      exact List.length_pos_iff.mpr fun hnil => htext (String.toList_eq_nil_iff.mp hnil)
    simpa [Stretch.span] using hcompletes.full hlength last (by simp)
  refine ⟨map, ribbon.spans, hmap, hprojects.spans, ?_, hfull, ?_⟩
  · intro htext
    rw [hempty htext]
    rfl
  · intro before span after hsplit
    have hspan : span ∈ ribbon.spans := by simp [hsplit]
    apply classified
    · intro htag
      by_cases htext : text = ""
      · rw [hempty htext] at hspan
        rw [List.mem_singleton.mp hspan] at htag
        cases htag
      · exact hfull htext span hspan
    · exact hclassed.holds_spans span hspan
    · have hchain := hclassed.isChain_spans
      rw [hsplit] at hchain
      exact (List.isChain_cons.mp (List.isChain_append.mp hchain).2.1).1

theorem read_classifies_comment :
    ∃ document map spans,
      (Document.withPackages {} (Chain.bundled {}) "a%b\n \"\"`c\"'").read = (.ok (), document) ∧
        document.map = .ok map ∧ map.spans = .ok spans ∧ (∀ span ∈ spans, span.text ≠ "") ∧
        ∀ before span after, spans = before ++ span :: after → Classified span after := by
  have hok : (Document.withPackages {} (Chain.bundled {}) "a%b\n \"\"`c\"'").read.1.isOk = true := by
    decide +kernel
  obtain ⟨document, hread⟩ := Document.exists_of_isOk hok
  obtain ⟨map, spans, hmap, hspans, -, hfull, hclassified⟩ := read_classifies hread
  exact ⟨document, map, spans, hread, hmap, hspans, hfull (by decide), hclassified⟩

end TexProse.Latex
