import TexProse.Proofs.Latex.Speech
import TexProse.Proofs.Tagging.Keeping
import TexProse.Proofs.Tagging.Visits

/-!
# The emissions of a reading

A visit emits what its edits attach, and then the character itself if the rule for text takes it literally.
No move attaches anything to text, renders a segment a second time, or gives another tag to a segment that
is rendered already, so nothing emitted is lost. Main statement: `prose_eq_emissions`.
-/

namespace TexProse.Latex
variable {π : Type} {settings : Settings}

/-- Whether the rule of a mode hands the current character on to the rule for text. -/
def Mode.handsOn (settings : Settings) (here : Cursor) : Mode → Bool
  | .text => true
  | .space _ => !isBlank here.char
  | .quote => (pairedQuote? settings here.char).isNone
  | .name start =>
    !decide (here.offset - start ≤ 1) && !isNameChar here.char &&
      (Bracket.ofArgument? here.char).isNone && !isBlank here.char
  | .comment | .argument _ _ _ _ | .reopening _ _ | .group _ _ => false

/-- Whether a character is literal text: its rule hands it on to the rule for text, which opens no
construct. -/
def Mode.isLiteral (settings : Settings) (here : Cursor) (mode : Mode) : Bool :=
  mode.handsOn settings here && Mode.ofChar here.offset here.char = .text

def isLiteral (settings : Settings) (visit : Visit Tag (Reading π)) : Bool :=
  visit.state.mode.isLiteral settings visit.window.toCursor

/-- What a visit emits, in its order. -/
def emissions (settings : Settings) (visit : Visit Tag (Reading π)) : List String :=
  visit.edits.map Edit.attached ++
    if isLiteral settings visit then [String.ofList [visit.window.char]] else []

section Takes
variable {here : Cursor} {last : Stretch Tag} {rest : Ribbon Tag} {reading : Reading π}

theorem Tag.isPlain_eq_false {tag : Tag} (h : tag ≠ .text) : SegmentTag.isPlain tag = false :=
  decide_eq_false h

theorem isClean_of_ne_nil (hsome : last.chars ≠ []) : Ribbon.IsClean (last :: rest) := by
  rintro _ ⟨⟩ hchars
  exact absurd hchars hsome

/-- The rule for text tags its character as text exactly where it opens no construct. -/
theorem exists_takes_textRule (htag : last.tag = .text) (hclean : Ribbon.IsClean (last :: rest)) :
    ∃ tag, Ribbon.Takes (last :: rest) (textRule here reading).1 tag ∧
      (tag = .text ↔ Mode.ofChar here.offset here.char = .text) := by
  rcases textRule_cases here reading with ⟨tag, htag', hopens, hrule⟩ | ⟨htext, -, reading', hrule, -⟩
  · refine ⟨tag, ?_, by simp [htag', hopens]⟩
    rw [hrule]
    exact .tagHere hclean tag
  · refine ⟨last.tag, ?_, by simp [htag, htext]⟩
    rw [hrule]
    exact .nil

/-- Edits that only render leave the characters of a segment, so a tag may follow. -/
theorem takes_amending_tagHere {edits : List (Edit Tag)} {tag : Tag} (hsome : last.chars ≠ [])
    (hamending : ∀ e ∈ edits, e.IsAmending) (h : Ribbon.Takes (last :: rest) edits tag) (tag' : Tag) :
    Ribbon.Takes (last :: rest) (edits ++ [.tagHere tag']) tag' := by
  obtain ⟨rendering, hfold⟩ := Ribbon.foldl_amending hamending last rest
  have hclean : Ribbon.IsClean ({ last with rendering := rendering } :: rest) := isClean_of_ne_nil hsome
  apply h.append
  have hwhole : edits.foldl Ribbon.edit (last :: rest) = { last with rendering := rendering } :: rest :=
    hfold last.chars
  rw [hwhole]
  exact .tagHere hclean tag'

/-- Where a construct is closed, its character is tagged by the rule for text. -/
theorem exists_takes_backToText {step : Step π} {tag : Tag} (hsome : last.chars ≠ [])
    (hamending : ∀ e ∈ step.1, e.IsAmending) (hstep : Ribbon.Takes (last :: rest) step.1 tag) :
    ∃ tag', Ribbon.Takes (last :: rest) (backToText here step).1 tag' ∧
      (tag' = .text ↔ Mode.ofChar here.offset here.char = .text) := by
  obtain ⟨rendering, hfold⟩ := Ribbon.foldl_amending hamending last rest
  obtain ⟨head, tail, hturn, htag, hempty, -⟩ := exists_backToText here (hfold last.chars) hsome
  have hclean : Ribbon.IsClean (head :: tail) := by
    rintro _ ⟨⟩ hchars
    rw [(hempty hchars).1]
  obtain ⟨tag', htext, hiff⟩ := @exists_takes_textRule _ here head tail (step.2.enter .text) htag hclean
  have hwhole : (step.1 ++ [Edit.tagHere Tag.text]).foldl Ribbon.edit (last :: rest) = head :: tail := by
    rw [List.foldl_append, ← hturn]
    exact congrArg (Ribbon.turn Tag.text) (hfold last.chars)
  refine ⟨tag', ?_, hiff⟩
  have hturned := takes_amending_tagHere hsome hamending hstep .text
  have happended := hturned.append (hwhole.symm ▸ htext)
  rwa [List.append_assoc] at happended

theorem takes_closeSpace {start stop : Nat} {chars : List Char} :
    Ribbon.Takes (⟨.space, chars, none⟩ :: rest) (closeSpace here start stop reading).1 .space := by
  rw [closeSpace]
  split
  · exact .nil
  · exact .cons ⟨_, rest, rfl, Tag.isPlain_eq_false (by simp), rfl⟩ .nil

theorem takes_append (htag : last.tag ≠ .text) (text : String) :
    Ribbon.Takes (last :: rest) [.append text] last.tag :=
  .cons ⟨last, rest, rfl, Tag.isPlain_eq_false htag⟩ .nil

theorem takes_resolve [Package π] (htag : last.tag ≠ .text) (command : Command) :
    Ribbon.Takes (last :: rest) (Step.resolve command reading).1 last.tag := by
  rw [Step.resolve]
  split
  · exact takes_append htag _
  · exact .nil

/-- A step that gives the next character a tag has done with the current one. -/
theorem takes_andThen_tagNext {step : Step π} {ribbon : Ribbon Tag} {tag : Tag} {mode : Mode}
    (h : Ribbon.Takes ribbon step.1 tag) (next : Tag) :
    Ribbon.Takes ribbon (step.andThen (Step.into mode [.tagNext next])).1 tag := by
  obtain ⟨last, rest, hfold, rfl⟩ := h.head
  apply h.append
  rw [hfold]
  exact .cons trivial .nil

end Takes

variable [Package π] {nested : Nested π} {here : Cursor} {reading : Reading π} {step : Step π}
variable {ribbon : Ribbon Tag}

/-- The last bracket turns to the command and puts it, in the one order or the other. -/
theorem takes_closeArgument {command : Command} {isEmpty : Bool} {last : Stretch Tag} {rest : Ribbon Tag}
    (htag : last.tag ≠ .text) (hclean : Ribbon.IsClean (last :: rest))
    (hsome : isEmpty = false → last.chars ≠ []) :
    Ribbon.Takes (last :: rest) (closeArgument here command isEmpty reading).1 .command := by
  rw [closeArgument]
  split
  · exact .tagHere hclean .command
  · cases isEmpty with
    | true =>
        obtain ⟨head, tail, hturn, hhead⟩ := Ribbon.exists_turn Tag.command (last :: rest)
        apply takes_andThen_tagNext
        refine Ribbon.Takes.append (.tagHere hclean .command) ?_
        change Ribbon.Takes (Ribbon.turn .command (last :: rest)) _ _
        rw [hturn, ← hhead]
        exact takes_resolve (by simp [hhead]) command
    | false =>
        have hresolved : Ribbon.Takes (last :: rest) (Step.resolve command reading).1 last.tag :=
          takes_resolve htag command
        have hturned := takes_amending_tagHere (hsome rfl) (isAmending_resolve reading command) hresolved
          .command
        obtain ⟨head, tail, hfold, hhead⟩ := hturned.head
        have hlast : Ribbon.Takes (head :: tail) [.tagNext .text] head.tag := .cons trivial .nil
        have happended := hturned.append (hfold.symm ▸ hlast)
        rw [List.append_assoc, hhead] at happended
        exact happended

/-- Behind a literal character a reading is in text, and only there it is so without having told the next
character that text begins. -/
theorem Move.isLiteral_iff (h : Move settings nested here reading step) :
    reading.mode.isLiteral settings here = true ↔ step.2.mode = .text ∧ .tagNext .text ∉ step.1 := by
  have hback (closing : Step π) (hcalm : Edit.IsCalm closing.1) :
      Mode.ofChar here.offset here.char = .text ↔
        (backToText here closing).2.mode = .text ∧ .tagNext .text ∉ (backToText here closing).1 := by
    rw [backToText, Step.andThen, Step.andThen, mode_textRule]
    exact (and_iff_left (isCalm_backToText here hcalm .text)).symm
  cases h with
  | text hmode =>
      simp only [Mode.isLiteral, hmode, Mode.handsOn, Bool.true_and, decide_eq_true_eq, mode_textRule]
      exact (and_iff_left (isCalm_textRule here reading .text)).symm
  | endSpace hmode hc =>
      simpa [Mode.isLiteral, hmode, Mode.handsOn, hc] using hback _ (isCalm_closeSpace _ _ _ _)
  | straight hmode hmark hnotice =>
      simpa [Mode.isLiteral, hmode, Mode.handsOn, hmark] using
        hback ([.append "\""], _) (fun tag => by simp)
  | endName hmode hlong hc hbracket hblank =>
      simpa [Mode.isLiteral, hmode, Mode.handsOn, hlong, hc, hbracket, hblank] using
        hback _ (isCalm_resolve _ _)
  | blank hmode hc => simp [Mode.isLiteral, hmode, Mode.handsOn, hc, Step.edit]
  | nameChar hmode hc =>
      simp only [Mode.isLiteral, hmode, Mode.handsOn, Step.edit]
      split at hc <;> simp [*]
  | lastArgument hmode hchar hnested hnext =>
      simp only [Mode.isLiteral, hmode, Mode.handsOn, closeArgument, hnext]
      split <;> simp [Step.andThen, Step.into]
  | _ => simp_all [Mode.isLiteral, Mode.handsOn, Step.andThen, Step.into, Step.edit, Reading.enter]

/-- Every move leaves all renderings, and tags the character as text exactly where it is literal. -/
theorem Move.exists_takes (h : Move settings nested here reading step)
    (hfits : Fits settings here.offset reading.spaced reading.mode ribbon) :
    ∃ tag, Ribbon.Takes ribbon step.1 tag ∧
      (tag = .text ↔ reading.mode.isLiteral settings here = true) := by
  have hliteral (hhands : reading.mode.handsOn settings here = true) {tag : Tag}
      (htag : tag = .text ↔ Mode.ofChar here.offset here.char = .text) :
      tag = .text ↔ reading.mode.isLiteral settings here = true := by
    simp [Mode.isLiteral, hhands, htag]
  have hmarkup (hhands : reading.mode.handsOn settings here = false) {tag : Tag} (htag : tag ≠ .text) :
      tag = .text ↔ reading.mode.isLiteral settings here = true := by
    simp [Mode.isLiteral, hhands, htag]
  cases h with
  | text hmode =>
      rw [hmode] at hfits
      cases hfits with
      | text htag hempty hvoiced =>
          obtain ⟨tag, htakes, hiff⟩ := exists_takes_textRule htag (by
            rintro _ ⟨⟩ hchars
            exact (hempty hchars).1)
          exact ⟨tag, htakes, hliteral (by rw [hmode]; rfl) hiff⟩
  | blank hmode hc =>
      rw [hmode] at hfits
      cases hfits with
      | space hsome hblank hstart hvoiced =>
          exact ⟨.space, .nil, hmarkup (by simp [hmode, Mode.handsOn, hc]) (by simp)⟩
  | endSpace hmode hc =>
      rw [hmode] at hfits
      cases hfits with
      | space hsome hblank hstart hvoiced =>
          obtain ⟨tag, htakes, hiff⟩ := exists_takes_backToText hsome
            (isAmending_closeSpace here reading _ _) takes_closeSpace
          exact ⟨tag, htakes, hliteral (by simp [hmode, Mode.handsOn, hc]) hiff⟩
  | remark hmode hc =>
      rw [hmode] at hfits
      cases hfits with
      | comment htag hsome hvoiced =>
          exact ⟨_, .nil, hmarkup (by rw [hmode]; rfl) (by simp [htag])⟩
  | endComment hmode hc =>
      rw [hmode] at hfits
      cases hfits with
      | comment htag hsome hvoiced =>
          exact ⟨.space, .tagHere (isClean_of_ne_nil hsome) .space,
            hmarkup (by rw [hmode]; rfl) (by simp)⟩
  | pair hmode hmark =>
      rw [hmode] at hfits
      cases hfits with
      | quote hmarks hlawful hspaced =>
          exact ⟨.quotationMarks, takes_andThen_tagNext (takes_append (by simp) _) .text,
            hmarkup (by simp [hmode, Mode.handsOn, hmark]) (by simp)⟩
  | straight hmode hmark hnotice =>
      rw [hmode] at hfits
      cases hfits with
      | @quote chars rendering rest hmarks hlawful hspaced =>
          have hshown : Ribbon.Takes (⟨Tag.quotationMarks, chars ++ ['"'], rendering⟩ :: rest)
              [.append "\""] Tag.quotationMarks := takes_append (by simp) "\""
          obtain ⟨tag, htakes, hiff⟩ := @exists_takes_backToText _ here _ _
            ([.append "\""], reading.notify _) _ (by simp) (by simp [Edit.IsAmending]) hshown
          exact ⟨tag, htakes, hliteral (by simp [hmode, Mode.handsOn, hmark]) hiff⟩
  | nameChar hmode hc =>
      rw [hmode] at hfits
      cases hfits with
      | name htag hsome hvoiced =>
          refine ⟨_, .nil, hmarkup ?_ (by simp [htag])⟩
          rw [hmode, Mode.handsOn]
          split at hc
          next hshort => simp [hshort]
          next => simp [hc]
  | escape hmode hshort hc =>
      rw [hmode] at hfits
      cases hfits with
      | name htag hsome hvoiced =>
          refine ⟨_, takes_andThen_tagNext (takes_resolve (by simp [htag]) _) .text,
            hmarkup ?_ (by simp [htag])⟩
          simp [hmode, Mode.handsOn, hshort]
  | openArgument hmode hlong hc hbracket =>
      rw [hmode] at hfits
      cases hfits with
      | name htag hsome hvoiced =>
          exact ⟨_, .cons trivial .nil,
            hmarkup (by simp [hmode, Mode.handsOn, hbracket]) (by simp [htag])⟩
  | nameSpace hmode hlong hc hbracket hblank =>
      rw [hmode] at hfits
      cases hfits with
      | name htag hsome hvoiced =>
          exact ⟨.space, takes_amending_tagHere hsome (isAmending_resolve reading _)
            (takes_resolve (by simp [htag]) _) .space,
            hmarkup (by simp [hmode, Mode.handsOn, hblank]) (by simp)⟩
  | endName hmode hlong hc hbracket hblank =>
      rw [hmode] at hfits
      cases hfits with
      | name htag hsome hvoiced =>
          obtain ⟨tag, htakes, hiff⟩ := exists_takes_backToText hsome (isAmending_resolve reading _)
            (takes_resolve (by simp [htag]) _)
          exact ⟨tag, htakes,
            hliteral (by simp [hmode, Mode.handsOn, hc, hbracket, hblank, hlong]) hiff⟩
  | reopening hmode =>
      rw [hmode] at hfits
      cases hfits with
      | reopening htag hsome hvoiced =>
          exact ⟨_, .cons trivial .nil, hmarkup (by rw [hmode]; rfl) (by simp [htag])⟩
  | inArgument hmode hdepth =>
      rw [hmode] at hfits
      cases hfits with
      | argument htag hnone hstart hvoiced =>
          exact ⟨_, .nil, hmarkup (by rw [hmode]; rfl) (by simp [htag])⟩
  | nextArgument hmode hchar hnested hnext =>
      rw [hmode] at hfits
      cases hfits with
      | argument htag hnone hstart hvoiced =>
          refine ⟨.command, Ribbon.Takes.tagHere ?_ Tag.command, hmarkup (by rw [hmode]; rfl) (by simp)⟩
          rintro _ ⟨⟩ -
          exact hnone
  | lastArgument hmode hchar hnested hnext =>
      rw [hmode] at hfits
      cases hfits with
      | argument htag hnone hstart hvoiced =>
          refine ⟨.command, takes_closeArgument (by simp [htag]) ?_ ?_,
            hmarkup (by rw [hmode]; rfl) (by simp)⟩
          · rintro _ ⟨⟩ -
            exact hnone
          · intro hfilled hchars
            rw [hchars] at hstart
            simp [← hstart] at hfilled
  | inGroup hmode hdepth =>
      rw [hmode] at hfits
      cases hfits with
      | group htag hsome hvoiced =>
          exact ⟨_, .nil, hmarkup (by rw [hmode]; rfl) (by simp [htag])⟩
  | endGroup hmode hchar hnested =>
      rw [hmode] at hfits
      cases hfits with
      | group htag hsome hvoiced =>
          exact ⟨_, takes_andThen_tagNext (takes_append (by simp [htag]) _) .text,
            hmarkup (by rw [hmode]; rfl) (by simp [htag])⟩

/-- At the end of the text the last segment may be rendered, if it is not text. -/
theorem exists_takes_onEnd {window : Window Tag} {reading' : Reading π} {edits : List (Edit Tag)}
    {count : Nat} (hsolid : ribbon.IsSolid) (hfits : Fits settings count reading.spaced reading.mode ribbon)
    (h : (onEnd window).outcome reading = (.ok edits, reading')) :
    ∃ tag, Ribbon.Takes ribbon.settle edits tag := by
  have hsilent : ∃ tag, Ribbon.Takes ribbon.settle [] tag := by
    obtain ⟨last, rest, hsettle⟩ := List.exists_cons_of_ne_nil hsolid.settle.ne_nil
    rw [hsettle]
    exact ⟨_, .nil⟩
  rw [outcome_onEnd] at h
  split at h <;> cases h
  next start hmode =>
    rw [hmode] at hfits
    cases hfits with
    | space hsome hblank hstart hvoiced =>
        rw [Ribbon.settle_cons hsome]
        exact ⟨.space, takes_closeSpace⟩
  next hmode =>
    rw [hmode] at hfits
    cases hfits with
    | quote hmarks hlawful hspaced =>
        rw [Ribbon.settle_cons (by simp)]
        exact ⟨.quotationMarks, takes_append (by simp) _⟩
  next start hmode =>
    rw [hmode] at hfits
    cases hfits with
    | name htag hsome hvoiced =>
        rw [Ribbon.settle_cons hsome]
        exact ⟨_, takes_resolve (by simp [htag]) _⟩
  · exact hsilent
  · exact hsilent

/-- A segment that nothing was read into is not rendered. -/
theorem Fits.isClean {offset : Nat} {spaced : Bool} {mode : Mode}
    (h : Fits settings offset spaced mode ribbon) : ribbon.IsClean := by
  rintro last hlast hchars
  cases h with
  | text htag hempty => cases hlast; exact (hempty hchars).1
  | space hsome => cases hlast; exact absurd hchars hsome
  | comment htag hsome => cases hlast; exact absurd hchars hsome
  | quote => cases hlast; simp at hchars
  | name htag hsome => cases hlast; exact absurd hchars hsome
  | argument htag hnone => cases hlast; exact hnone
  | reopening htag hsome => cases hlast; exact absurd hchars hsome
  | group htag hsome => cases hlast; exact absurd hchars hsome

/-- The visits behind a ribbon, and the one at the end of the text once it is over: what they emitted is
the prose, the characters are text where they were literal, and whatever was rendered in the course of a
visit is rendered still. -/
structure Accounts (settings : Settings) (visits closing : List (Visit Tag (Reading π)))
    (ribbon : Ribbon Tag) : Prop where
  offsets : visits.map (·.window.offset) = List.range ribbon.chars.length
  prose : ribbon.prose = String.join
    (visits.flatMap (emissions settings) ++ closing.flatMap fun visit => visit.edits.map Edit.attached)
  literal : (Ribbon.charTags ribbon).map SegmentTag.isPlain = visits.map (isLiteral settings)
  keeps : ∀ visit ∈ visits ++ closing, ∀ first, first <+: visit.edits →
    Keeps (visit.window.editAll first).segments.toList ribbon.boundaries

omit [Package π] in
theorem accounts_start : Accounts settings ([] : List (Visit Tag (Reading π))) [] [{ tag := .text }] :=
  ⟨rfl, Stretch.prose_fresh Tag.text, rfl, fun _ h => absurd h List.not_mem_nil⟩

/-- What is rendered after some of the edits of a visit is rendered after all of them. -/
theorem keeps_foldl {first edits : List (Edit Tag)} {tag : Tag} (hfirst : first <+: edits)
    (htakes : Ribbon.Takes ribbon edits tag) :
    Keeps (first.foldl Ribbon.edit ribbon).boundaries (edits.foldl Ribbon.edit ribbon).boundaries := by
  obtain ⟨second, rfl⟩ := hfirst
  rw [List.foldl_append]
  exact htakes.of_append.keeps

section Run
variable {source : Source} {initial : Reading π} {visits : List (Visit Tag (Reading π))}
variable {visit : Visit Tag (Reading π)} {tag : Tag}

omit [Package π] in
theorem Accounts.concat (h : Accounts settings visits [] ribbon) (hsolid : ribbon.IsSolid)
    (hoffset : visit.window.offset = ribbon.chars.length)
    (hlist : visit.window.segments.toList = ribbon.boundaries)
    (htakes : Ribbon.Takes ribbon visit.edits tag)
    (hliteral : SegmentTag.isPlain tag = isLiteral settings visit) :
    Accounts settings (visits ++ [visit]) [] (ribbon.lay visit.edits visit.window.char) where
  offsets := by
    rw [List.map_append, h.offsets, Ribbon.chars_lay hsolid, List.length_append, List.length_singleton,
      List.range_succ, List.map_singleton, hoffset]
  prose := by
    rw [htakes.prose_lay, h.prose, hliteral]
    simp only [List.flatMap_nil, List.append_nil, List.flatMap_append, List.flatMap_singleton, emissions,
      String.join_append, ← String.append_assoc]
    cases isLiteral settings visit <;> rfl
  literal := by
    rw [htakes.charTags_lay, List.map_append, List.map_append, h.literal, List.map_singleton,
      List.map_singleton, hliteral]
  keeps := by
    intro found hfound first hfirst
    have hlaid := Ribbon.keeps_lay ribbon visit.edits visit.window.char
    rw [List.append_nil] at hfound
    rcases List.mem_append.mp hfound with hfound | hfound
    · have hkept := h.keeps found (List.mem_append_left _ hfound) first hfirst
      exact (hkept.trans htakes.keeps).trans hlaid
    · obtain rfl := List.mem_singleton.mp hfound
      exact Window.keeps_editAll hsolid hoffset hlist ((keeps_foldl hfirst htakes).trans hlaid)

omit [Package π] in
/-- At the end of the text only the last segment changes. -/
theorem Accounts.close (h : Accounts settings visits [] ribbon) (hsolid : ribbon.IsSolid)
    (hclean : ribbon.IsClean) (hfull : ∀ stretch ∈ ribbon.settle, stretch.chars ≠ [])
    (hoffset : visit.window.offset + 1 = ribbon.chars.length)
    (hlist : visit.window.segments.toList = ribbon.settle.boundaries)
    (hamending : ∀ e ∈ visit.edits, e.IsAmending) (htakes : Ribbon.Takes ribbon.settle visit.edits tag) :
    Accounts settings visits [visit] (ribbon.settle.close visit.edits) := by
  have hclose : ribbon.settle.close visit.edits = visit.edits.foldl Ribbon.edit ribbon.settle := by
    obtain ⟨last, rest, hsettle⟩ := List.exists_cons_of_ne_nil hsolid.settle.ne_nil
    rw [hsettle]
    exact Ribbon.close_amending hamending (hfull last (by simp [hsettle])) rest
  rw [hclose]
  constructor
  · rw [Ribbon.chars_foldl_edit, Ribbon.chars_settle, h.offsets]
  · have hprose : ribbon.settle.prose = ribbon.prose := Ribbon.told_settle hclean.prose_eq
    rw [htakes.prose, hprose, h.prose]
    simp [String.join_append]
  · rw [Ribbon.charTags_foldl_edit, Ribbon.charTags_settle, h.literal]
  · intro found hfound first hfirst
    rcases List.mem_append.mp hfound with hfound | hfound
    · have hkept := h.keeps found (List.mem_append_left _ hfound) first hfirst
      exact (hkept.trans (Ribbon.keeps_settle hclean)).trans htakes.keeps
    · obtain rfl := List.mem_singleton.mp hfound
      rw [← Ribbon.chars_settle] at hoffset
      apply Window.keeps_editAll_retake hsolid.settle hfull hoffset hlist _ (keeps_foldl hfirst htakes)
      intro e he
      exact hamending e (hfirst.subset he)

omit [Package π] in
/-- The segment of a visited character is text exactly where the character is literal. -/
theorem Accounts.exists_touches {closing : List (Visit Tag (Reading π))}
    (h : Accounts settings visits closing ribbon) (hvisit : visit ∈ visits) :
    ∃ span, ribbon.spans.filter (·.touches visit.window.offset (visit.window.offset + 1)) = [span] ∧
      (span.tag = .text ↔ isLiteral settings visit = true) := by
  obtain ⟨index, hindex⟩ := List.getElem?_of_mem hvisit
  have hoffset : (List.range ribbon.chars.length)[index]? = some visit.window.offset := by
    rw [← h.offsets, List.getElem?_map, hindex, Option.map_some]
  obtain ⟨hlt, rfl⟩ : index < ribbon.chars.length ∧ index = visit.window.offset := by
    simpa [List.getElem?_eq_some_iff] using hoffset
  obtain ⟨span, hfilter, htag⟩ := Ribbon.exists_touches hlt
  have hliteral : SegmentTag.isPlain span.tag = isLiteral settings visit := by
    have hsame := congrArg (·[visit.window.offset]?) h.literal
    simpa [hindex, htag] using hsame
  refine ⟨span, hfilter, ?_⟩
  rw [← hliteral]
  exact decide_eq_true_iff.symm

/-- Along a reading every visit is accounted for. -/
theorem Reaches.accounts {count : Nat} (hmode : initial.mode = .text) (hspaced : initial.spaced = true)
    (h : (tagger settings nested).Reaches source initial count ribbon reading) :
    Accounts settings ((tagger settings nested).visitsTo source initial count) [] ribbon := by
  induction h with
  | start => exact accounts_start
  | @step count ribbon reading reading' window edits before hcount hcursor hlist hedits ih =>
      obtain ⟨window', hcursor', hlist', hvisits⟩ :=
        before.exists_visitsTo (isBlind_tagger settings nested) hcount hcursor hedits
      have hmove := move_of_outcome hedits
      rw [hcursor] at hmove
      obtain ⟨tag, htakes, hliteral⟩ := Move.exists_takes hmove (Reaches.fits hmode hspaced before)
      have hoffset : window'.offset = ribbon.chars.length :=
        (congrArg Cursor.offset hcursor').trans before.length_chars.symm
      have hplain : SegmentTag.isPlain tag = isLiteral settings ⟨window', reading, edits⟩ := by
        rw [isLiteral, hcursor', Bool.eq_iff_iff, ← hliteral]
        exact decide_eq_true_iff
      have hchar : window'.char = Cursor.char ⟨source, count⟩ := congrArg Cursor.char hcursor'
      rw [hvisits, ← hchar]
      exact ih.concat before.isSolid hoffset hlist' htakes hplain

/-- A reading that is over is accounted for by its visits and the one at the end of the text. -/
theorem Completes.accounts (hmode : initial.mode = .text) (hspaced : initial.spaced = true)
    (h : (tagger settings nested).Completes source initial ribbon reading) :
    Accounts settings ((tagger settings nested).visits source initial)
      ((tagger settings nested).lastVisit? source initial).toList ribbon := by
  cases h with
  | empty hlength =>
      rw [Tagger.visits, Tagger.lastVisit?, hlength]
      exact accounts_start
  | @ended ribbon middle _ window edits before hlength hcursor hlist hedits =>
      obtain ⟨window', hcursor', hlist', hlast⟩ :=
        before.exists_lastVisit? (isBlind_tagger settings nested) hlength hcursor hedits
      have hfits := Reaches.fits hmode hspaced before
      obtain ⟨tag, htakes⟩ := exists_takes_onEnd before.isSolid hfits hedits
      have hoffset : window'.offset + 1 = ribbon.chars.length := by
        rw [congrArg Cursor.offset hcursor', before.length_chars]
        exact Nat.sub_add_cancel hlength
      rw [hlast]
      exact (Reaches.accounts hmode hspaced before).close before.isSolid hfits.isClean
        (before.settled hlength).2 hoffset hlist' (isAmending_onEnd hedits) htakes

end Run

namespace Document

/-- What the reading of a document does at each of its characters. -/
def visits (settings : Settings) (packages : Chain π) (text : String) : List (Visit Tag (Reading π)) :=
  (documentTagger settings).visits (.ofString text) { session := { packages := packages } }

/-- What the reading of a document does at its end, if there is a character. -/
def closing (settings : Settings) (packages : Chain π) (text : String) : List (Visit Tag (Reading π)) :=
  ((documentTagger settings).lastVisit? (.ofString text) { session := { packages := packages } }).toList

end Document

/-- All that a document shows is what its reading emitted, each emission once and in their order: the
characters that were taken literally, and the texts attached to segments. Exactly the literal characters
stand in text. Whatever is rendered after any edit stays rendered to the end, where it may have gone on. -/
theorem prose_eq_emissions {packages : Chain π} {text : String} {document : Document π}
    (h : (Document.withPackages settings packages text).read = (.ok (), document)) :
    ∃ map spans transcript, document.map = .ok map ∧ map.spans = .ok spans ∧
      map.transcript = .ok transcript ∧
      transcript.prose = String.join
        ((Document.visits settings packages text).flatMap (emissions settings) ++
          (Document.closing settings packages text).flatMap fun visit =>
            visit.edits.map Edit.attached) ∧
      (Document.visits settings packages text).map (·.window.offset) = List.range text.length ∧
      (∀ visit ∈ Document.visits settings packages text, ∃ span,
        spans.filter (·.touches visit.window.offset (visit.window.offset + 1)) = [span] ∧
          (span.tag = .text ↔ isLiteral settings visit = true)) ∧
      ∀ visit ∈ Document.visits settings packages text ++ Document.closing settings packages text,
        ∀ first, first <+: visit.edits →
          Keeps (visit.window.editAll first).segments.toList map.boundaries := by
  obtain ⟨map, ribbon, hmap, -, hcompletes, hprojects⟩ := Document.exists_projects h
  obtain ⟨transcript, htranscript, hprose⟩ := hprojects.transcript
  have haccounts := Completes.accounts rfl rfl hcompletes
  have hlength : ribbon.chars.length = text.length := by
    rw [hcompletes.chars]
    exact (Source.length_ofString text)
  refine ⟨map, ribbon.spans, transcript, hmap, hprojects.spans, htranscript,
    hprose.trans haccounts.prose, hlength ▸ haccounts.offsets, ?_, ?_⟩
  · intro visit hvisit
    exact haccounts.exists_touches hvisit
  · rw [hprojects.boundaries]
    exact haccounts.keeps

theorem prose_eq_emissions_emphasis :
    ∃ document map transcript,
      (Document.withPackages {} (Chain.bundled {}) "a  \\emph{b} {c} \"`\" d").read = (.ok (), document) ∧
        document.map = .ok map ∧ map.transcript = .ok transcript ∧
        transcript.prose = String.join
          ((Document.visits {} (Chain.bundled {}) "a  \\emph{b} {c} \"`\" d").flatMap (emissions {}) ++
            (Document.closing {} (Chain.bundled {}) "a  \\emph{b} {c} \"`\" d").flatMap
              fun visit => visit.edits.map Edit.attached) := by
  have hok : (Document.withPackages {} (Chain.bundled {})
      "a  \\emph{b} {c} \"`\" d").read.1.isOk = true := by decide +kernel
  obtain ⟨document, hread⟩ := Document.exists_of_isOk hok
  obtain ⟨map, spans, transcript, hmap, -, htranscript, hprose, -⟩ := prose_eq_emissions hread
  exact ⟨document, map, transcript, hread, hmap, htranscript, hprose⟩

end TexProse.Latex
