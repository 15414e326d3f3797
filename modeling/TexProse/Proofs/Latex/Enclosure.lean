import TexProse.Proofs.Latex.Blanks
import TexProse.Proofs.Latex.Trail

/-!
# The brackets of a segmentation

`Sealed` lists the sequences of segments in which every argument stands between the command that opens it
and the one that closes it, and every group is closed. A reading keeps the segments before its own construct
sealed, and an argument or a group that it is in is open by as many brackets as its mode counts. As no text
ends in such a mode, all is sealed at the end. Main statement: `read_encloses`.
-/

namespace TexProse.Latex
variable {π : Type}

/-- A segment that needs no other beside it. -/
def Tag.StandsAlone : Tag → Prop
  | .text | .space | .comment | .quotationMarks => True
  | .command | .argument | .group => False

/-- Groups one after the other, each given by what stands between its brackets. -/
def groupText (groups : List (List Char)) : List Char :=
  groups.flatMap fun inside => '{' :: inside ++ ['}']

theorem groupText_concat (groups : List (List Char)) (inside : List Char) :
    groupText (groups ++ [inside]) = groupText groups ++ '{' :: inside ++ ['}'] := by
  simp [groupText]

/-- A command ends with a bracket, and `depth` brackets of its kind are open in what stands behind it. -/
structure OpensArgument (bracket : Bracket) (depth : Nat) (command content : Stretch Tag) : Prop where
  tag_command : command.tag = .command
  tag_content : content.tag = .argument
  ne_angle : bracket ≠ .angle
  getLast?_command : command.chars.getLast? = some bracket.opening
  depth_content : bracket.depthAfter 0 content.chars = some depth

/-- The last segment first, every bracket is closed and stands where it belongs. -/
inductive Sealed : Ribbon Tag → Prop
  | nil : Sealed []
  | alone {last : Stretch Tag} {rest : Ribbon Tag} (htag : last.tag.StandsAlone) (hrest : Sealed rest) :
      Sealed (last :: rest)
  | command {last : Stretch Tag} {rest : Ribbon Tag} (htag : last.tag = .command)
      (hchar : last.chars.head? = some '\\') (hrest : Sealed rest) : Sealed (last :: rest)
  | argument {last content command : Stretch Tag} {rest : Ribbon Tag} {bracket : Bracket}
      (htag : last.tag = .command) (hchar : last.chars.head? = some bracket.closing)
      (hsome : content.chars ≠ []) (hopens : OpensArgument bracket 0 command content)
      (hrest : Sealed (command :: rest)) : Sealed (last :: content :: command :: rest)
  | group {last : Stretch Tag} {rest : Ribbon Tag} {groups : List (List Char)} (htag : last.tag = .group)
      (hsome : groups ≠ []) (hchars : last.chars = groupText groups)
      (hgroups : ∀ inside ∈ groups, Bracket.curly.IsBalanced inside) (hrest : Sealed rest) :
      Sealed (last :: rest)

namespace Sealed
variable {last : Stretch Tag} {rest : Ribbon Tag}

/-- Renderings do not matter. -/
theorem amend (h : Sealed (last :: rest)) (rendering : Option String) :
    Sealed ({ last with rendering := rendering } :: rest) := by
  cases h with
  | alone htag hrest => exact .alone htag hrest
  | command htag hchar hrest => exact .command htag hchar hrest
  | argument htag hchar hsome hopens hrest => exact .argument htag hchar hsome hopens hrest
  | group htag hsome hchars hgroups hrest => exact .group htag hsome hchars hgroups hrest

/-- A segment without characters may be taken away. -/
theorem of_empty (h : Sealed (last :: rest)) (hchars : last.chars = []) : Sealed rest := by
  cases h with
  | alone htag hrest => exact hrest
  | command htag hchar hrest => simp [hchars] at hchar
  | argument htag hchar hsome hopens hrest => simp [hchars] at hchar
  | @group _ _ groups htag hsome hgroup hgroups hrest => exact hrest

/-- A segment other than a group may go on. -/
theorem put (h : Sealed (last :: rest)) (htag : last.tag ≠ .group) (c : Char) :
    Sealed (Ribbon.put c (last :: rest)) := by
  have hhead {first : Char} (hchar : last.chars.head? = some first) :
      (last.chars ++ [c]).head? = some first := by
    rw [List.head?_append, hchar, Option.some_or]
  cases h with
  | alone htag hrest => exact .alone htag hrest
  | command htag hchar hrest => exact .command htag (hhead hchar) hrest
  | argument htag hchar hsome hopens hrest => exact .argument htag (hhead hchar) hsome hopens hrest
  | group hgroup => exact absurd hgroup htag

/-- A sealed group consists of groups. -/
theorem exists_groups (h : Sealed (last :: rest)) (htag : last.tag = .group) :
    ∃ groups, last.chars = groupText groups ∧ (∀ inside ∈ groups, Bracket.curly.IsBalanced inside) ∧
      Sealed rest := by
  cases h with
  | group htag hsome hchars hgroups hrest => exact ⟨_, hchars, hgroups, hrest⟩
  | alone halone => simp [htag, Tag.StandsAlone] at halone
  | command hcommand => simp [htag] at hcommand
  | argument hcommand => simp [htag] at hcommand

/-- A new tag goes on with a sealed segment or begins behind sealed ones. -/
theorem exists_turn (h : Sealed (last :: rest)) (tag : Tag) :
    ∃ head tail, Ribbon.turn tag (last :: rest) = head :: tail ∧ head.tag = tag ∧
      (Sealed (head :: tail) ∨ head.chars = [] ∧ Sealed tail) := by
  obtain ⟨head, tail, hturn, hhead⟩ := Ribbon.exists_turn tag (last :: rest)
  refine ⟨head, tail, hturn, hhead, ?_⟩
  rw [Ribbon.turn] at hturn
  split_ifs at hturn with htag hchars hprevious
  · rw [← hturn]
    exact .inl h
  · rw [← hturn]
    exact .inl (h.of_empty hchars)
  · obtain ⟨rfl, rfl⟩ := List.cons.inj hturn
    exact .inr ⟨rfl, h.of_empty hchars⟩
  · obtain ⟨rfl, rfl⟩ := List.cons.inj hturn
    exact .inr ⟨rfl, h⟩

/-- A segment that stands alone may begin anywhere. -/
theorem turn_alone (h : Sealed (last :: rest)) {tag : Tag} (htag : tag.StandsAlone) :
    ∃ head tail, Ribbon.turn tag (last :: rest) = head :: tail ∧ head.tag = tag ∧ Sealed (head :: tail) := by
  obtain ⟨head, tail, hturn, rfl, hsealed⟩ := h.exists_turn tag
  refine ⟨head, tail, hturn, rfl, ?_⟩
  rcases hsealed with hsealed | ⟨-, hsealed⟩
  · exact hsealed
  · exact .alone htag hsealed

theorem settle {ribbon : Ribbon Tag} (h : Sealed ribbon) : Sealed ribbon.settle := by
  unfold Ribbon.settle
  split
  · split
    next hchars => exact h.of_empty hchars
    next => exact h
  · exact h

end Sealed

/-- The tag of the segment that a mode is in, where that is neither an argument nor a group. -/
def Mode.tag? : Mode → Option Tag
  | .text => some .text
  | .space _ => some .space
  | .comment => some .comment
  | .quote => some .quotationMarks
  | .name _ | .reopening _ _ => some .command
  | .argument _ _ _ _ | .group _ _ => none

/-- The segments so far are sealed, but for the argument or the group that the mode is in. -/
inductive Frames : Mode → Ribbon Tag → Prop
  | outside {mode : Mode} {last : Stretch Tag} {rest : Ribbon Tag} (htag : mode.tag? = some last.tag)
      (hsome : mode = .text ∨ last.chars ≠ []) (h : Sealed (last :: rest)) : Frames mode (last :: rest)
  | argument {command : Command} {bracket : Bracket} {start depth : Nat} {content opener : Stretch Tag}
      {rest : Ribbon Tag} (hopens : OpensArgument bracket depth opener content) (h : Sealed (opener :: rest)) :
      Frames (.argument command bracket start depth) (content :: opener :: rest)
  | group {start depth : Nat} {last : Stretch Tag} {rest : Ribbon Tag} {groups : List (List Char)}
      {inside : List Char} (htag : last.tag = .group) (hchars : last.chars = groupText groups ++ '{' :: inside)
      (hgroups : ∀ inside ∈ groups, Bracket.curly.IsBalanced inside)
      (hdepth : Bracket.curly.depthAfter 0 inside = some depth) (h : Sealed rest) :
      Frames (.group start depth) (last :: rest)

namespace Frames
variable {ribbon : Ribbon Tag}

theorem exists_outside {mode : Mode} {tag : Tag} (h : Frames mode ribbon) (htag : mode.tag? = some tag) :
    ∃ last rest, ribbon = last :: rest ∧ last.tag = tag ∧ (mode = .text ∨ last.chars ≠ []) ∧
      Sealed (last :: rest) := by
  cases h with
  | outside hlast hsome hsealed => exact ⟨_, _, rfl, Option.some.inj (hlast.symm.trans htag), hsome, hsealed⟩
  | argument hopens hsealed => cases htag
  | group htag' hchars hgroups hdepth hsealed => cases htag

theorem exists_argument {command : Command} {bracket : Bracket} {start depth : Nat}
    (h : Frames (.argument command bracket start depth) ribbon) :
    ∃ content opener rest, ribbon = content :: opener :: rest ∧ OpensArgument bracket depth opener content ∧
      Sealed (opener :: rest) := by
  cases h with
  | argument hopens hsealed => exact ⟨_, _, _, rfl, hopens, hsealed⟩
  | outside htag => cases htag

theorem exists_group {start depth : Nat} (h : Frames (.group start depth) ribbon) :
    ∃ last rest groups inside, ribbon = last :: rest ∧ last.tag = .group ∧
      last.chars = groupText groups ++ '{' :: inside ∧
      (∀ inside ∈ groups, Bracket.curly.IsBalanced inside) ∧
      Bracket.curly.depthAfter 0 inside = some depth ∧ Sealed rest := by
  cases h with
  | group htag hchars hgroups hdepth hsealed =>
      exact ⟨_, _, _, _, rfl, htag, hchars, hgroups, hdepth, hsealed⟩
  | outside htag => cases htag

end Frames

theorem Mode.tag?_ne_group {mode : Mode} {tag : Tag} (h : mode.tag? = some tag) : tag ≠ .group := by
  rintro rfl
  cases mode <;> cases h

section Step
variable {here : Cursor} {last : Stretch Tag} {rest : Ribbon Tag} {mode : Mode} {reading : Reading π}

/-- Edits of renderings leave the segments as they are. -/
theorem exists_rendering {edits : List (Edit Tag)} (h : ∀ e ∈ edits, e.IsAmending) (last : Stretch Tag)
    (rest : Ribbon Tag) :
    ∃ rendering, edits.foldl Ribbon.edit (last :: rest) = { last with rendering := rendering } :: rest := by
  obtain ⟨rendering, hfold⟩ := Ribbon.foldl_amending h last rest
  exact ⟨rendering, hfold last.chars⟩

theorem frames_of_put {c : Char} (h : Sealed (Ribbon.put c (last :: rest))) {tag : Tag}
    (hmode : mode.tag? = some tag) (htag : last.tag = tag) : Frames mode (Ribbon.put c (last :: rest)) := by
  subst htag
  exact .outside hmode (.inr (by simp)) h

theorem frames_put (h : Sealed (last :: rest)) {tag : Tag} (hmode : mode.tag? = some tag)
    (htag : last.tag = tag) (c : Char) : Frames mode (Ribbon.put c (last :: rest)) :=
  frames_of_put (h.put (htag ▸ Mode.tag?_ne_group hmode) c) hmode htag

/-- A construct other than an argument and a group may go on. -/
theorem Frames.put {ribbon : Ribbon Tag} (h : Frames mode ribbon) {tag : Tag} (hmode : mode.tag? = some tag)
    (c : Char) : Frames mode (ribbon.put c) := by
  obtain ⟨last, rest, rfl, htag, -, hsealed⟩ := h.exists_outside hmode
  exact frames_put hsealed hmode htag c

theorem frames_turn_put (h : Sealed (last :: rest)) {tag : Tag} (htag : mode.tag? = some tag)
    (halone : tag.StandsAlone) (c : Char) : Frames mode ((Ribbon.turn tag (last :: rest)).put c) := by
  obtain ⟨head, tail, hturn, rfl, hsealed⟩ := h.turn_alone halone
  rw [hturn]
  exact frames_put hsealed htag rfl c

/-- The first character behind a construct that is over. -/
theorem frames_textRule (htag : last.tag = .text) (h : Sealed (last :: rest)) :
    Frames (textRule here reading).2.mode
      (((textRule here reading).1.foldl Ribbon.edit (last :: rest)).put here.char) := by
  rw [textRule]
  dsimp only
  split_ifs with hblank hcomment hname hquote hgroup
  · exact frames_turn_put h rfl (show Tag.space.StandsAlone from trivial) here.char
  · exact frames_turn_put h rfl (show Tag.comment.StandsAlone from trivial) here.char
  · -- a command that begins here may go on with the one before
    obtain ⟨head, tail, hturn, hhead, hsealed⟩ := h.exists_turn .command
    change Frames _ ((Ribbon.turn .command (last :: rest)).put here.char)
    rw [hturn]
    rcases hsealed with hsealed | ⟨hchars, hsealed⟩
    · exact frames_put hsealed rfl hhead here.char
    · have hbegun : Sealed (Ribbon.put here.char (head :: tail)) :=
        .command hhead (by simp [hchars, hname]) hsealed
      exact frames_of_put hbegun rfl hhead
  · exact frames_turn_put h rfl (show Tag.quotationMarks.StandsAlone from trivial) here.char
  · -- and so may a group
    obtain ⟨head, tail, hturn, hhead, hsealed⟩ := h.exists_turn .group
    change Frames _ ((Ribbon.turn .group (last :: rest)).put here.char)
    rw [hturn, hgroup]
    rcases hsealed with hsealed | ⟨hchars, hsealed⟩
    · obtain ⟨groups, hchars, hgroups, hrest⟩ := hsealed.exists_groups hhead
      exact .group hhead (congrArg (· ++ ['{']) hchars) hgroups rfl hrest
    · have hopened : head.chars ++ ['{'] = groupText [] ++ ['{'] := congrArg (· ++ ['{']) hchars
      exact .group hhead hopened (by simp) rfl hsealed
  · have hput : Frames .text (Ribbon.put here.char (last :: rest)) := frames_put h rfl htag here.char
    cases missingSpace? here <;> exact hput

/-- The first character behind a construct that is closed here. -/
theorem frames_backToText {step : Step π} {ribbon : Ribbon Tag} (hcalm : Edit.IsCalm step.1)
    (hfold : step.1.foldl Ribbon.edit ribbon = last :: rest) (hsome : last.chars ≠ [])
    (h : Sealed (last :: rest)) :
    Frames (backToText here step).2.mode (ribbon.lay (backToText here step).1 here.char) := by
  obtain ⟨head, tail, hturn, htag, -, hback⟩ := exists_backToText here hfold hsome
  obtain ⟨head', tail', hturn', -, hsealed⟩ := h.turn_alone (show Tag.text.StandsAlone from trivial)
  rw [hturn] at hturn'
  obtain ⟨rfl, rfl⟩ := List.cons.inj hturn'
  rw [Ribbon.lay_calm (isCalm_backToText here hcalm), hback]
  exact frames_textRule htag hsealed

/-- Markup that is complete with the current character. -/
theorem frames_andThen_text {step : Step π} {ribbon : Ribbon Tag} (hcalm : Edit.IsCalm step.1)
    (hfold : step.1.foldl Ribbon.edit ribbon = last :: rest) {c : Char}
    (h : Sealed (Ribbon.put c (last :: rest))) :
    Frames .text (ribbon.lay (step.andThen (Step.into .text [.tagNext .text])).1 c) := by
  rw [Step.andThen, Step.into, Ribbon.lay_tagNext hcalm, hfold, Ribbon.beginNext]
  split
  next htag => exact .outside htag.symm (.inl rfl) h
  next htag => exact .outside rfl (.inl rfl) (.alone trivial h)

/-- The bracket that closes an argument begins a command behind it, or goes on with the one before it if
there is nothing between. -/
theorem sealed_turn_command {bracket : Bracket} {opener content : Stretch Tag}
    (hopens : OpensArgument bracket 0 opener content) (h : Sealed (opener :: rest)) :
    ∃ head tail, Ribbon.turn .command (content :: opener :: rest) = head :: tail ∧ head.tag = .command ∧
      Sealed (Ribbon.put bracket.closing (head :: tail)) := by
  have hcontent : content.tag ≠ .command := by simp [hopens.tag_content]
  rw [Ribbon.turn, if_neg hcontent]
  by_cases hchars : content.chars = []
  · rw [if_pos hchars, if_pos (by simp [hopens.tag_command])]
    refine ⟨opener, rest, rfl, hopens.tag_command, ?_⟩
    exact h.put (by simp [hopens.tag_command]) bracket.closing
  · rw [if_neg hchars]
    exact ⟨_, _, rfl, rfl, .argument rfl rfl hchars hopens h⟩

variable [Package π] {settings : Settings} {nested : Nested π}

/-- The bracket behind the last argument turns to the command and puts it, in the one order or the other. -/
theorem frames_closeArgument {bracket : Bracket} {opener content : Stretch Tag} {isEmpty : Bool}
    (hopens : OpensArgument bracket 0 opener content) (h : Sealed (opener :: rest))
    (hnext : here.next?.bind Bracket.ofArgument? = none) (command : Command) :
    Frames (closeArgument here command isEmpty reading).2.mode
      (Ribbon.lay (content :: opener :: rest) (closeArgument here command isEmpty reading).1
        bracket.closing) := by
  have htagged : Edit.IsCalm [Edit.tagHere Tag.command] := fun tag => by simp
  rw [closeArgument]
  simp only [hnext]
  split
  · obtain ⟨head, tail, hturn, hhead, hsealed⟩ := sealed_turn_command hopens h
    obtain ⟨rendering, hfold⟩ := exists_rendering (isAmending_resolve reading command) head tail
    have hedits : ([Edit.tagHere Tag.command] ++ (Step.resolve command reading).1).foldl Ribbon.edit
        (content :: opener :: rest) = { head with rendering := rendering } :: tail := by
      rw [← hfold, ← hturn]
      rfl
    have hcalm : Edit.IsCalm
        ((Step.edit [.tagHere .command] reading).andThen (Step.resolve command)).1 :=
      htagged.append (isCalm_resolve reading command)
    exact frames_andThen_text hcalm hedits (hsealed.amend rendering)
  · obtain ⟨rendering, hfold⟩ :=
      exists_rendering (isAmending_resolve reading command) content (opener :: rest)
    have hamended : OpensArgument bracket 0 opener { content with rendering := rendering } :=
      ⟨hopens.tag_command, hopens.tag_content, hopens.ne_angle, hopens.getLast?_command,
        hopens.depth_content⟩
    obtain ⟨head, tail, hturn, hhead, hsealed⟩ := sealed_turn_command hamended h
    have hstep : (Step.resolve command reading).andThen (Step.into .text [.tagHere .command, .tagNext .text]) =
        ((Step.resolve command reading).andThen (Step.edit [.tagHere .command])).andThen
          (Step.into .text [.tagNext .text]) := by
      simp [Step.andThen, Step.into, Step.edit]
    have hedits : ((Step.resolve command reading).1 ++ [Edit.tagHere Tag.command]).foldl Ribbon.edit
        (content :: opener :: rest) = head :: tail := by
      rw [List.foldl_append, hfold]
      exact hturn
    rw [hstep]
    exact frames_andThen_text ((isCalm_resolve _ _).append htagged) hedits hsealed

/-- A bracket behind a command opens an argument. -/
theorem frames_open {bracket : Bracket} (h : Sealed (last :: rest)) (htag : last.tag = .command)
    (hangle : bracket ≠ .angle) (hchar : here.char = bracket.opening) (command : Command) (start : Nat) :
    Frames (.argument command bracket start 0)
      (Ribbon.lay (last :: rest) [.tagNext .argument] here.char) := by
  have hsealed := h.put (by simp [htag]) here.char
  have hbegin : (Ribbon.put here.char (last :: rest)).beginNext .argument =
      { tag := .argument } :: Ribbon.put here.char (last :: rest) := by
    simp [Ribbon.beginNext, Ribbon.put, htag]
  rw [Ribbon.lay_singleton_tagNext, hbegin]
  exact .argument ⟨htag, rfl, hangle, by simp [hchar], rfl⟩ hsealed

/-- Every move keeps the segments sealed around the construct that it is in. -/
theorem Move.frames {step : Step π} {ribbon : Ribbon Tag} (h : Move settings nested here reading step)
    (htracks : reading.mode.Tracks here.source here.offset) (hframes : Frames reading.mode ribbon) :
    Frames step.2.mode (ribbon.lay step.1 here.char) := by
  cases h with
  | text hmode =>
      obtain ⟨last, rest, rfl, htag, -, hsealed⟩ := hframes.exists_outside (congrArg Mode.tag? hmode)
      rw [Ribbon.lay_calm (isCalm_textRule _ _)]
      exact frames_textRule htag hsealed
  | blank hmode hc => exact hframes.put (congrArg Mode.tag? hmode) here.char
  | endSpace hmode hc =>
      obtain ⟨last, rest, rfl, htag, hsome, hsealed⟩ := hframes.exists_outside (congrArg Mode.tag? hmode)
      obtain ⟨rendering, hfold⟩ := exists_rendering (isAmending_closeSpace here reading _ _) last rest
      exact frames_backToText (isCalm_closeSpace _ _ _ _) hfold (hsome.resolve_left (by simp [hmode]))
        (hsealed.amend rendering)
  | remark hmode hc => exact hframes.put (congrArg Mode.tag? hmode) here.char
  | endComment hmode hc =>
      obtain ⟨last, rest, rfl, htag, -, hsealed⟩ := hframes.exists_outside (congrArg Mode.tag? hmode)
      rw [Step.into, Ribbon.lay_calm fun tag => by simp]
      exact frames_turn_put hsealed rfl (show Tag.space.StandsAlone from trivial) here.char
  | pair hmode hmark =>
      obtain ⟨last, rest, rfl, htag, -, hsealed⟩ := hframes.exists_outside (congrArg Mode.tag? hmode)
      apply frames_andThen_text (fun tag => by simp [Step.emit]) rfl
      exact (hsealed.put (by simp [htag]) here.char).amend _
  | straight hmode hmark hnotice =>
      obtain ⟨last, rest, rfl, htag, hsome, hsealed⟩ := hframes.exists_outside (congrArg Mode.tag? hmode)
      exact frames_backToText (fun tag => by simp) rfl (hsome.resolve_left (by simp [hmode]))
        (hsealed.amend _)
  | nameChar hmode hc => exact hframes.put (congrArg Mode.tag? hmode) here.char
  | escape hmode hshort hc =>
      obtain ⟨last, rest, rfl, htag, -, hsealed⟩ := hframes.exists_outside (congrArg Mode.tag? hmode)
      obtain ⟨rendering, hfold⟩ := exists_rendering (isAmending_resolve reading _) last rest
      apply frames_andThen_text (isCalm_resolve _ _) hfold
      exact (hsealed.put (by simp [htag]) here.char).amend rendering
  | openArgument hmode hlong hc hbracket =>
      obtain ⟨last, rest, rfl, htag, -, hsealed⟩ := hframes.exists_outside (congrArg Mode.tag? hmode)
      obtain ⟨hangle, hchar⟩ := Bracket.eq_opening_of_ofArgument? hbracket
      exact frames_open hsealed htag hangle hchar _ _
  | nameSpace hmode hlong hc hbracket hblank =>
      obtain ⟨last, rest, rfl, htag, -, hsealed⟩ := hframes.exists_outside (congrArg Mode.tag? hmode)
      obtain ⟨rendering, hfold⟩ := exists_rendering (isAmending_resolve reading _) last rest
      rw [Step.andThen, Step.into, Ribbon.lay_calm ((isCalm_resolve _ _).append fun tag => by simp),
        List.foldl_append, hfold]
      exact frames_turn_put (hsealed.amend rendering) rfl (show Tag.space.StandsAlone from trivial) here.char
  | endName hmode hlong hc hbracket hblank =>
      obtain ⟨last, rest, rfl, htag, hsome, hsealed⟩ := hframes.exists_outside (congrArg Mode.tag? hmode)
      obtain ⟨rendering, hfold⟩ := exists_rendering (isAmending_resolve reading _) last rest
      exact frames_backToText (isCalm_resolve _ _) hfold (hsome.resolve_left (by simp [hmode]))
        (hsealed.amend rendering)
  | reopening hmode =>
      obtain ⟨last, rest, rfl, htag, -, hsealed⟩ := hframes.exists_outside (congrArg Mode.tag? hmode)
      rw [hmode] at htracks
      exact frames_open hsealed htag htracks.1 (congrArg (Option.getD · '\x00') htracks.2) _ _
  | inArgument hmode hdepth =>
      rw [hmode] at hframes
      obtain ⟨content, opener, rest, rfl, hopens, hsealed⟩ := hframes.exists_argument
      obtain ⟨htag, htag', hangle, hopening, hopen⟩ := hopens
      have hopen' := (Bracket.depthAfter_concat here.char hopen).trans hdepth
      exact .argument ⟨htag, htag', hangle, hopening, hopen'⟩ hsealed
  | @nextArgument _ bracket _ _ _ _ hmode hchar hnested hnext =>
      rw [hmode] at hframes
      obtain ⟨content, opener, rest, rfl, hopens, hsealed⟩ := hframes.exists_argument
      obtain ⟨head, tail, hturn, hhead, hput⟩ := sealed_turn_command hopens hsealed
      have hlay : Ribbon.lay (content :: opener :: rest) [.tagHere .command] here.char =
          Ribbon.put bracket.closing (head :: tail) := by
        rw [Ribbon.lay_calm fun tag => by simp, hchar, ← hturn]
        rfl
      rw [Step.into, hlay]
      exact frames_of_put hput rfl hhead
  | lastArgument hmode hchar hnested hnext =>
      rw [hmode] at hframes
      obtain ⟨content, opener, rest, rfl, hopens, hsealed⟩ := hframes.exists_argument
      rw [hchar]
      exact frames_closeArgument hopens hsealed hnext _
  | inGroup hmode hdepth =>
      rw [hmode] at hframes
      obtain ⟨last, rest, groups, inside, rfl, htag, hchars, hgroups, hopen, hsealed⟩ := hframes.exists_group
      have hmore : last.chars ++ [here.char] = groupText groups ++ '{' :: (inside ++ [here.char]) := by
        rw [hchars, List.append_assoc, List.cons_append]
      exact .group htag hmore hgroups ((Bracket.depthAfter_concat here.char hopen).trans hdepth) hsealed
  | endGroup hmode hchar hnested =>
      rw [hmode] at hframes
      obtain ⟨last, rest, groups, inside, rfl, htag, hchars, hgroups, hopen, hsealed⟩ := hframes.exists_group
      have hmore : last.chars ++ [here.char] = groupText (groups ++ [inside]) := by
        rw [groupText_concat, hchars, hchar, List.append_assoc]
      have hall : ∀ inside' ∈ groups ++ [inside], Bracket.curly.IsBalanced inside' := by
        intro inside' hinside
        rcases List.mem_append.mp hinside with hinside | hinside
        · exact hgroups inside' hinside
        · rw [List.mem_singleton.mp hinside]
          exact hopen
      apply frames_andThen_text (fun tag => by simp [Step.emit]) rfl
      exact .group htag (by simp) hmore hall hsealed

/-- No text ends in an argument or in a group. -/
theorem exists_tag?_of_onEnd {window : Window Tag} {reading' : Reading π} {edits : List (Edit Tag)}
    (h : (onEnd window).outcome reading = (.ok edits, reading')) : ∃ tag, reading.mode.tag? = some tag := by
  rw [outcome_onEnd] at h
  split at h
  next hmode => exact ⟨_, congrArg Mode.tag? hmode⟩
  next hmode => exact ⟨_, congrArg Mode.tag? hmode⟩
  next hmode => exact ⟨_, congrArg Mode.tag? hmode⟩
  next => cases h
  next => cases h
  next => cases h
  next hmode => exact ⟨_, congrArg Mode.tag? hmode⟩
  next hmode => exact ⟨_, congrArg Mode.tag? hmode⟩

end Step

section Run
variable [Package π] {settings : Settings} {nested : Nested π} {source : Source} {initial reading : Reading π}
  {ribbon : Ribbon Tag}

/-- A scan keeps the segments sealed around the construct that it is in. -/
theorem Reaches.frames {count : Nat} (hinitial : initial.mode = .text)
    (h : (tagger settings nested).Reaches source initial count ribbon reading) :
    Frames reading.mode ribbon := by
  induction h with
  | start =>
      rw [hinitial]
      exact .outside rfl (.inl rfl) (.alone trivial .nil)
  | @step count ribbon reading reading' window edits before hcount hcursor hlist hedits ih =>
      have hmove := move_of_outcome hedits
      rw [hcursor] at hmove
      exact hmove.frames (Reaches.tracks hinitial before) ih

/-- What a scan leaves is sealed. -/
theorem Completes.sealed (hinitial : initial.mode = .text)
    (h : (tagger settings nested).Completes source initial ribbon reading) : Sealed ribbon := by
  cases h with
  | empty hlength => exact .alone trivial .nil
  | @ended ribbon state state' window edits before hlength hcursor hlist hedits =>
      obtain ⟨tag, htag⟩ := exists_tag?_of_onEnd hedits
      obtain ⟨last, rest, rfl, -, -, hsealed⟩ := (Reaches.frames hinitial before).exists_outside htag
      obtain ⟨-, hfull⟩ := before.settled hlength
      have hamending := isAmending_onEnd hedits
      have hsettled := hsealed.settle
      rcases hsettle : Ribbon.settle (last :: rest) with _ | ⟨head, tail⟩
      · exact .nil
      · rw [hsettle] at hfull hsettled
        rw [Ribbon.close_amending hamending (hfull head List.mem_cons_self)]
        obtain ⟨rendering, hfold⟩ := exists_rendering hamending head tail
        rw [hfold]
        exact hsettled.amend rendering

end Run

/-- A span that is neither empty nor out of balance between one that ends with its bracket and one that
begins with the opposite bracket. -/
structure Bracketed (bracket : Bracket) (opener content closer : Span Tag) : Prop where
  ne_angle : bracket ≠ .angle
  tag_opener : opener.tag = .command
  tag_content : content.tag = .argument
  tag_closer : closer.tag = .command
  getLast?_opener : opener.text.toList.getLast? = some bracket.opening
  ne_empty : content.text ≠ ""
  isBalanced_content : bracket.IsBalanced content.text.toList
  head?_closer : closer.text.toList.head? = some bracket.closing

/-- A span has around it what its tag demands. -/
structure Enclosed (before : List (Span Tag)) (span : Span Tag) (after : List (Span Tag)) : Prop where
  argument : span.tag = .argument → ∃ earlier opener closer later bracket,
    before = earlier ++ [opener] ∧ after = closer :: later ∧ Bracketed bracket opener span closer
  group : span.tag = .group → ∃ groups, groups ≠ [] ∧ span.text.toList = groupText groups ∧
    ∀ inside ∈ groups, Bracket.curly.IsBalanced inside
  command : span.tag = .command → span.text.toList.head? = some '\\' ∨
    ∃ earlier opener content bracket, before = earlier ++ [opener, content] ∧
      Bracketed bracket opener content span

/-- What is enclosed stays so if more follows. -/
theorem Enclosed.append {before after : List (Span Tag)} {span : Span Tag} (h : Enclosed before span after)
    (more : List (Span Tag)) : Enclosed before span (after ++ more) where
  argument htag := by
    obtain ⟨earlier, opener, closer, later, bracket, hbefore, rfl, hbracketed⟩ := h.argument htag
    exact ⟨earlier, opener, closer, later ++ more, bracket, hbefore, rfl, hbracketed⟩
  group := h.group
  command := h.command

namespace Sealed
variable {last : Stretch Tag} {rest : Ribbon Tag}

/-- An argument of a sealed ribbon is bracketed. -/
theorem bracketed {content opener : Stretch Tag} {bracket : Bracket} (htag : last.tag = .command)
    (hchar : last.chars.head? = some bracket.closing) (hsome : content.chars ≠ [])
    (hopens : OpensArgument bracket 0 opener content) (first second third : Nat) :
    Bracketed bracket (opener.span first) (content.span second) (last.span third) where
  ne_angle := hopens.ne_angle
  tag_opener := hopens.tag_command
  tag_content := hopens.tag_content
  tag_closer := htag
  getLast?_opener := by simpa [Stretch.span] using hopens.getLast?_command
  ne_empty := by simpa [Stretch.span] using hsome
  isBalanced_content := by simpa [Stretch.span, Bracket.IsBalanced] using hopens.depth_content
  head?_closer := by simpa [Stretch.span] using hchar

/-- The spans of a sealed ribbon are enclosed. -/
theorem enclosed {ribbon : Ribbon Tag} (h : Sealed ribbon) {before after : List (Span Tag)} {span : Span Tag}
    (hspans : ribbon.spans = before ++ span :: after) : Enclosed before span after := by
  induction h generalizing after with
  | nil => simp [Ribbon.spans] at hspans
  | @alone last rest htag hrest ih =>
      obtain ⟨rfl, rfl, rfl⟩ | ⟨between, rfl, hearlier⟩ := Ribbon.spans_cases hspans
      · have hother {tag : Tag} (hlast : last.tag = tag) : tag.StandsAlone := hlast ▸ htag
        exact ⟨fun h => (hother h).elim, fun h => (hother h).elim, fun h => (hother h).elim⟩
      · exact (ih hearlier).append _
  | @command last rest htag hchar hrest ih =>
      obtain ⟨rfl, rfl, rfl⟩ | ⟨between, rfl, hearlier⟩ := Ribbon.spans_cases hspans
      · refine ⟨fun h => ?_, fun h => ?_, fun _ => .inl (by simpa [Stretch.span] using hchar)⟩
        · cases htag.symm.trans h
        · cases htag.symm.trans h
      · exact (ih hearlier).append _
  | @argument last content opener rest bracket htag hchar hsome hopens hrest ih =>
      have hbracketed := bracketed htag hchar hsome hopens
      obtain ⟨rfl, rfl, rfl⟩ | ⟨between, rfl, hearlier⟩ := Ribbon.spans_cases hspans
      · refine ⟨fun h => ?_, fun h => ?_, fun _ => .inr ?_⟩
        · cases htag.symm.trans h
        · cases htag.symm.trans h
        · exact ⟨rest.spans, _, _, bracket, List.append_assoc .., hbracketed _ _ _⟩
      · obtain ⟨rfl, rfl, rfl⟩ | ⟨between, rfl, hbefore⟩ := Ribbon.spans_cases hearlier
        · refine ⟨fun _ => ?_, fun h => ?_, fun h => ?_⟩
          · exact ⟨rest.spans, _, _, [], bracket, rfl, rfl, hbracketed _ _ _⟩
          · cases hopens.tag_content.symm.trans h
          · cases hopens.tag_content.symm.trans h
        · exact ((ih hbefore).append _).append _
  | @group last rest groups htag hsome hchars hgroups hrest ih =>
      obtain ⟨rfl, rfl, rfl⟩ | ⟨between, rfl, hearlier⟩ := Ribbon.spans_cases hspans
      · refine ⟨fun h => ?_, fun _ => ⟨groups, hsome, ?_, hgroups⟩, fun h => ?_⟩
        · cases htag.symm.trans h
        · exact (String.toList_ofList).trans hchars
        · cases htag.symm.trans h
      · exact (ih hearlier).append _

end Sealed

/-- Around every argument of a document that was read stand the command that opens it and the one that
closes it, its groups are whole, and its commands begin where a command can. -/
theorem read_encloses [Package π] {settings : Settings} {packages : Chain π} {text : String}
    {document : Document π} (h : (Document.withPackages settings packages text).read = (.ok (), document)) :
    ∃ map spans, document.map = .ok map ∧ map.spans = .ok spans ∧
      ∀ before span after, spans = before ++ span :: after → Enclosed before span after := by
  obtain ⟨map, ribbon, hmap, -, hcompletes, hprojects⟩ := Document.exists_projects h
  refine ⟨map, ribbon.spans, hmap, hprojects.spans, ?_⟩
  intro before span after hspans
  exact (Completes.sealed rfl hcompletes).enclosed hspans

theorem read_encloses_arguments :
    ∃ document map spans,
      (Document.withPackages {} (Chain.bundled {}) "\\href[a]\x7b{b}\x7d\\emph{} {c}{d}").read =
          (.ok (), document) ∧
        document.map = .ok map ∧ map.spans = .ok spans ∧
        ∀ before span after, spans = before ++ span :: after → Enclosed before span after := by
  have hok :
      (Document.withPackages {} (Chain.bundled {})
        "\\href[a]\x7b{b}\x7d\\emph{} {c}{d}").read.1.isOk = true := by
    decide +kernel
  obtain ⟨document, hread⟩ := Document.exists_of_isOk hok
  obtain ⟨map, spans, hmap, hspans, henclosed⟩ := read_encloses hread
  exact ⟨document, map, spans, hread, hmap, hspans, henclosed⟩

end TexProse.Latex
