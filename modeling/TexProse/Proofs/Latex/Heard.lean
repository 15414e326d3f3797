import TexProse.Latex.Document
import TexProse.Proofs.Tagging.Spans

/-!
# What the blanks of a document hear

Whether a run of blanks is rendered depends on what stands before it in the prose. A reading keeps one
flag for that, which every addition to the prose brings up to date but one: a quotation mark that makes
no pair goes unheard. `heard` is the prose without those marks, and `IsVoiced` says that the flag speaks
of it and that all runs of blanks so far obey it.
-/

namespace TexProse.Latex

/-- Whether a blank behind this prose would come on top of another, or at the start. -/
def isSpaced (prose : String) : Bool := prose.toList.getLast?.all isBlank

/-- What a run of blanks is rendered as where it is not silent. -/
def blankOf (run : String) : String := if run.length = 1 then run else " "

/-- What a run of blanks is rendered as behind some prose. -/
def blankFor (prose run : String) : Option String :=
  if isSpaced prose then none else some (blankOf run)

theorem isSpaced_append (first second : String) :
    isSpaced (first ++ second) =
      match second.toList.getLast? with
      | some last => isBlank last
      | none => isSpaced first := by
  rw [isSpaced]
  rw [String.toList_append, List.getLast?_append]
  cases second.toList.getLast? <;> rfl

theorem isSpaced_concat (prose : String) (chars : List Char) (c : Char) :
    isSpaced (prose ++ String.ofList (chars ++ [c])) = isBlank c := by
  simp [isSpaced_append]

theorem blankOf_ne_empty {run : String} (h : run ≠ "") : blankOf run ≠ "" := by
  rw [blankOf]
  split
  · exact h
  · decide

theorem isSpaced_append_blankOf (prose : String) {chars : List Char} (hsome : chars ≠ [])
    (hblank : ∀ c ∈ chars, isBlank c) : isSpaced (prose ++ blankOf (String.ofList chars)) = true := by
  obtain ⟨initial, c, rfl⟩ := (List.eq_nil_or_concat' chars).resolve_left hsome
  rw [blankOf]
  split
  · rw [isSpaced_concat]
    exact hblank c (by simp)
  · exact isSpaced_concat prose [] ' '

/-- An addition to the prose brings the flag up to date. -/
theorem spaced_emit {π : Type} (text : String) {reading : Reading π} {prose : String}
    (h : reading.spaced = isSpaced prose) :
    (Step.emit text reading).2.spaced = isSpaced (prose ++ text) := by
  rw [isSpaced_append, ← h]
  rfl

/-- The prose of quotation marks, one for each pair and `straight` for each mark that makes none. -/
def marks (settings : Settings) (straight : String) : List Char → String
  | [] => ""
  | [_] => straight
  | _ :: c :: rest =>
    match pairedQuote? settings c with
    | some mark => mark ++ marks settings straight rest
    | none => straight ++ marks settings straight (c :: rest)

section Marks
variable (settings : Settings) (straight : String)

@[simp] theorem pairedQuote?_quote : pairedQuote? settings '"' = none := rfl

theorem marks_concat_straight (chars : List Char) :
    marks settings straight (chars ++ ['"']) = marks settings straight chars ++ straight := by
  induction chars using marks.induct settings with
  | case1 => simp [marks]
  | case2 c => simp [marks]
  | case3 first c rest mark hmark ih => simp [marks, hmark, ih, String.append_assoc]
  | case4 first c rest hmark ih => simpa [marks, hmark, String.append_assoc] using ih

theorem marks_concat_pair (chars : List Char) {c : Char} {mark : String}
    (h : pairedQuote? settings c = some mark) :
    marks settings straight (chars ++ ['"'] ++ [c]) = marks settings straight chars ++ mark := by
  induction chars using marks.induct settings with
  | case1 => simp [marks, h]
  | case2 first => simp [marks, h]
  | case3 first c' rest mark' hmark ih =>
      simpa [marks, hmark, String.append_assoc] using ih
  | case4 first c' rest hmark ih => simpa [marks, hmark, String.append_assoc] using ih

/-- Where the prose is silent with all marks it is silent without those that go unheard. -/
theorem isSpaced_marks {prose known : String} (h : isSpaced prose = true → isSpaced known = true)
    (chars : List Char) (hspaced : isSpaced (prose ++ marks settings "\"" chars) = true) :
    isSpaced (known ++ marks settings "" chars) = true := by
  have hquote (prose : String) : isSpaced (prose ++ "\"") = false := isSpaced_concat prose [] '"'
  induction chars using marks.induct settings generalizing prose known with
  | case1 => simpa [marks] using h (by simpa [marks] using hspaced)
  | case2 c =>
      rw [marks, hquote] at hspaced
      cases hspaced
  | case3 first c rest mark hmark ih =>
      rw [marks, hmark] at hspaced ⊢
      simp only [← String.append_assoc] at hspaced ⊢
      apply ih _ hspaced
      intro hprose
      rw [isSpaced_append] at hprose ⊢
      split
      next last hlast => simpa only [hlast] using hprose
      next hlast => exact h (by simpa only [hlast] using hprose)
  | case4 first c rest hmark ih =>
      rw [marks, hmark] at hspaced ⊢
      simp only [← String.append_assoc] at hspaced ⊢
      apply ih _ hspaced
      intro hprose
      rw [hquote] at hprose
      cases hprose

end Marks

/-- What a segment adds to the prose as far as the blanks behind it hear. -/
def heard (settings : Settings) (stretch : Stretch Tag) : String :=
  match stretch.tag with
  | .quotationMarks => marks settings "" stretch.chars
  | _ => stretch.prose

/-- What a complete segment adds to the prose as far as the blanks behind it hear. -/
def Span.heard (settings : Settings) (span : Span Tag) : String :=
  match span.tag with
  | .quotationMarks => marks settings "" span.text.toList
  | _ => span.prose

theorem heard_span (settings : Settings) (stretch : Stretch Tag) (start : Nat) :
    Span.heard settings (stretch.span start) = heard settings stretch := by
  obtain ⟨tag, chars, rendering⟩ := stretch
  cases tag with
  | quotationMarks => exact congrArg (marks settings "") (String.toList_ofList)
  | _ => rfl

/-- The rendering of blanks and of quotation marks behind some prose. -/
def Stretch.IsLawful (settings : Settings) (prose : String) (stretch : Stretch Tag) : Prop :=
  match stretch.tag with
  | .space => stretch.rendering = blankFor prose (String.ofList stretch.chars)
  | .quotationMarks => stretch.rendering.getD "" = marks settings "\"" stretch.chars
  | _ => True

/-- All blanks obey what they hear. -/
def IsLawful (settings : Settings) : Ribbon Tag → Prop
  | [] => True
  | last :: rest =>
    Stretch.IsLawful settings (Ribbon.told (heard settings) rest) last ∧ IsLawful settings rest

/-- All blanks obey what they hear, and so does the flag for the next one. -/
structure IsVoiced (settings : Settings) (ribbon : Ribbon Tag) (spaced : Bool) : Prop where
  lawful : IsLawful settings ribbon
  spaced : spaced = isSpaced (ribbon.told (heard settings))

variable {settings : Settings}

theorem heard_fresh (tag : Tag) : heard settings { tag := tag } = "" := by
  cases tag <;> rfl

/-- A segment that nothing was read into or rendered for. -/
theorem eq_fresh {stretch : Stretch Tag} (hchars : stretch.chars = []) (hnone : stretch.rendering = none) :
    stretch = { tag := stretch.tag } := by
  obtain ⟨tag, chars, rendering⟩ := stretch
  cases hchars
  cases hnone
  rfl

theorem heard_eq_prose {stretch : Stretch Tag} (h : stretch.tag ≠ .quotationMarks) :
    heard settings stretch = stretch.prose := by
  rw [heard]
  split
  next htag => exact absurd htag h
  next => rfl

theorem prose_of_ne_text {stretch : Stretch Tag} (h : stretch.tag ≠ .text) :
    stretch.prose = stretch.rendering.getD "" := by
  have hplain : SegmentTag.isPlain stretch.tag = false := decide_eq_false h
  simp [Stretch.prose, hplain]

theorem prose_of_text {stretch : Stretch Tag} (h : stretch.tag = .text) :
    stretch.prose = String.ofList stretch.chars := by
  have hplain : SegmentTag.isPlain stretch.tag = true := decide_eq_true h
  simp [Stretch.prose, hplain]

/-- A segment that is neither text nor blank nor a quotation mark shows what it is rendered as. -/
def Tag.IsMarkup : Tag → Prop
  | .comment | .command | .argument | .group => True
  | .text | .space | .quotationMarks => False

theorem Tag.IsMarkup.ne {tag : Tag} (h : tag.IsMarkup) :
    tag ≠ .text ∧ tag ≠ .space ∧ tag ≠ .quotationMarks := by
  refine ⟨?_, ?_, ?_⟩ <;> rintro rfl <;> exact h

section Markup
variable {stretch : Stretch Tag} (h : stretch.tag.IsMarkup)
include h

theorem heard_markup : heard settings stretch = stretch.rendering.getD "" := by
  rw [heard_eq_prose h.ne.2.2, prose_of_ne_text h.ne.1]

theorem isLawful_markup (prose : String) : Stretch.IsLawful settings prose stretch := by
  rw [Stretch.IsLawful]
  split
  next htag => exact (h.ne.2.1 htag).elim
  next htag => exact (h.ne.2.2 htag).elim
  next => trivial

end Markup

theorem isLawful_fresh {tag : Tag} (h : tag ≠ .space) (prose : String) :
    Stretch.IsLawful settings prose { tag := tag } := by
  cases tag with
  | space => exact absurd rfl h
  | quotationMarks => rfl
  | text => trivial
  | comment => trivial
  | command => trivial
  | argument => trivial
  | group => trivial

theorem isLawful_text {stretch : Stretch Tag} (h : stretch.tag = .text) (prose : String) :
    Stretch.IsLawful settings prose stretch := by
  simp only [Stretch.IsLawful, h]

namespace IsLawful
variable {ribbon : Ribbon Tag}

theorem of_append {later earlier : Ribbon Tag} (h : IsLawful settings (later ++ earlier)) :
    IsLawful settings earlier := by
  induction later with
  | nil => exact h
  | cons last later ih => exact ih h.2

/-- Blanks that are rendered never come on top of others, heard or not. -/
theorem isSpaced_heard (h : IsLawful settings ribbon) (hspaced : isSpaced ribbon.prose = true) :
    isSpaced (ribbon.told (heard settings)) = true := by
  induction ribbon with
  | nil => rfl
  | cons last rest ih =>
      by_cases hquote : last.tag = .quotationMarks
      · have hmarks : last.prose = marks settings "\"" last.chars := by
          rw [prose_of_ne_text (by simp [hquote])]
          simpa only [Stretch.IsLawful, hquote] using h.1
        rw [Ribbon.prose, Ribbon.told, hmarks] at hspaced
        rw [Ribbon.told, heard]
        simp only [hquote]
        exact isSpaced_marks settings (ih h.2) _ hspaced
      · rw [Ribbon.prose, Ribbon.told, isSpaced_append] at hspaced
        rw [Ribbon.told, heard_eq_prose hquote, isSpaced_append]
        split
        next last hlast => simpa only [hlast] using hspaced
        next hlast =>
          rw [hlast] at hspaced
          exact ih h.2 hspaced

end IsLawful

namespace IsVoiced
variable {last : Stretch Tag} {rest : Ribbon Tag} {spaced : Bool}

/-- An empty segment at the end may go. -/
theorem tail (h : IsVoiced settings (last :: rest) spaced) (hchars : last.chars = [])
    (hnone : last.rendering = none) : IsVoiced settings rest spaced := by
  constructor
  · exact h.lawful.2
  · rw [h.spaced, Ribbon.told, eq_fresh hchars hnone, heard_fresh, String.append_empty]

theorem turn (h : IsVoiced settings (last :: rest) spaced)
    (hempty : last.chars = [] → last.rendering = none) {tag : Tag} (htag : tag ≠ .space) :
    IsVoiced settings (Ribbon.turn tag (last :: rest)) spaced := by
  have hclean : ∀ head ∈ (last :: rest).head?, head.chars = [] → heard settings head = "" := by
    rintro _ ⟨⟩ hchars
    rw [eq_fresh hchars (hempty hchars), heard_fresh]
  constructor
  · simp only [Ribbon.turn]
    split_ifs
    · exact h.lawful
    · exact h.lawful.2
    · exact ⟨isLawful_fresh htag _, h.lawful.2⟩
    · exact ⟨isLawful_fresh htag _, h.lawful⟩
  · rw [Ribbon.told_turn heard_fresh tag hclean]
    exact h.spaced

theorem beginNext (h : IsVoiced settings rest spaced) {tag : Tag} (htag : tag ≠ .space) :
    IsVoiced settings (rest.beginNext tag) spaced := by
  constructor
  · rw [Ribbon.beginNext]
    split
    · exact h.lawful
    · exact ⟨isLawful_fresh htag _, h.lawful⟩
  · rw [Ribbon.told_beginNext heard_fresh tag rest]
    exact h.spaced

/-- Markup is not heard when it is read. -/
theorem put (h : IsVoiced settings (last :: rest) spaced) (hmarkup : last.tag.IsMarkup) (c : Char) :
    IsVoiced settings (Ribbon.put c (last :: rest)) spaced := by
  have hsame : heard settings { last with chars := last.chars ++ [c] } = heard settings last := by
    rw [heard_markup hmarkup]
    exact heard_markup (by exact hmarkup)
  constructor
  · exact ⟨isLawful_markup (by exact hmarkup) _, h.lawful.2⟩
  · apply h.spaced.trans
    change isSpaced _ = isSpaced (_ ++ heard settings { last with chars := last.chars ++ [c] })
    rw [hsame, Ribbon.told]

/-- Where markup begins it stands last, and nothing is heard of it yet. -/
theorem turn_put (h : IsVoiced settings (last :: rest) spaced)
    (hempty : last.chars = [] → last.rendering = none) {tag : Tag} (htag : tag.IsMarkup) (c : Char) :
    ∃ head tail, (Ribbon.turn tag (last :: rest)).put c = head :: tail ∧ head.tag = tag ∧
      head.chars ≠ [] ∧ IsVoiced settings (head :: tail) spaced := by
  obtain ⟨head, tail, hturn, hhead⟩ := Ribbon.exists_turn tag (last :: rest)
  have hvoiced := h.turn hempty htag.ne.2.1
  rw [hturn] at hvoiced ⊢
  exact ⟨_, _, rfl, hhead, by simp, hvoiced.put (hhead ▸ htag) c⟩

/-- Text is, character by character. -/
theorem put_text (h : IsVoiced settings (last :: rest) spaced) (htext : last.tag = .text) {c : Char}
    (hc : isBlank c = false) : IsVoiced settings (Ribbon.put c (last :: rest)) false := by
  have hprose : heard settings { last with chars := last.chars ++ [c] } =
      String.ofList (last.chars ++ [c]) := by
    rw [heard_eq_prose (by simp [htext])]
    exact prose_of_text (by exact htext)
  constructor
  · exact ⟨isLawful_text (by exact htext) _, h.lawful.2⟩
  · change false = isSpaced (_ ++ heard settings { last with chars := last.chars ++ [c] })
    rw [hprose, isSpaced_concat, hc]

/-- What is added to the rendering of markup is heard. -/
theorem emit {π : Type} {reading : Reading π} (h : IsVoiced settings (last :: rest) reading.spaced)
    (hmarkup : last.tag.IsMarkup) (text : String) :
    IsVoiced settings (last.amend (·.append text) :: rest) (Step.emit text reading).2.spaced := by
  have hheard : heard settings (last.amend (·.append text)) = heard settings last ++ text := by
    rw [heard_markup (show (last.amend (·.append text)).tag.IsMarkup from hmarkup),
      heard_markup hmarkup]
    exact Boundary.getD_append (last.boundary 0) text
  constructor
  · exact ⟨isLawful_markup (by exact hmarkup) _, h.lawful.2⟩
  · rw [spaced_emit text h.spaced]
    simp only [Ribbon.told, hheard, String.append_assoc]

theorem resolve {π : Type} [Package π] {reading : Reading π}
    (h : IsVoiced settings (last :: rest) reading.spaced) (hmarkup : last.tag.IsMarkup)
    (command : Command) :
    ∃ rendering, (Step.resolve command reading).1.foldl Ribbon.edit (last :: rest) =
        { last with rendering := rendering } :: rest ∧
      IsVoiced settings ({ last with rendering := rendering } :: rest)
        (Step.resolve command reading).2.spaced := by
  rw [Step.resolve]
  split
  next text session hask =>
    exact ⟨_, rfl, @emit _ _ _ _ { reading with session := session } h hmarkup text⟩
  next session hask => exact ⟨_, rfl, h⟩

end IsVoiced

end TexProse.Latex
