import TexProse.Proofs.Latex.Acceptance
import TexProse.Proofs.Latex.Enclosure

/-!
# The quotation marks of a text

Every quotation mark is rendered once, as the mark of the pair that it makes with the character behind it or
as itself, and one that makes no pair is noticed at that character. A mark is resolved one character late, so
along a scan the last one is still pending. Main statement: `quotations_of_read`.

## Implementation notes

`quotations` and `quoteNotices` look at the text alone. `Resolves` compares them with the segments and the
notices of a reading, mode by mode; only text, blanks and marks occur without commands, comments and groups.
-/

namespace TexProse

namespace Notice

/-- A notice about a quotation mark. -/
def isOfQuote : Notice → Bool
  | .bareQuote _ | .unknownQuote .. => true
  | _ => false

end Notice

namespace Source

/-- The character before a place is the last one that was read. -/
theorem previous?_eq_getLast? {source : Source} {count : Nat} (h : count ≤ source.length) :
    Cursor.previous? ⟨source, count⟩ = (source.chars.toList.take count).getLast? := by
  have hprevious := Cursor.previous?_of_split (List.take_append_drop count source.chars.toList).symm
  have hlength : (source.chars.toList.take count).length = count := List.length_take_of_le h
  rwa [hlength] at hprevious

end Source

namespace Latex
variable {π : Type} {settings : Settings}

/-- What the quotation marks of a text stand for. -/
def quotations (settings : Settings) : List Char → String
  | [] => ""
  | c :: rest =>
    (if c = '"' then (rest.head?.bind (pairedQuote? settings)).getD "\"" else "") ++ quotations settings rest

/-- The notice of a quotation mark right before the place, if the two characters make no pair. -/
def quoteNotice? (settings : Settings) (here : Cursor) : Option Notice :=
  if here.previous? = some '"' ∧ pairedQuote? settings here.char = none then
    some (if isLetter here.char then .bareQuote here.location else .unknownQuote here.location here.char)
  else none

/-- The notices of the marks that make no pair, as far as the first `count` characters tell. -/
def quoteNoticesTo (settings : Settings) (source : Source) (count : Nat) : List Notice :=
  (List.range count).filterMap fun offset => quoteNotice? settings ⟨source, offset⟩

/-- The notices of all marks in a text that make no pair. The last character makes none. -/
def quoteNotices (settings : Settings) (source : Source) : List Notice :=
  quoteNoticesTo settings source source.length

/-- Texts can be taken apart wherever no pair stands. -/
theorem quotations_append {first second : List Char}
    (h : first.getLast? = some '"' → second.head?.bind (pairedQuote? settings) = none) :
    quotations settings (first ++ second) = quotations settings first ++ quotations settings second := by
  induction first with
  | nil => simp [quotations]
  | cons c rest ih =>
      cases rest with
      | nil =>
          by_cases hc : c = '"'
          · simp [quotations, hc, h (by simp [hc])]
          · simp [quotations, hc]
      | cons next rest =>
          rw [List.getLast?_cons_cons] at h
          change _ ++ quotations settings (next :: rest ++ second) =
            (_ ++ quotations settings (next :: rest)) ++ quotations settings second
          rw [ih h, String.append_assoc]
          rfl

theorem quotations_singleton (c : Char) : quotations settings [c] = if c = '"' then "\"" else "" := by
  simp [quotations]

theorem quotations_concat {read : List Char} {c : Char}
    (h : read.getLast? = some '"' → pairedQuote? settings c = none) :
    quotations settings (read ++ [c]) = quotations settings read ++ if c = '"' then "\"" else "" := by
  rw [quotations_append (by simpa using h), quotations_singleton]

theorem quotations_concat_pair {read : List Char} {c : Char} {mark : String}
    (hmark : pairedQuote? settings c = some mark) :
    quotations settings (read ++ ['"'] ++ [c]) = quotations settings read ++ mark := by
  have hc : c ≠ '"' := by
    rintro rfl
    cases hmark
  rw [List.append_assoc, quotations_append (by simp)]
  simp [quotations, hmark, hc]

theorem quoteNoticesTo_succ (source : Source) (count : Nat) :
    quoteNoticesTo settings source (count + 1) =
      quoteNoticesTo settings source count ++ (quoteNotice? settings ⟨source, count⟩).toList := by
  rw [quoteNoticesTo, List.range_succ, List.filterMap_append, quoteNoticesTo]
  rfl

/-- What a segment says if it consists of quotation marks. -/
def quoted (stretch : Stretch Tag) : String :=
  if stretch.tag = .quotationMarks then stretch.rendering.getD "" else ""

section Told
variable {here : Cursor} {last : Stretch Tag} {rest : Ribbon Tag}

theorem quoted_fresh (tag : Tag) : quoted { tag := tag } = "" := by
  rw [quoted]
  split <;> rfl

theorem quoted_of_clean (hempty : last.chars = [] → last.rendering = none) :
    ∀ head ∈ (last :: rest).head?, head.chars = [] → quoted head = "" := by
  rintro _ ⟨⟩ hchars
  rw [eq_fresh hchars (hempty hchars), quoted_fresh]

theorem told_quoted_put (c : Char) (ribbon : Ribbon Tag) :
    (ribbon.put c).told quoted = ribbon.told quoted := by
  cases ribbon <;> rfl

/-- What a character opens has said nothing of the marks. -/
theorem told_textRule (reading : Reading π) (hempty : last.chars = [] → last.rendering = none) :
    (((textRule here reading).1.foldl Ribbon.edit (last :: rest)).put here.char).told quoted =
      Ribbon.told quoted (last :: rest) := by
  rw [told_quoted_put]
  rcases textRule_cases here reading with ⟨tag, -, -, hrule⟩ | ⟨-, -, reading', hrule, -⟩
  · rw [hrule]
    exact Ribbon.told_turn quoted_fresh tag (quoted_of_clean hempty)
  · rw [hrule]
    rfl

theorem told_backToText {step : Step π} {ribbon : Ribbon Tag} (hcalm : Edit.IsCalm step.1)
    (hfold : step.1.foldl Ribbon.edit ribbon = last :: rest) (hsome : last.chars ≠ []) :
    (ribbon.lay (backToText here step).1 here.char).told quoted = Ribbon.told quoted (last :: rest) := by
  obtain ⟨head, tail, hturn, -, hempty, hback⟩ := exists_backToText here hfold hsome
  have hclean : head.chars = [] → head.rendering = none := by
    intro hchars
    rw [(hempty hchars).1]
  rw [Ribbon.lay_calm (isCalm_backToText here hcalm), hback, told_textRule _ hclean, ← hturn]
  exact Ribbon.told_turn quoted_fresh .text (quoted_of_clean fun hchars => absurd hchars hsome)

/-- Marks say what is added to their rendering. -/
theorem told_append {chars : List Char} {rendering : Option String} (text : String) :
    Ribbon.told quoted (Ribbon.edit (⟨.quotationMarks, chars, rendering⟩ :: rest) (.append text)) =
      Ribbon.told quoted (⟨.quotationMarks, chars, rendering⟩ :: rest) ++ text := by
  have hmore := Boundary.getD_append (Stretch.boundary ⟨Tag.quotationMarks, chars, rendering⟩ 0) text
  exact (congrArg (Ribbon.told quoted rest ++ ·) hmore).trans String.append_assoc.symm

end Told

/-- The mark that is still to be rendered. -/
def Mode.pending : Mode → String
  | .quote => "\""
  | _ => ""

/-- In a text of words, blanks and quotation marks only a mark waits for the character behind it. -/
def Mode.Quotes (read : List Char) : Mode → Prop
  | .text | .space _ => read.getLast? ≠ some '"'
  | .quote => read.getLast? = some '"'
  | _ => False

/-- What a reading has made of the quotation marks so far. -/
structure Resolves (settings : Settings) (source : Source) (count : Nat) (ribbon : Ribbon Tag)
    (reading : Reading π) : Prop where
  mode : reading.mode.Quotes (source.chars.toList.take count)
  told : ribbon.told quoted ++ reading.mode.pending = quotations settings (source.chars.toList.take count)
  notices : reading.session.notices.toList.filter Notice.isOfQuote = quoteNoticesTo settings source count

/-- A character that begins no command, no comment and no group. -/
def IsFlat (c : Char) : Prop := c ≠ '\\' ∧ c ≠ '%' ∧ c ≠ '{'

section Mode
variable {c : Char}

theorem ne_quote_of_isBlank (hc : isBlank c = true) : c ≠ '"' := by
  rintro rfl
  exact absurd hc (by decide)

theorem ofChar_cases (hflat : IsFlat c) (offset : Nat) :
    (c = '"' ∧ Mode.ofChar offset c = .quote) ∨
      (c ≠ '"' ∧ (Mode.ofChar offset c = .text ∨ Mode.ofChar offset c = .space offset)) := by
  obtain ⟨hname, hcomment, hgroup⟩ := hflat
  rw [Mode.ofChar]
  rw [if_neg hcomment, if_neg hname, if_neg hgroup]
  split_ifs with hblank hquote
  · exact .inr ⟨ne_quote_of_isBlank hblank, .inr rfl⟩
  · exact .inl ⟨hquote, rfl⟩
  · exact .inr ⟨hquote, .inl rfl⟩

theorem quotes_ofChar (hflat : IsFlat c) (offset : Nat) (read : List Char) :
    (Mode.ofChar offset c).Quotes (read ++ [c]) := by
  rcases ofChar_cases hflat offset with ⟨rfl, hmode⟩ | ⟨hc, hmode | hmode⟩ <;> simp_all [Mode.Quotes]

theorem pending_ofChar (hflat : IsFlat c) (offset : Nat) :
    (Mode.ofChar offset c).pending = if c = '"' then "\"" else "" := by
  rcases ofChar_cases hflat offset with ⟨rfl, hmode⟩ | ⟨hc, hmode | hmode⟩ <;> simp_all [Mode.pending]

end Mode

section Notices
variable {here : Cursor} {reading : Reading π}

theorem notices_textRule (here : Cursor) (reading : Reading π) :
    (textRule here reading).2.session.notices.toList.filter Notice.isOfQuote =
      reading.session.notices.toList.filter Notice.isOfQuote := by
  rw [textRule]
  dsimp only
  split_ifs
  · rfl
  · rfl
  · rfl
  · rfl
  · rfl
  · cases hnotice : missingSpace? here with
    | none => rfl
    | some notice =>
        have hspace : notice.isOfQuote = false := by
          rw [missingSpace?] at hnotice
          split at hnotice
          · cases hnotice
            rfl
          · cases hnotice
        simp [Session.notify, Reading.notify, Reading.enter, hspace]

theorem notices_closeSpace (here : Cursor) (start stop : Nat) (reading : Reading π) :
    (closeSpace here start stop reading).2.session = reading.session := by
  rw [closeSpace]
  split <;> rfl

end Notices

section Step
variable {here : Cursor} {reading : Reading π} {ribbon : Ribbon Tag}
variable (hcount : here.offset < here.source.length) (hflat : IsFlat here.char)
include hcount

/-- Behind a character that is no quotation mark there is nothing to notice. -/
theorem quoteNotice?_eq_none
    (hquiet : (here.source.chars.toList.take here.offset).getLast? ≠ some '"') :
    quoteNotice? settings here = none := by
  rw [quoteNotice?]
  apply if_neg
  rintro ⟨hprevious, -⟩
  exact hquiet ((Source.previous?_eq_getLast? (Nat.le_of_lt hcount)).symm.trans hprevious)

include hflat

/-- A character that is read as text, once all marks before it are rendered and noticed. -/
theorem resolves_ofChar (hmode : reading.mode = Mode.ofChar here.offset here.char)
    (htold : ribbon.told quoted = quotations settings (here.source.chars.toList.take here.offset))
    (halone : (here.source.chars.toList.take here.offset).getLast? = some '"' →
      pairedQuote? settings here.char = none)
    (hnotices : reading.session.notices.toList.filter Notice.isOfQuote =
      quoteNoticesTo settings here.source here.offset ++ (quoteNotice? settings here).toList) :
    Resolves settings here.source (here.offset + 1) ribbon reading := by
  have htake := Source.take_succ hcount
  refine ⟨?_, ?_, hnotices.trans (quoteNoticesTo_succ here.source here.offset).symm⟩
  · rw [hmode, htake]
    exact quotes_ofChar hflat _ _
  · rw [hmode, pending_ofChar hflat, htold, htake]
    exact (quotations_concat halone).symm

end Step

section Move
variable [Package π] {nested : Nested π} {here : Cursor} {reading : Reading π} {ribbon : Ribbon Tag}

/-- Every move renders and notices the mark before its character, if there is one. -/
theorem Move.resolves {step : Step π} (h : Move settings nested here reading step)
    (hcount : here.offset < here.source.length) (hflat : IsFlat here.char)
    (hfits : Fits settings here.offset reading.spaced reading.mode ribbon)
    (hresolves : Resolves settings here.source here.offset ribbon reading) :
    Resolves settings here.source (here.offset + 1) (ribbon.lay step.1 here.char) step.2 := by
  obtain ⟨hquotes, htold, hnotices⟩ := hresolves
  cases h with
  | text hmode =>
      rw [hmode] at hquotes htold hfits
      cases hfits with
      | text htag hempty hvoiced =>
          apply resolves_ofChar hcount hflat (mode_textRule here reading)
          · rw [Ribbon.lay_calm (isCalm_textRule _ _), told_textRule _ fun hchars => (hempty hchars).1]
            exact String.append_empty.symm.trans htold
          · exact fun hlast => absurd hlast hquotes
          · rw [notices_textRule, hnotices, quoteNotice?_eq_none hcount hquotes]
            exact (List.append_nil _).symm
  | blank hmode hc =>
      rw [hmode] at hquotes htold
      have hc' := ne_quote_of_isBlank hc
      have hlay : ribbon.lay (Step.edit [] reading).1 here.char = ribbon.put here.char := rfl
      refine ⟨?_, ?_, ?_⟩
      · rw [Step.edit, hmode, Source.take_succ hcount]
        simpa [Mode.Quotes] using hc'
      · rw [hlay, told_quoted_put, Step.edit, hmode, htold, Source.take_succ hcount,
          quotations_concat fun hlast => absurd hlast hquotes, if_neg hc', String.append_empty]
      · rw [Step.edit, hnotices, quoteNoticesTo_succ, quoteNotice?_eq_none hcount hquotes]
        exact (List.append_nil _).symm
  | @endSpace start hmode hc =>
      rw [hmode] at hquotes htold hfits
      cases hfits with
      | @space _ chars rest hsome hblank hstart hvoiced =>
          obtain ⟨rendering, hfold⟩ := exists_rendering
            (isAmending_closeSpace here reading start here.offset) ⟨.space, chars, none⟩ rest
          apply resolves_ofChar hcount hflat (mode_textRule here _)
          · rw [told_backToText (isCalm_closeSpace _ _ _ _) hfold hsome]
            exact String.append_empty.symm.trans htold
          · exact fun hlast => absurd hlast hquotes
          · refine (notices_textRule here _).trans ?_
            rw [quoteNotice?_eq_none hcount hquotes, ← hnotices]
            change List.filter _ (closeSpace here _ _ reading).2.session.notices.toList = _
            rw [notices_closeSpace]
            exact (List.append_nil _).symm
  | @pair mark hmode hmark =>
      rw [hmode] at hquotes htold hfits
      cases hfits with
      | @quote chars rendering rest hmarks hlawful hspaced =>
          obtain ⟨before, htake⟩ := List.getLast?_eq_some_iff.mp hquotes
          have hnone : quoteNotice? settings here = none := by simp [quoteNotice?, hmark]
          have hc : here.char ≠ '"' := by
            intro hc
            rw [hc] at hmark
            cases hmark
          have hsaid : Ribbon.told quoted (⟨.quotationMarks, chars ++ ['"'], rendering⟩ :: rest) =
              quotations settings before := by
            rw [htake, quotations_concat (fun _ => pairedQuote?_quote settings), if_pos rfl] at htold
            exact (String.append_left_inj "\"").mp htold
          refine ⟨?_, ?_, ?_⟩
          · rw [Source.take_succ hcount]
            simpa [Step.andThen, Step.into, Reading.enter, Mode.Quotes] using hc
          · rw [Source.take_succ hcount, htake, quotations_concat_pair hmark, ← hsaid, Step.andThen,
              Step.into, Ribbon.lay_tagNext (fun tag => by simp [Step.emit]),
              Ribbon.told_beginNext quoted_fresh, told_quoted_put]
            exact (congrArg (· ++ "") (told_append mark)).trans String.append_empty
          · rw [quoteNoticesTo_succ, hnone, ← hnotices]
            exact (List.append_nil _).symm
  | @straight notice hmode hmark hnotice =>
      rw [hmode] at hquotes htold hfits
      cases hfits with
      | @quote chars rendering rest hmarks hlawful hspaced =>
          have hprevious : here.previous? = some '"' :=
            (Source.previous?_eq_getLast? (Nat.le_of_lt hcount)).trans hquotes
          have hsome : quoteNotice? settings here = some notice := by
            rw [quoteNotice?, if_pos ⟨hprevious, hmark⟩, hnotice]
          have hkind : notice.isOfQuote = true := by
            rw [hnotice]
            split <;> rfl
          apply resolves_ofChar hcount hflat (mode_textRule here _)
          · rw [told_backToText (fun tag => by simp) rfl (by simp)]
            exact (told_append "\"").trans htold
          · exact fun _ => hmark
          · refine (notices_textRule here _).trans ?_
            rw [hsome, ← hnotices]
            simp [Step.into, Reading.enter, Reading.notify, Session.notify, hkind]
  | _ => simp_all [Mode.Quotes]

end Move

section Run
variable [Package π] {nested : Nested π} {source : Source} {session : Session π} {reading : Reading π}
variable {ribbon : Ribbon Tag} (hsource : ∀ c ∈ source.chars.toList, IsFlat c)
  (hsession : session.notices = #[])
include hsource hsession

theorem Reaches.resolves {count : Nat}
    (h : (tagger settings nested).Reaches source { session := session } count ribbon reading) :
    Resolves settings source count ribbon reading := by
  induction h with
  | start => exact ⟨by simp [Mode.Quotes], rfl, by simp [hsession, quoteNoticesTo]⟩
  | @step count ribbon reading reading' window edits before hcount hcursor hlist hedits ih =>
      have hmove := move_of_outcome hedits
      rw [hcursor] at hmove
      have hmem : Cursor.char ⟨source, count⟩ ∈ source.chars.toList := by
        rw [Source.eq_take_append hcount]
        simp
      exact @Move.resolves _ _ _ _ ⟨source, count⟩ _ _ _ hmove hcount (hsource _ hmem)
        (Reaches.fits rfl rfl before) ih

/-- The end of a text renders the mark that it ends with, and notices nothing. -/
theorem Completes.resolves
    (h : (tagger settings nested).Completes source { session := session } ribbon reading) :
    ribbon.told quoted = quotations settings source.chars.toList ∧
      reading.session.notices.toList.filter Notice.isOfQuote = quoteNotices settings source := by
  cases h with
  | empty hlength =>
      have hnil : source.chars.toList = [] := List.eq_nil_of_length_eq_zero hlength
      simp [hnil, quotations, quoteNotices, quoteNoticesTo, hlength, hsession, Ribbon.told, quoted_fresh]
  | @ended ribbon middle _ window edits before hlength hcursor hlist hedits =>
      obtain ⟨hquotes, htold, hnotices⟩ := Reaches.resolves hsource hsession before
      have hfits := Reaches.fits rfl rfl before
      rw [source.take_length] at hquotes htold
      obtain ⟨last, rest, hsettle⟩ := List.exists_cons_of_ne_nil before.isSolid.settle.ne_nil
      have hsome : last.chars ≠ [] := (before.settled hlength).2 last (by simp [hsettle])
      have hclose := Ribbon.close_amending (isAmending_onEnd hedits) hsome rest
      rw [hsettle, hclose, ← hsettle]
      change (onEnd window).outcome middle = _ at hedits
      rw [outcome_onEnd] at hedits
      split at hedits <;> cases hedits
      next start hmode =>
        rw [hmode] at hfits htold
        cases hfits with
        | @space _ chars rest hchars hblank hstart hvoiced =>
            obtain ⟨rendering, hfold⟩ := exists_rendering
              (isAmending_closeSpace window.toCursor middle start (window.offset + 1)) ⟨.space, chars, none⟩ rest
            rw [Ribbon.settle_cons hchars, hfold, notices_closeSpace]
            exact ⟨String.append_empty.symm.trans htold, hnotices⟩
      next hmode =>
        rw [hmode] at hfits htold
        cases hfits with
        | @quote chars rendering rest hmarks hlawful hspaced =>
            rw [Ribbon.settle_cons (by simp)]
            exact ⟨(told_append "\"").trans htold, hnotices⟩
      next start hmode =>
        rw [hmode] at hquotes
        exact hquotes.elim
      next hmode =>
        rw [hmode] at hfits htold
        cases hfits with
        | @text last rest htag hempty hvoiced =>
            have hsettled : Ribbon.told quoted (Ribbon.settle (last :: rest)) = Ribbon.told quoted (last :: rest) :=
              Ribbon.told_settle (quoted_of_clean fun hchars => (hempty hchars).1)
            exact ⟨hsettled.trans (String.append_empty.symm.trans htold), hnotices⟩
      next hmode =>
        rw [hmode] at hquotes
        exact hquotes.elim

end Run

/-- What the segments with a tag say, one after the other. -/
theorem join_filter_spans (ribbon : Ribbon Tag) :
    String.join ((ribbon.spans.filter (·.tag = .quotationMarks)).map (·.rendering.getD "")) =
      ribbon.told quoted := by
  induction ribbon with
  | nil => rfl
  | cons last rest ih =>
      rw [Ribbon.spans, List.filter_append, List.map_append, String.join_append, ih, Ribbon.told, quoted]
      by_cases htag : last.tag = .quotationMarks <;> simp [htag, Stretch.span, Stretch.boundary]

/-- A text of words, blanks and quotation marks can be read. The renderings of its quotation marks are, in
order, the marks of the pairs and the marks that make none. The notices about quotation marks are those of the
marks that make no pair, each with the place and the kind of the character behind it. -/
theorem quotations_of_read [Package π] (settings : Settings) (packages : Chain π) {text : String}
    (hunmarked : IsUnmarked text.toList) (hgroup : '{' ∉ text.toList) :
    ∃ document map spans, (Document.withPackages settings packages text).read = (.ok (), document) ∧
      document.map = .ok map ∧ map.spans = .ok spans ∧
      String.join ((spans.filter (·.tag = .quotationMarks)).map (·.rendering.getD "")) =
        quotations settings text.toList ∧
      document.notices.toList.filter Notice.isOfQuote = quoteNotices settings (.ofString text) := by
  obtain ⟨document, hread⟩ : ∃ document,
      (Document.withPackages settings packages text).read = (.ok (), document) := by
    obtain ⟨hclosed, hshallow⟩ := groups_of_notMem hgroup settings.maxNesting
    rcases read_cases_of_isUnmarked settings packages hunmarked with
      ⟨document, hread, -⟩ | ⟨failure, document, -, -, hdeep⟩ | ⟨document, -, hopen, -⟩
    · exact ⟨document, hread⟩
    · exact absurd hshallow hdeep
    · exact absurd hclosed (Nat.ne_of_gt hopen)
  have hflat : ∀ c ∈ (Source.ofString text).chars.toList, IsFlat c := by
    intro c hc
    refine ⟨?_, ?_, ?_⟩ <;> rintro rfl
    · exact hunmarked.1 hc
    · exact hunmarked.2 hc
    · exact hgroup hc
  obtain ⟨map, ribbon, hmap, hsource, hcompletes, hprojects⟩ := Document.exists_projects hread
  obtain ⟨htold, hnotices⟩ := Completes.resolves hflat rfl hcompletes
  exact ⟨document, map, ribbon.spans, hread, hmap, hprojects.spans, (join_filter_spans ribbon).trans htold,
    hnotices⟩

theorem quotations_of_read_mixed :
    IsUnmarked "\"`a\"\"'.\n\"1 \"b\"".toList ∧ '{' ∉ "\"`a\"\"'.\n\"1 \"b\"".toList ∧
      ∃ document map spans, (Document.withPackages { openingQuote := "«", closingQuote := "»" }
          (Chain.bundled {}) "\"`a\"\"'.\n\"1 \"b\"").read = (.ok (), document) ∧
        document.map = .ok map ∧ map.spans = .ok spans ∧
        String.join ((spans.filter (·.tag = .quotationMarks)).map (·.rendering.getD "")) = "«\"»\"\"\"" ∧
        document.notices.toList.filter Notice.isOfQuote =
          [.unknownQuote "1:5 (4)" '"', .unknownQuote "2:2 (9)" '1', .bareQuote "2:5 (12)"] := by
  have hunmarked : IsUnmarked "\"`a\"\"'.\n\"1 \"b\"".toList := by constructor <;> decide
  have hgroup : '{' ∉ "\"`a\"\"'.\n\"1 \"b\"".toList := by decide
  obtain ⟨document, map, spans, hread, hmap, hspans, hsaid, hnotices⟩ :=
    quotations_of_read { openingQuote := "«", closingQuote := "»" } (Chain.bundled {}) hunmarked hgroup
  refine ⟨hunmarked, hgroup, document, map, spans, hread, hmap, hspans, ?_, ?_⟩
  · rw [hsaid]
    decide +kernel
  · rw [hnotices]
    decide +kernel

end Latex
end TexProse
