import TexProse.Proofs.Tagging.Spans
import TexProse.Proofs.Tagging.Scan
import TexProse.Proofs.Text.Lines

/-!
# What a scan can know of the text ahead

A tagger that sees no further than the next character goes on alike in two texts as long as they agree, and
what it does later leaves the segments that have ended. Main statements: `Completes.spansTo_eq` for two scans
that succeed, and `Fails.of_common` for one that fails within the common part.

## Implementation notes

The two texts are never compared with each other. Each is compared with their common part, which is a text
of its own.

-/

namespace TexProse

section Lines

theorem takeWhile_lineStartsAfter_of_le {offset start : Nat} (h : offset ≤ start) (chars : List Char) :
    (lineStartsAfter start chars).takeWhile (· ≤ offset) = [] := by
  cases hstarts : lineStartsAfter start chars with
  | nil => rfl
  | cons first rest =>
      have hall := pairwise_lineStartsAfter start chars
      rw [hstarts] at hall
      have hfirst := List.rel_of_pairwise_cons hall List.mem_cons_self
      rw [List.takeWhile_cons_of_neg (by simp only [decide_eq_true_eq]; omega)]

theorem lineStartsAfter_cons_cons {c next : Char} (hpair : ¬ (c = '\r' ∧ next = '\n')) (start : Nat)
    (rest : List Char) :
    lineStartsAfter start (c :: next :: rest) =
      if c = '\n' ∨ c = '\r' then (start + 1) :: lineStartsAfter (start + 1) (next :: rest)
      else lineStartsAfter (start + 1) (next :: rest) := by
  apply lineStartsAfter.eq_3
  intro tail hc hnext
  exact hpair ⟨hc, (List.cons.inj hnext).1⟩

/-- The lines that have started at an offset of a text do not depend on what follows the text, even if it
ends between a carriage return and a line feed. -/
theorem takeWhile_lineStartsAfter_append {offset start : Nat} (chars more : List Char)
    (h : offset < start + chars.length) :
    (lineStartsAfter start (chars ++ more)).takeWhile (· ≤ offset) =
      (lineStartsAfter start chars).takeWhile (· ≤ offset) := by
  induction chars using List.twoStepInduction generalizing start with
  | nil =>
      have hle : offset ≤ start := Nat.le_of_lt h
      rw [takeWhile_lineStartsAfter_of_le hle, takeWhile_lineStartsAfter_of_le hle]
  | singleton c =>
      have hle : offset ≤ start := Nat.le_of_lt_succ h
      rw [takeWhile_lineStartsAfter_of_le hle, takeWhile_lineStartsAfter_of_le hle]
  | cons_cons c next rest ih ihnext =>
      simp only [List.length_cons] at h ihnext
      by_cases hpair : c = '\r' ∧ next = '\n'
      · obtain ⟨rfl, rfl⟩ := hpair
        simp only [List.cons_append, lineStartsAfter, List.takeWhile_cons]
        rw [ih (by omega)]
      · have hrest := ihnext next (show offset < start + 1 + (rest.length + 1) by omega)
        simp only [List.cons_append] at hrest ⊢
        rw [lineStartsAfter_cons_cons hpair, lineStartsAfter_cons_cons hpair]
        split
        · rw [List.takeWhile_cons, List.takeWhile_cons, hrest]
        · exact hrest

end Lines

namespace Source
variable {source : Source}

/-- A location ends with its offset in brackets. -/
theorem exists_location (source : Source) (offset : Nat) :
    ∃ line, source.location offset = line ++ " (" ++ toString offset ++ ")" := by
  rw [location]
  split
  next line column hposition => exact ⟨toString line ++ ":" ++ toString column, rfl⟩
  next hposition => exact ⟨toString source.lineCount ++ ":?", by simp [String.append_assoc]⟩

/-- Locations tell offsets apart. -/
theorem location_inj {offset offset' : Nat} (h : source.location offset = source.location offset') :
    offset = offset' := by
  have hdigits (n : Nat) (line : String) :
      ((line ++ " (" ++ toString n ++ ")").toList.reverse.tail.takeWhile Char.isDigit).reverse =
        Nat.toDigits 10 n := by
    have hall : ∀ c ∈ (Nat.toDigits 10 n).reverse, c.isDigit = true := by
      intro c hc
      exact Nat.isDigit_of_mem_toDigits (by decide) (by decide) (List.mem_reverse.mp hc)
    have hread : (line ++ " (" ++ toString n ++ ")").toList.reverse.tail =
        (Nat.toDigits 10 n).reverse ++ '(' :: ' ' :: line.toList.reverse := by
      simp
    rw [hread, List.takeWhile_append_of_pos hall]
    simp
  obtain ⟨line, hline⟩ := source.exists_location offset
  obtain ⟨line', hline'⟩ := source.exists_location offset'
  have hsame : Nat.toDigits 10 offset = Nat.toDigits 10 offset' := by
    rw [← hdigits offset line, ← hdigits offset' line', ← hline, ← hline', h]
  rw [← @Nat.ofDigitChars_toDigits 10 offset (by decide) (by decide), hsame,
    @Nat.ofDigitChars_toDigits 10 offset' (by decide) (by decide)]

section Prefix
variable {common : List Char} (h : common <+: source.chars.toList)
include h

theorem char?_of_isPrefix {offset : Nat} (hoffset : offset < common.length) :
    source.char? offset = (ofChars common.toArray).char? offset := by
  obtain ⟨more, hmore⟩ := h
  rw [char?, char?, ← Array.getElem?_toList, ← hmore, List.getElem?_append_left hoffset]
  exact List.getElem?_toArray.symm

theorem slice_of_isPrefix {start stop : Nat} (hstop : stop ≤ common.length) :
    source.slice start stop = (ofChars common.toArray).slice start stop := by
  obtain ⟨more, hmore⟩ := h
  have htake : source.chars.toList.take stop = common.take stop := by
    rw [← hmore, List.take_append_of_le_length hstop]
  rw [← String.toList_inj, toList_slice, toList_slice, ← List.drop_take, htake, List.drop_take]
  rfl

theorem location_of_isPrefix {offset : Nat} (hoffset : offset < common.length) :
    source.location offset = (ofChars common.toArray).location offset := by
  have hlength : common.length ≤ source.length := h.length_le
  obtain ⟨more, hmore⟩ := h
  have hbegun : source.lineStarts.takeWhile (· ≤ offset) =
      (ofChars common.toArray).lineStarts.takeWhile (· ≤ offset) := by
    rw [source.lineStarts_eq, (ofChars common.toArray).lineStarts_eq, ← hmore]
    simp only [List.takeWhile_cons]
    congr 2
    exact takeWhile_lineStartsAfter_append common more (by omega)
  have hcommon : (ofChars common.toArray).length = common.length := rfl
  rw [location, location, position?, position?, hbegun, if_neg (by omega), if_neg (by omega)]

end Prefix

end Source

/-- Two places that look the same to a tagger that sees no further than the next character. -/
structure Cursor.Resembles (here there : Cursor) : Prop where
  offset : here.offset = there.offset
  char : here.char = there.char
  next? : here.next? = there.next?
  previous? : here.previous? = there.previous?
  location : here.location = there.location
  slice : ∀ start stop, stop ≤ here.offset + 2 → here.source.slice start stop = there.source.slice start stop

namespace Cursor

theorem Resembles.symm {here there : Cursor} (h : here.Resembles there) : there.Resembles here where
  offset := h.offset.symm
  char := h.char.symm
  next? := h.next?.symm
  previous? := h.previous?.symm
  location := h.location.symm
  slice start stop hstop := (h.slice start stop (h.offset ▸ hstop)).symm

theorem Resembles.trans {here there other : Cursor} (h : here.Resembles there)
    (h' : there.Resembles other) : here.Resembles other where
  offset := h.offset.trans h'.offset
  char := h.char.trans h'.char
  next? := h.next?.trans h'.next?
  previous? := h.previous?.trans h'.previous?
  location := h.location.trans h'.location
  slice start stop hstop := (h.slice start stop hstop).trans (h'.slice start stop (h.offset ▸ hstop))

/-- As long as another character of it follows, a place in a text looks as it does in any text that goes
on. -/
theorem resembles_of_isPrefix {source : Source} {common : List Char} {offset : Nat}
    (h : common <+: source.chars.toList) (hoffset : offset + 2 ≤ common.length) :
    Resembles ⟨source, offset⟩ ⟨.ofChars common.toArray, offset⟩ := by
  have hread (place : Nat) (hplace : place < offset + 2) :
      source.char? place = (Source.ofChars common.toArray).char? place :=
    Source.char?_of_isPrefix h (by omega)
  constructor
  · rfl
  · exact congrArg (Option.getD · '\x00') (hread offset (by omega))
  · exact hread (offset + 1) (by omega)
  · exact congrArg (fun found => if offset = 0 then none else found) (hread (offset - 1) (by omega))
  · exact Source.location_of_isPrefix h (show offset < common.length by omega)
  · intro start stop hstop
    exact Source.slice_of_isPrefix h (Nat.le_trans hstop hoffset)

/-- A place in the common part of two texts looks alike in both. -/
theorem resembles_of_common {source source' : Source} {common : List Char} {offset : Nat}
    (h : common <+: source.chars.toList) (h' : common <+: source'.chars.toList)
    (hoffset : offset + 2 ≤ common.length) : Resembles ⟨source, offset⟩ ⟨source', offset⟩ :=
  (resembles_of_isPrefix h hoffset).trans (resembles_of_isPrefix h' hoffset).symm

end Cursor

namespace Ribbon
variable {τ : Type}

/-- The segments that end within the first `count` characters. -/
def spansTo (count : Nat) (ribbon : Ribbon τ) : List (Span τ) :=
  (spans ribbon).filter (·.stop ≤ count)

/-- The last segment has not ended while the text goes on. -/
theorem spansTo_cons {count : Nat} {last : Stretch τ} {rest : Ribbon τ}
    (h : count < (chars (last :: rest)).length) : spansTo count (last :: rest) = spansTo count rest := by
  rw [chars, List.length_append] at h
  have hstop : ¬ (last.span (chars rest).length).stop ≤ count := Nat.not_le.mpr h
  rw [spansTo, spans, List.filter_append, List.filter_cons_of_neg (by simpa using hstop), List.filter_nil,
    List.append_nil, spansTo]

section Frozen
variable {count : Nat} {ribbon : Ribbon τ} (h : count < (chars ribbon).length)
include h

theorem spansTo_put (c : Char) : spansTo count (put c ribbon) = spansTo count ribbon := by
  cases ribbon with
  | nil => cases h
  | cons last rest =>
      have hmore : count < (chars (put c (last :: rest))).length := by
        rw [chars_put c (by simp), List.length_append]
        omega
      exact (spansTo_cons hmore).trans (spansTo_cons h).symm

theorem spansTo_settle : spansTo count ribbon.settle = spansTo count ribbon := by
  unfold settle
  split
  · split
    · exact (spansTo_cons h).symm
    · rfl
  · rfl

theorem spansTo_retake (hretake : count < (chars ribbon.retake).length) :
    spansTo count ribbon.retake = spansTo count ribbon := by
  cases ribbon with
  | nil => rfl
  | cons last rest => exact (spansTo_cons hretake).trans (spansTo_cons h).symm

variable [DecidableEq τ]

theorem spansTo_turn (tag : τ) : spansTo count (turn tag ribbon) = spansTo count ribbon := by
  have hturn := h
  rw [← chars_turn tag] at hturn
  cases ribbon with
  | nil => cases h
  | cons last rest =>
      rw [spansTo_cons h]
      revert hturn
      simp only [turn]
      split_ifs with htag hchars hprevious
      · exact fun hturn => spansTo_cons hturn
      · exact fun _ => rfl
      · exact fun hturn => spansTo_cons hturn
      · exact fun hturn => (spansTo_cons hturn).trans (spansTo_cons h)

theorem spansTo_edit (e : Edit τ) : spansTo count (ribbon.edit e) = spansTo count ribbon := by
  have hedit := h
  rw [← chars_edit ribbon e] at hedit
  cases e with
  | tagHere tag => exact spansTo_turn h tag
  | tagNext tag => rfl
  | render text =>
      cases ribbon with
      | nil => rfl
      | cons last rest => exact (spansTo_cons hedit).trans (spansTo_cons h).symm
  | append text =>
      cases ribbon with
      | nil => rfl
      | cons last rest => exact (spansTo_cons hedit).trans (spansTo_cons h).symm

theorem spansTo_foldl_edit (edits : List (Edit τ)) :
    spansTo count (edits.foldl edit ribbon) = spansTo count ribbon := by
  induction edits generalizing ribbon with
  | nil => rfl
  | cons e rest ih =>
      have hedit : count < (chars (ribbon.edit e)).length := by rwa [chars_edit]
      exact (ih hedit).trans (spansTo_edit h e)

/-- No edit reaches back to a segment that has ended. -/
theorem spansTo_lay (hsolid : ribbon.IsSolid) (edits : List (Edit τ)) (c : Char) :
    spansTo count (ribbon.lay edits c) = spansTo count ribbon := by
  have hfold : count < (chars (edits.foldl edit ribbon)).length := by rwa [chars_foldl_edit]
  have hlay : count < (chars (ribbon.lay edits c)).length := by
    rw [chars_lay hsolid, List.length_append]
    omega
  rw [← spansTo_foldl_edit h edits, ← spansTo_put hfold c]
  rw [lay, Progress.finish, foldl_edit_ribbon] at hlay ⊢
  cases hahead : (edits.foldl Progress.edit ⟨ribbon, none⟩).ahead with
  | none => rfl
  | some tag =>
      rw [hahead] at hlay
      exact spansTo_cons hlay

end Frozen

/-- The end of a text takes back its last character, and no more. -/
theorem spansTo_close [DecidableEq τ] {count : Nat} {ribbon : Ribbon τ} (hsolid : ribbon.IsSolid)
    (hfull : ∀ stretch ∈ ribbon, stretch.chars ≠ []) (h : count + 1 < (chars ribbon).length)
    (edits : List (Edit τ)) : spansTo count (ribbon.close edits) = spansTo count ribbon := by
  have hretake : count < (chars ribbon.retake).length := by
    rw [chars_retake hfull, List.length_dropLast]
    omega
  rw [close]
  split
  next c hlast =>
    have hlay : count < (chars (ribbon.retake.lay edits c)).length := by
      rw [chars_lay hsolid.retake, List.length_append]
      omega
    calc spansTo count (ribbon.retake.lay edits c).settle
        = spansTo count (ribbon.retake.lay edits c) := spansTo_settle hlay
      _ = spansTo count ribbon.retake := spansTo_lay hretake hsolid.retake edits c
      _ = spansTo count ribbon := spansTo_retake (Nat.lt_of_succ_lt h) hretake
  next => rfl

end Ribbon

namespace Tagger
variable {τ σ : Type} [DecidableEq τ] {tagger : Tagger τ σ} {source source' : Source} {initial : σ}

/-- A tagger that sees no further than the next character. -/
def IsLocal (tagger : Tagger τ σ) : Prop :=
  ∀ window window' : Window τ, window.toCursor.Resembles window'.toCursor →
    tagger.onChar window = tagger.onChar window'

section Reaches
variable {count : Nat} {ribbon : Ribbon τ} {state : σ}

/-- What a scan has read decides what it has come to. -/
theorem Reaches.unique (hblind : tagger.IsBlind) {ribbon' : Ribbon τ} {state' : σ}
    (h : Reaches tagger source initial count ribbon state)
    (h' : Reaches tagger source initial count ribbon' state') : ribbon = ribbon' ∧ state = state' := by
  induction h generalizing ribbon' state' with
  | start =>
      cases h'
      exact ⟨rfl, rfl⟩
  | @step count ribbon middle state window edits before hcount hcursor hlist hedits ih =>
      cases h' with
      | @step _ ribbon' middle' state' window' edits' before' hcount' hcursor' hlist' hedits' =>
          obtain ⟨rfl, rfl⟩ := ih before'
          rw [hblind.onChar window window' (hcursor.trans hcursor'.symm)] at hedits
          obtain ⟨rfl, rfl⟩ : edits = edits' ∧ state = state' := by
            simpa using hedits.symm.trans hedits'
          exact ⟨rfl, rfl⟩

/-- A local tagger goes on alike where its places look alike. -/
theorem Reaches.replay (hlocal : tagger.IsLocal) (h : Reaches tagger source initial count ribbon state)
    (hlength : count ≤ source'.length)
    (hresembles : ∀ offset < count, Cursor.Resembles ⟨source, offset⟩ ⟨source', offset⟩) :
    Reaches tagger source' initial count ribbon state := by
  induction h with
  | start => exact .start
  | @step count ribbon middle state window edits before hcount hcursor hlist hedits ih =>
      have hbefore := ih (Nat.le_of_succ_le hlength) fun offset hoffset =>
        hresembles offset (Nat.lt_succ_of_lt hoffset)
      have hhere := hresembles count (Nat.lt_succ_self count)
      obtain ⟨segments, hsegments⟩ := exists_segments before.isSolid
      rw [hlocal window ⟨⟨source', count⟩, segments⟩ (hcursor ▸ hhere)] at hedits
      rw [hhere.char]
      exact .step hbefore hlength rfl hsegments hedits

/-- What has ended when a scan has come to a place stays as it is. -/
theorem Reaches.exists_earlier {place middle : Nat} (h : Reaches tagger source initial count ribbon state)
    (hplace : place < middle) (hmiddle : middle ≤ count) :
    ∃ earlier state', Reaches tagger source initial middle earlier state' ∧
      ribbon.spansTo place = earlier.spansTo place := by
  induction h with
  | start => exact absurd (Nat.lt_of_lt_of_le hplace hmiddle) (Nat.not_lt_zero place)
  | @step count ribbon before' state window edits before hcount hcursor hlist hedits ih =>
      by_cases hlater : middle ≤ count
      · obtain ⟨earlier, state', hreach, hsame⟩ := ih hlater
        have hread : place < ribbon.chars.length := by
          rw [before.length_chars]
          omega
        exact ⟨earlier, state', hreach, (Ribbon.spansTo_lay hread before.isSolid _ _).trans hsame⟩
      · obtain rfl : middle = count + 1 := by omega
        exact ⟨_, state, .step before hcount hcursor hlist hedits, rfl⟩

theorem Completes.exists_earlier {place middle : Nat} (h : Completes tagger source initial ribbon state)
    (hplace : place < middle) (hmiddle : middle < source.length) :
    ∃ earlier state', Reaches tagger source initial middle earlier state' ∧
      ribbon.spansTo place = earlier.spansTo place := by
  cases h with
  | empty hlength => omega
  | @ended ribbon _ _ window edits before hlength hcursor hlist hedits =>
      obtain ⟨hchars, hfull⟩ := before.settled hlength
      obtain ⟨earlier, state', hreach, hsame⟩ := before.exists_earlier hplace (Nat.le_of_lt hmiddle)
      have hread : place + 1 < ribbon.chars.length := by
        rw [before.length_chars]
        omega
      refine ⟨earlier, state', hreach, ?_⟩
      calc (ribbon.settle.close edits).spansTo place
          = ribbon.settle.spansTo place := by
            apply Ribbon.spansTo_close before.isSolid.settle hfull
            rwa [Ribbon.chars_settle]
        _ = ribbon.spansTo place := Ribbon.spansTo_settle (Nat.lt_of_succ_lt hread)
        _ = earlier.spansTo place := hsame

end Reaches

section Prefix
variable {common : List Char} (hlocal : tagger.IsLocal) (h : common <+: source.chars.toList)
variable (h' : common <+: source'.chars.toList)
include hlocal h h'

/-- A scan reads the common part of two texts alike in both, up to its last character. -/
theorem Reaches.of_common {count : Nat} {ribbon : Ribbon τ} {state : σ} (hcount : count < common.length)
    (hreach : Reaches tagger source initial count ribbon state) :
    Reaches tagger source' initial count ribbon state := by
  apply hreach.replay hlocal (Nat.le_trans (Nat.le_of_lt hcount) h'.length_le)
  intro offset hoffset
  exact Cursor.resembles_of_common h h' (by omega)

/-- What ends before the last character of the common part is the same, whatever follows. -/
theorem Completes.spansTo_eq (hblind : tagger.IsBlind) {ribbon ribbon' : Ribbon τ} {state state' : σ}
    {place : Nat} (hplace : place + 2 ≤ common.length)
    (hcompletes : Completes tagger source initial ribbon state)
    (hcompletes' : Completes tagger source' initial ribbon' state') :
    ribbon.spansTo place = ribbon'.spansTo place := by
  have hlength : common.length ≤ source.length := h.length_le
  have hlength' : common.length ≤ source'.length := h'.length_le
  obtain ⟨earlier, _, hreach, hsame⟩ :=
    hcompletes.exists_earlier (Nat.lt_succ_self place) (show place + 1 < source.length by omega)
  obtain ⟨earlier', _, hreach', hsame'⟩ :=
    hcompletes'.exists_earlier (Nat.lt_succ_self place) (show place + 1 < source'.length by omega)
  have hmoved := hreach.of_common hlocal h h' (show place + 1 < common.length by omega)
  obtain ⟨rfl, -⟩ := hmoved.unique hblind hreach'
  rw [hsame, hsame']

/-- A failure before the last character of the common part comes whatever follows. -/
theorem Fails.of_common {failure cause : Failure} {state : σ} {offset : Nat}
    (hoffset : offset + 2 ≤ common.length) (hplace : failure = .within (source.location offset) cause)
    (hfails : Fails tagger source initial failure state) :
    Fails tagger source' initial failure state := by
  have hlength : common.length ≤ source.length := h.length_le
  have hlength' : common.length ≤ source'.length := h'.length_le
  cases hfails with
  | @step count ribbon middle _ window _ before hcount hcursor hlist hcause =>
      obtain rfl : count = offset := Source.location_inj (Failure.within.inj hplace).1
      have hhere := Cursor.resembles_of_common h h' hoffset
      have hmoved := before.of_common hlocal h h' (show count < common.length by omega)
      obtain ⟨segments, hsegments⟩ := exists_segments before.isSolid
      rw [hlocal window ⟨⟨source', count⟩, segments⟩ (hcursor ▸ hhere)] at hcause
      rw [show source.location count = source'.location count from hhere.location]
      exact .step hmoved (show count < source'.length by omega) rfl hsegments hcause
  | ended before hpos =>
      have hsame := Source.location_inj (Failure.within.inj hplace).1
      omega

end Prefix

end Tagger

end TexProse
