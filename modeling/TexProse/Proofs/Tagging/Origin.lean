import TexProse.Proofs.Tagging.Scan
import TexProse.Proofs.Tagging.Spans

/-!
# Where the prose of a text comes from

Each character of the prose is supplied by one segment. The transcript of a text that a ribbon lays out has
a piece for each segment, so the place it gives for a character can be read off the segment: places in text
are kept character by character, everything else stands for the start of its segment.
-/

namespace TexProse

namespace Span
variable {τ : Type} [SegmentTag τ]

/-- The segment as a piece of a transcript. -/
def piece (span : Span τ) : Piece := ⟨span.start, span.stop, span.text, span.role⟩

@[simp] theorem prose_piece (span : Span τ) : span.piece.prose = span.prose := by
  cases hplain : SegmentTag.isPlain span.tag <;> simp [Piece.prose, piece, role, prose, hplain]

/-- Text maps character by character. -/
theorem origin_of_isPlain {span : Span τ} (h : SegmentTag.isPlain span.tag = true) (inside : Nat) :
    span.piece.origin inside = span.start + inside := by
  simp [Piece.origin, piece, role, h]

/-- Whatever stands for markup comes from its start. -/
theorem origin_of_not_isPlain {span : Span τ} (h : SegmentTag.isPlain span.tag = false) (inside : Nat) :
    span.piece.origin inside = span.start := by
  simp [Piece.origin, piece, role, h]

theorem join_prose_piece (spans : List (Span τ)) :
    String.join ((spans.map piece).map Piece.prose) = String.join (spans.map prose) := by
  simp [Function.comp_def]

/-- The segment supplies the character at `offset` of the prose, which is the one at `inside` of what the
segment adds to it. -/
def Supplies (spans : List (Span τ)) (span : Span τ) (inside offset : Nat) : Prop :=
  ∃ before after, spans = before ++ span :: after ∧
    offset = (String.join (before.map prose)).length + inside ∧ inside < span.prose.length

/-- Every character of the prose is supplied. -/
theorem exists_supplies {spans : List (Span τ)} {offset : Nat}
    (h : offset < (String.join (spans.map prose)).length) :
    ∃ span inside, Supplies spans span inside offset := by
  induction spans generalizing offset with
  | nil => simp at h
  | cons first rest ih =>
      rw [List.map_cons, String.join_cons, String.length_append] at h
      by_cases hfirst : offset < first.prose.length
      · exact ⟨first, offset, [], rest, rfl, by simp, hfirst⟩
      · obtain ⟨span, inside, before, after, rfl, hoffset, hinside⟩ :=
          @ih (offset - first.prose.length) (by omega)
        refine ⟨span, inside, first :: before, after, rfl, ?_, hinside⟩
        rw [List.map_cons, String.join_cons, String.length_append]
        omega

namespace Supplies
variable {spans : List (Span τ)} {span : Span τ} {inside offset : Nat}

theorem mem (h : Supplies spans span inside offset) : span ∈ spans := by
  obtain ⟨before, after, rfl, -⟩ := h
  simp

theorem inside_lt (h : Supplies spans span inside offset) : inside < span.prose.length := by
  obtain ⟨-, -, -, -, hinside⟩ := h
  exact hinside

theorem getElem? (h : Supplies spans span inside offset) :
    (String.join (spans.map prose)).toList[offset]? = span.prose.toList[inside]? := by
  obtain ⟨before, after, rfl, rfl, hinside⟩ := h
  rw [List.map_append, String.join_append, String.toList_append,
    List.getElem?_append_right (by rw [String.length_toList]; omega), String.length_toList,
    Nat.add_sub_cancel_left, List.map_cons, String.join_cons, String.toList_append,
    List.getElem?_append_left (by rwa [String.length_toList])]

theorem lt_length (h : Supplies spans span inside offset) :
    offset < (String.join (spans.map prose)).length := by
  obtain ⟨before, after, rfl, rfl, hinside⟩ := h
  rw [List.map_append, String.join_append, String.length_append, List.map_cons, String.join_cons,
    String.length_append]
  omega

/-- A transcript gives for a character the place that the piece of its segment gives. -/
theorem originIn (h : Supplies spans span inside offset) (stop : Nat) :
    Transcript.originIn stop (spans.map piece) offset = span.piece.origin inside := by
  obtain ⟨before, after, rfl, rfl, hinside⟩ := h
  induction before with
  | nil => simp [Transcript.originIn, hinside]
  | cons first before ih =>
      rw [List.cons_append, List.map_cons, Transcript.originIn, prose_piece, if_neg]
      · rw [List.map_cons, String.join_cons, String.length_append, Nat.add_assoc,
          Nat.add_sub_cancel_left]
        exact ih
      · rw [List.map_cons, String.join_cons, String.length_append]
        omega

end Supplies

end Span

/-- Behind their prose all pieces stand for the end of the source. -/
theorem Transcript.originIn_of_le {stop offset : Nat} {pieces : List Piece}
    (h : (String.join (pieces.map Piece.prose)).length ≤ offset) : originIn stop pieces offset = stop := by
  induction pieces generalizing offset with
  | nil => rfl
  | cons piece rest ih =>
      rw [List.map_cons, String.join_cons, String.length_append] at h
      rw [originIn, if_neg (by omega)]
      apply ih
      omega

namespace Ribbon
variable {τ : Type}

/-- The segments follow one another. -/
theorem pairwise_spans (ribbon : Ribbon τ) : (spans ribbon).Pairwise fun a b => a.stop ≤ b.start := by
  induction ribbon with
  | nil => exact List.Pairwise.nil
  | cons last rest ih =>
      apply List.pairwise_append.mpr
      refine ⟨ih, List.pairwise_singleton .., ?_⟩
      intro span hspan later hlater
      rw [List.mem_singleton.mp hlater]
      exact stop_le_of_mem_spans hspan

/-- Two segments that hold one offset are one. -/
theorem eq_of_overlap {ribbon : Ribbon τ} {before before' after after' : List (Span τ)}
    {span span' : Span τ} {offset : Nat} (h : spans ribbon = before ++ span :: after)
    (h' : spans ribbon = before' ++ span' :: after') (hstart : span.start ≤ offset)
    (hstop : offset < span.stop) (hstart' : span'.start ≤ offset) (hstop' : offset < span'.stop) :
    before = before' ∧ span = span' := by
  have hpairwise := pairwise_spans ribbon
  -- the earlier of two different segments would end before the offset
  rcases List.append_eq_append_iff.mp (h.symm.trans h') with
    ⟨between, hbefore, hspan⟩ | ⟨between, hbefore, hspan⟩
  · cases between with
    | nil => simp_all
    | cons first between =>
        obtain ⟨rfl, hrest⟩ := List.cons.inj hspan
        rw [h, List.pairwise_append, List.pairwise_cons] at hpairwise
        have hle := hpairwise.2.1.1 span' (by simp [hrest])
        omega
  · cases between with
    | nil => simp_all
    | cons first between =>
        obtain ⟨rfl, hrest⟩ := List.cons.inj hspan
        rw [h', List.pairwise_append, List.pairwise_cons] at hpairwise
        have hle := hpairwise.2.1.1 span (by simp [hrest])
        omega

theorem chars_append (later earlier : Ribbon τ) : chars (later ++ earlier) = chars earlier ++ chars later := by
  induction later with
  | nil => simp [chars]
  | cons last later ih => simp [chars, ih]

/-- A segment holds the characters from its start on. -/
theorem getElem?_of_mem_spans {ribbon : Ribbon τ} {span : Span τ} (h : span ∈ spans ribbon) {inside : Nat}
    (hinside : inside < span.text.length) :
    (chars ribbon)[span.start + inside]? = span.text.toList[inside]? := by
  obtain ⟨before, after, hsplit⟩ := List.append_of_mem h
  obtain ⟨later, last, earlier, rfl, -, rfl⟩ := exists_of_spans_eq hsplit
  have hlast : inside < last.chars.length := by simpa [Stretch.span] using hinside
  rw [chars_append, chars, List.append_assoc]
  simp only [Stretch.span, Stretch.boundary, String.toList_ofList]
  rw [List.getElem?_append_right (by omega), Nat.add_sub_cancel_left, List.getElem?_append_left hlast]

theorem stop_eq_of_mem_spans {ribbon : Ribbon τ} {span : Span τ} (h : span ∈ spans ribbon) :
    span.stop = span.start + span.text.length := by
  obtain ⟨before, after, hsplit⟩ := List.append_of_mem h
  obtain ⟨later, last, earlier, rfl, -, rfl⟩ := exists_of_spans_eq hsplit
  simp [Stretch.span, Stretch.boundary]

theorem start_lt_stop {ribbon : Ribbon τ} (hfull : ∀ stretch ∈ ribbon, stretch.chars ≠ []) {span : Span τ}
    (h : span ∈ spans ribbon) : span.start < span.stop := by
  obtain ⟨before, after, hsplit⟩ := List.append_of_mem h
  obtain ⟨later, last, earlier, rfl, -, rfl⟩ := exists_of_spans_eq hsplit
  have hpos := List.length_pos_iff.mpr (hfull last (by simp))
  simpa [Stretch.span, Stretch.boundary] using hpos

variable [SegmentTag τ]

theorem foldl_add_layOut (stretches : List (Stretch τ)) (draft : Transcript.Draft) :
    ((layOut draft.length stretches).foldl (fun draft span => draft.add span.role span.text) draft).finish.1 =
      ⟨draft.finish.1.pieces ++ (layOut draft.length stretches).map Span.piece⟩ := by
  induction stretches generalizing draft with
  | nil => simp [layOut]
  | cons stretch rest ih =>
      have hlength : (draft.add (stretch.span draft.length).role (stretch.span draft.length).text).length =
          draft.length + stretch.chars.length := by
        simp [Transcript.Draft.add, Stretch.span]
      rw [layOut, List.foldl_cons, ← hlength, ih, hlength]
      simp [Transcript.Draft.finish, Transcript.Draft.add, Span.piece, Stretch.span, Stretch.boundary]

theorem sourceLength_spans (ribbon : Ribbon τ) :
    (Transcript.mk (ribbon.spans.map Span.piece)).sourceLength = (chars ribbon).length := by
  cases ribbon with
  | nil => rfl
  | cons last rest =>
      simp [Transcript.sourceLength, spans, chars, Span.piece, Stretch.span, Stretch.boundary]

end Ribbon

/-- A scan leaves no segment empty if one of them ends behind an offset. -/
theorem Tagger.Completes.full_of_lt_stop {τ σ : Type} [DecidableEq τ] {tagger : Tagger τ σ} {source : Source}
    {initial state : σ} {ribbon : Ribbon τ} (h : tagger.Completes source initial ribbon state) {span : Span τ}
    (hspan : span ∈ ribbon.spans) {offset : Nat} (hlt : offset < span.stop) :
    ∀ stretch ∈ ribbon, stretch.chars ≠ [] := by
  have hbehind := Ribbon.stop_le_of_mem_spans hspan
  rw [h.chars] at hbehind
  exact h.full (Nat.lt_of_lt_of_le (Nat.zero_lt_of_lt hlt) hbehind)

/-- The transcript has a piece for each segment. -/
theorem TagMap.Projects.transcript_eq {τ : Type} [DecidableEq τ] [SegmentTag τ] {map : TagMap τ}
    {ribbon : Ribbon τ} (h : map.Projects ribbon) :
    map.transcript = .ok ⟨ribbon.spans.map Span.piece⟩ := by
  have hpieces := Ribbon.foldl_add_layOut ribbon.reverse {}
  rw [Ribbon.layOut_reverse] at hpieces
  rw [TagMap.transcript, h.spans]
  exact congrArg Except.ok hpieces

end TexProse
