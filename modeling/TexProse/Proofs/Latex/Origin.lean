import TexProse.Proofs.Latex.Partition
import TexProse.Proofs.Tagging.Origin

/-!
# Where the prose of a document comes from

The transcript of a document maps each place of its prose to a place of the text. Text is mapped character
by character, so the map can be undone there; what stands for markup is mapped to where the markup starts.
Main statement: `origin_of_supplies`.
-/

namespace TexProse.Latex

variable {text : String} {ribbon : Ribbon Tag} {span : Span Tag} {inside offset : Nat}

/-- What a segment of text supplies comes from the segment, and is the same there. -/
theorem origin_text (hchars : ribbon.chars = text.toList) (h : Span.Supplies ribbon.spans span inside offset)
    (htag : span.tag = .text) :
    span.piece.origin inside = span.start + inside ∧ span.start + inside < span.stop ∧
      text.toList[span.start + inside]? = span.prose.toList[inside]? := by
  have hspan := h.mem
  obtain ⟨-, -, -, -, hinside⟩ := h
  have hplain : SegmentTag.isPlain span.tag = true := decide_eq_true htag
  have hprose : span.prose = span.text := by simp [Span.prose, hplain]
  rw [hprose] at hinside ⊢
  refine ⟨?_, ?_, ?_⟩
  · simp [Piece.origin, Span.piece, Span.role, hplain]
  · rw [Ribbon.stop_eq_of_mem_spans hspan]
    omega
  · rw [← hchars]
    exact Ribbon.getElem?_of_mem_spans hspan hinside

/-- What any other segment supplies comes from its rendering, and stands for its start. -/
theorem origin_markup (hinside : inside < span.prose.length) (htag : span.tag ≠ .text) :
    span.piece.origin inside = span.start ∧ span.rendering = some span.prose := by
  have hplain : SegmentTag.isPlain span.tag = false := decide_eq_false htag
  have hprose : span.prose = span.rendering.getD "" := by simp [Span.prose, hplain]
  constructor
  · simp [Piece.origin, Span.piece, Span.role, hplain]
  · rw [hprose] at hinside ⊢
    cases hrendering : span.rendering with
    | none =>
        rw [hrendering] at hinside
        exact absurd hinside (Nat.not_lt_zero inside)
    | some shown => rfl

/-- Each offset in text is where exactly one place of the prose comes from. -/
theorem existsUnique_origin (hchars : ribbon.chars = text.toList)
    (hfull : ∀ stretch ∈ ribbon, stretch.chars ≠ []) (hspan : span ∈ ribbon.spans) (htag : span.tag = .text)
    {place : Nat} (hstart : span.start ≤ place) (hstop : place < span.stop) :
    ∃! offset, Transcript.originIn text.length (ribbon.spans.map Span.piece) offset = place := by
  obtain ⟨before, after, hsplit⟩ := List.append_of_mem hspan
  have hplain : SegmentTag.isPlain span.tag = true := decide_eq_true htag
  have hprose : span.prose = span.text := by simp [Span.prose, hplain]
  have hlength := Ribbon.stop_eq_of_mem_spans hspan
  have hinside : place - span.start < span.prose.length := by
    rw [hprose]
    omega
  have hsupplies : Span.Supplies ribbon.spans span (place - span.start) _ :=
    ⟨before, after, hsplit, rfl, hinside⟩
  refine ⟨(String.join (before.map Span.prose)).length + (place - span.start), ?_, ?_⟩
  · change Transcript.originIn _ _ _ = place
    rw [hsupplies.originIn, (origin_text hchars hsupplies htag).1]
    omega
  · intro offset horigin
    by_cases hoffset : offset < (String.join (ribbon.spans.map Span.prose)).length
    · obtain ⟨other, inside, hother⟩ := Span.exists_supplies hoffset
      obtain ⟨before', after', hsplit', rfl, hinside'⟩ := id hother
      rw [hother.originIn] at horigin
      by_cases htag' : other.tag = .text
      · obtain ⟨hplace, hbound, -⟩ := origin_text hchars hother htag'
        obtain ⟨rfl, rfl⟩ := Ribbon.eq_of_overlap hsplit hsplit' hstart hstop (by omega) (by omega)
        omega
      · -- no other segment starts inside this one
        have hplace := (origin_markup hinside' htag').1
        have hless := Ribbon.start_lt_stop hfull hother.mem
        obtain ⟨-, rfl⟩ := Ribbon.eq_of_overlap hsplit hsplit' hstart hstop (by omega) (by omega)
        exact absurd htag htag'
    · have hbehind := Ribbon.stop_le_of_mem_spans hspan
      rw [hchars, String.length_toList] at hbehind
      rw [Transcript.originIn_of_le (by rw [Span.join_prose_piece]; omega)] at horigin
      omega

variable {π : Type} [Package π] {settings : Settings}

/-- Every character of the prose is supplied by a segment. If that is text, the character comes from its
place in the segment and is the same there; otherwise it comes from the rendering of the segment and stands
for its start. Back from the text, each offset in a segment of text is where exactly one place of the prose
comes from, so no two characters of literal text share one. All places behind the prose stand for the end
of the text. -/
theorem origin_of_supplies {packages : Chain π} {text : String} {document : Document π}
    (h : (Document.withPackages settings packages text).read = (.ok (), document)) :
    ∃ map spans transcript, document.map = .ok map ∧ map.spans = .ok spans ∧
      map.transcript = .ok transcript ∧
      (∀ offset, offset < transcript.prose.length ↔
        ∃ span inside, Span.Supplies spans span inside offset) ∧
      (∀ span inside offset, Span.Supplies spans span inside offset →
        ∃ c, span.prose.toList[inside]? = some c ∧ transcript.prose.toList[offset]? = some c ∧
          (span.tag = .text → transcript.origin offset = span.start + inside ∧
            text.toList[transcript.origin offset]? = some c) ∧
          (span.tag ≠ .text → transcript.origin offset = span.start ∧
            span.rendering = some span.prose)) ∧
      (∀ span ∈ spans, span.tag = .text → ∀ place, span.start ≤ place → place < span.stop →
        ∃! offset, transcript.origin offset = place) ∧
      (∀ span inside offset span' inside' offset', Span.Supplies spans span inside offset →
        Span.Supplies spans span' inside' offset' → span.tag = .text → span'.tag = .text →
          transcript.origin offset = transcript.origin offset' → offset = offset') ∧
      ∀ offset, transcript.prose.length ≤ offset → transcript.origin offset = text.length := by
  obtain ⟨map, ribbon, hmap, -, hcompletes, hprojects⟩ := Document.exists_projects h
  have hchars : ribbon.chars = text.toList := hcompletes.chars
  have hprose : (Transcript.mk (ribbon.spans.map Span.piece)).prose =
      String.join (ribbon.spans.map Span.prose) := Span.join_prose_piece ribbon.spans
  have horigin (offset : Nat) : (Transcript.mk (ribbon.spans.map Span.piece)).origin offset =
      Transcript.originIn text.length (ribbon.spans.map Span.piece) offset := by
    rw [Transcript.origin, Ribbon.sourceLength_spans, hchars, String.length_toList]
  have hunique : ∀ span ∈ ribbon.spans, span.tag = .text → ∀ place, span.start ≤ place →
      place < span.stop →
        ∃! offset, Transcript.originIn text.length (ribbon.spans.map Span.piece) offset = place := by
    intro span hspan htag place hstart hstop
    have hbehind := Ribbon.stop_le_of_mem_spans hspan
    rw [hchars, String.length_toList] at hbehind
    have hlength : 0 < (Source.ofString text).length := by
      rw [Source.length_ofString]
      omega
    exact existsUnique_origin hchars (hcompletes.full hlength) hspan htag hstart hstop
  refine ⟨map, ribbon.spans, _, hmap, hprojects.spans, hprojects.transcript_eq, ?_, ?_, ?_, ?_, ?_⟩
  · intro offset
    rw [hprose]
    exact ⟨Span.exists_supplies, fun ⟨span, inside, hsupplies⟩ => hsupplies.lt_length⟩
  · intro span inside offset hsupplies
    have hinside : inside < span.prose.toList.length := by
      obtain ⟨-, -, -, -, hinside⟩ := hsupplies
      rwa [String.length_toList]
    have hchar : span.prose.toList[inside]? = some span.prose.toList[inside] :=
      List.getElem?_eq_getElem hinside
    rw [hprose, hsupplies.getElem?, horigin, hsupplies.originIn]
    refine ⟨span.prose.toList[inside], hchar, hchar, ?_, ?_⟩
    · intro htag
      obtain ⟨hplace, -, hsame⟩ := origin_text hchars hsupplies htag
      rw [hplace]
      exact ⟨rfl, hsame.trans hchar⟩
    · intro htag
      rw [String.length_toList] at hinside
      exact origin_markup hinside htag
  · simpa only [horigin] using hunique
  · intro span inside offset span' inside' offset' hsupplies hsupplies' htag htag' hsame
    rw [horigin, horigin] at hsame
    obtain ⟨hplace, hbound, -⟩ := origin_text hchars hsupplies htag
    have hone := hunique span hsupplies.mem htag (span.start + inside) (Nat.le_add_right _ _) hbound
    apply hone.unique
    · rw [hsupplies.originIn, hplace]
    · rw [← hsame, hsupplies.originIn, hplace]
  · intro offset hoffset
    rw [hprose] at hoffset
    rw [horigin]
    exact Transcript.originIn_of_le (by rwa [Span.join_prose_piece])

/-- The replacement of the command is longer than the command, and that of the blanks is shorter. -/
theorem origin_of_supplies_euro :
    ∃ document map transcript,
      (Document.withPackages {} (Chain.bundled {}) "a  \\EUR{2} % b\n c").read = (.ok (), document) ∧
        document.map = .ok map ∧ map.transcript = .ok transcript ∧
        ∀ offset, transcript.prose.length ≤ offset →
          transcript.origin offset = "a  \\EUR{2} % b\n c".length := by
  have hok : (Document.withPackages {} (Chain.bundled {}) "a  \\EUR{2} % b\n c").read.1.isOk = true := by
    decide +kernel
  obtain ⟨document, hread⟩ := Document.exists_of_isOk hok
  obtain ⟨map, spans, transcript, hmap, -, htranscript, -, -, -, -, hbehind⟩ := origin_of_supplies hread
  exact ⟨document, map, transcript, hread, hmap, htranscript, hbehind⟩

end TexProse.Latex
