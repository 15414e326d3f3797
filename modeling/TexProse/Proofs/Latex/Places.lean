import TexProse.Proofs.Latex.Partition
import TexProse.Proofs.Tagging.Excerpt
import TexProse.Proofs.Tagging.Locality

/-!
# The places of findings in literal text

A finding within one segment of text is reported from where it starts. Its end is reported as the place of the
character behind it in the prose. That is where the finding ends unless it runs to the end of its segment, for
then the next segment that shows anything may be far away. Main statement: `report_of_literal`.
-/

namespace TexProse

/-- What stands between two places of one part of a source. -/
theorem Source.slice_within {source : Source} {before part after : List Char} {inside length : Nat}
    (h : source.chars.toList = before ++ part ++ after) (hlength : inside + length ≤ part.length) :
    source.slice (before.length + inside) (before.length + inside + length) =
      String.ofList ((part.drop inside).take length) := by
  have hdrop : (before ++ (part ++ after)).drop (before.length + inside) = part.drop inside ++ after := by
    rw [← List.drop_drop, List.drop_left, List.drop_append_of_le_length (by omega)]
  apply String.toList_inj.mp
  rw [toList_slice, h, List.append_assoc, hdrop, Nat.add_sub_cancel_left,
    List.take_append_of_le_length (by rw [List.length_drop]; omega), String.toList_ofList]

namespace Span
variable {τ : Type} [SegmentTag τ]

/-- Where the first of the segments that says anything starts, or `stop` if none of them does. -/
def startOfProse (stop : Nat) (spans : List (Span τ)) : Nat :=
  ((spans.find? fun span => span.prose ≠ "").map (·.start)).getD stop

@[simp] theorem startOfProse_nil (stop : Nat) : startOfProse stop ([] : List (Span τ)) = stop := rfl

theorem startOfProse_cons (stop : Nat) (span : Span τ) (rest : List (Span τ)) :
    startOfProse stop (span :: rest) = if span.prose = "" then startOfProse stop rest else span.start := by
  by_cases hempty : span.prose = "" <;> simp [startOfProse, hempty]

/-- The place of the character behind some segments. -/
theorem originIn_join (stop : Nat) (before after : List (Span τ)) :
    Transcript.originIn stop ((before ++ after).map piece) (String.join (before.map prose)).length =
      startOfProse stop after := by
  induction before with
  | cons first before ih =>
      rw [List.cons_append, List.map_cons, Transcript.originIn, prose_piece, List.map_cons, String.join_cons,
        String.length_append, if_neg (by omega), Nat.add_sub_cancel_left]
      exact ih
  | nil =>
      induction after with
      | nil => rfl
      | cons first rest ih =>
          rw [List.nil_append, List.map_cons, Transcript.originIn, prose_piece, startOfProse_cons]
          by_cases hempty : first.prose = ""
          · simpa [hempty] using ih
          · have hpos : 0 < first.prose.length := by
              apply Nat.pos_of_ne_zero
              simpa using hempty
            cases hplain : SegmentTag.isPlain first.tag with
            | true => simp [hempty, hpos, origin_of_isPlain hplain]
            | false => simp [hempty, hpos, origin_of_not_isPlain hplain]

end Span

namespace Ribbon
variable {τ : Type} {ribbon : Ribbon τ} {before after : List (Span τ)} {span next : Span τ}

/-- A segment holds its part of what was read. -/
theorem exists_chars_eq (hsplit : ribbon.spans = before ++ span :: after) :
    ∃ earlier later, ribbon.chars = earlier ++ span.text.toList ++ later ∧ earlier.length = span.start := by
  obtain ⟨later, last, earlier, rfl, -, rfl⟩ := exists_of_spans_eq hsplit
  refine ⟨chars earlier, chars later, ?_, rfl⟩
  rw [chars_append, chars]
  simp [Stretch.span]

theorem stop_of_last (hsplit : ribbon.spans = before ++ [span]) : span.stop = ribbon.chars.length := by
  cases ribbon with
  | nil => simp [spans] at hsplit
  | cons last rest =>
      obtain ⟨-, rfl, -⟩ | ⟨between, hnil, -⟩ := spans_cases hsplit
      · simp [Stretch.span, chars]
      · simp at hnil

/-- A segment ends where the next one starts. -/
theorem stop_eq_start (hsplit : ribbon.spans = before ++ span :: next :: after) : span.stop = next.start := by
  have hnext : ribbon.spans = (before ++ [span]) ++ next :: after := by simp [hsplit]
  obtain ⟨later, last, earlier, -, hearlier, rfl⟩ := exists_of_spans_eq hnext
  exact stop_of_last hearlier

variable [SegmentTag τ]

theorem stop_of_isPlain (hspan : span ∈ ribbon.spans) (hplain : SegmentTag.isPlain span.tag = true) :
    span.stop = span.start + span.prose.length := by
  simpa [Span.prose, hplain] using stop_eq_of_mem_spans hspan

theorem stop_le_startOfProse (hsplit : ribbon.spans = before ++ span :: after) :
    span.stop ≤ Span.startOfProse ribbon.chars.length after := by
  have hpairwise := pairwise_spans ribbon
  rw [hsplit] at hpairwise
  obtain ⟨-, hpairwise, -⟩ := List.pairwise_append.mp hpairwise
  obtain ⟨hafter, -⟩ := List.pairwise_cons.mp hpairwise
  rw [Span.startOfProse]
  cases hfind : after.find? fun span => span.prose ≠ "" with
  | none => exact stop_le_of_mem_spans (by simp [hsplit])
  | some later => exact hafter later (List.mem_of_find?_eq_some hfind)

/-- Prose goes on right behind a segment if the next one says something or none follows. -/
theorem startOfProse_eq_stop_iff (hfull : ∀ stretch ∈ ribbon, stretch.chars ≠ [])
    (hsplit : ribbon.spans = before ++ span :: after) :
    Span.startOfProse ribbon.chars.length after = span.stop ↔ ∀ next ∈ after.head?, next.prose ≠ "" := by
  cases after with
  | nil =>
      simpa using (stop_of_last hsplit).symm
  | cons next rest =>
      have hstart := stop_eq_start hsplit
      have hnext : ribbon.spans = (before ++ [span]) ++ next :: rest := by simp [hsplit]
      have hless := start_lt_stop hfull (show next ∈ ribbon.spans by simp [hsplit])
      have hbehind := stop_le_startOfProse hnext
      rw [Span.startOfProse_cons, hstart]
      by_cases hempty : next.prose = ""
      · simp only [hempty, if_true, List.head?_cons, Option.mem_some_iff, forall_eq', ne_eq,
          not_true_eq_false, iff_false]
        omega
      · simp [hempty]

end Ribbon

/-- The finding is about `length` characters of what a segment adds to the prose, from `inside` on. -/
structure Finding.LiesIn {τ : Type} [SegmentTag τ] (finding : Finding) (before : List (Span τ))
    (span : Span τ) (inside length : Nat) : Prop where
  first : finding.first = (String.join (before.map Span.prose)).length + inside
  stop : finding.stop = finding.first + length
  pos : 0 < length
  le : inside + length ≤ span.prose.length

namespace Finding.LiesIn
variable {τ : Type} [SegmentTag τ] {ribbon : Ribbon τ} {finding : Finding} {before after : List (Span τ)}
  {span : Span τ} {inside length : Nat}

theorem supplies_first (h : finding.LiesIn before span inside length)
    (hsplit : ribbon.spans = before ++ span :: after) :
    Span.Supplies ribbon.spans span inside finding.first := by
  have hpos := h.pos
  have hle := h.le
  exact ⟨before, after, hsplit, h.first, by omega⟩

theorem supplies_stop (h : finding.LiesIn before span inside length)
    (hsplit : ribbon.spans = before ++ span :: after) (hlt : inside + length < span.prose.length) :
    Span.Supplies ribbon.spans span (inside + length) finding.stop := by
  refine ⟨before, after, hsplit, ?_, hlt⟩
  rw [h.stop, h.first, Nat.add_assoc]

/-- The place behind a finding that takes its segment to the end. -/
theorem originIn_stop (h : finding.LiesIn before span inside length)
    (heq : inside + length = span.prose.length) (stop : Nat) :
    Transcript.originIn stop ((before ++ span :: after).map Span.piece) finding.stop =
      Span.startOfProse stop after := by
  have hstop : finding.stop = (String.join ((before ++ [span]).map Span.prose)).length := by
    rw [h.stop, h.first, List.map_append, String.join_append, String.length_append]
    simpa [Nat.add_assoc] using heq
  rw [hstop, ← Span.originIn_join stop (before ++ [span]) after, List.append_assoc]
  rfl

/-- What the finding is about. -/
theorem slice_prose (h : finding.LiesIn before span inside length)
    (hsplit : ribbon.spans = before ++ span :: after) :
    (Source.ofString (String.join (ribbon.spans.map Span.prose))).slice finding.first finding.stop =
      String.ofList ((span.prose.toList.drop inside).take length) := by
  have hprose : (Source.ofString (String.join (ribbon.spans.map Span.prose))).chars.toList =
      (String.join (before.map Span.prose)).toList ++ span.prose.toList ++
        (String.join (after.map Span.prose)).toList := by
    simp [hsplit]
  rw [h.stop, h.first, ← String.length_toList]
  exact Source.slice_within hprose (by rw [String.length_toList]; exact h.le)

/-- In literal text it stands in the source, too. -/
theorem slice_source (h : finding.LiesIn before span inside length)
    (hsplit : ribbon.spans = before ++ span :: after) (hplain : SegmentTag.isPlain span.tag = true)
    {source : Source} (hchars : ribbon.chars = source.chars.toList) :
    source.slice (span.start + inside) (span.start + inside + length) =
      String.ofList ((span.prose.toList.drop inside).take length) := by
  have htext : span.prose = span.text := by simp [Span.prose, hplain]
  obtain ⟨earlier, later, hread, hstart⟩ := Ribbon.exists_chars_eq hsplit
  have hle := h.le
  rw [htext, ← String.length_toList] at hle
  rw [htext, ← hstart]
  exact Source.slice_within (hchars.symm.trans hread) hle

/-- Where the transcript has the first character. -/
theorem origin_first (h : finding.LiesIn before span inside length)
    (hsplit : ribbon.spans = before ++ span :: after) (hplain : SegmentTag.isPlain span.tag = true) :
    (Transcript.mk (ribbon.spans.map Span.piece)).origin finding.first = span.start + inside :=
  ((h.supplies_first hsplit).originIn _).trans (Span.origin_of_isPlain hplain inside)

/-- Where the transcript has the end. -/
theorem origin_stop (h : finding.LiesIn before span inside length)
    (hsplit : ribbon.spans = before ++ span :: after) (hplain : SegmentTag.isPlain span.tag = true) :
    (Transcript.mk (ribbon.spans.map Span.piece)).origin finding.stop =
      if inside + length < span.prose.length then span.start + inside + length
      else Span.startOfProse ribbon.chars.length after := by
  rw [Transcript.origin, Ribbon.sourceLength_spans]
  split
  next hlt => rw [(h.supplies_stop hsplit hlt).originIn, Span.origin_of_isPlain hplain, Nat.add_assoc]
  next hge =>
    have hle := h.le
    rw [hsplit, h.originIn_stop (by omega)]

theorem origin_le_origin (h : finding.LiesIn before span inside length)
    (hsplit : ribbon.spans = before ++ span :: after) (hplain : SegmentTag.isPlain span.tag = true) :
    (Transcript.mk (ribbon.spans.map Span.piece)).origin finding.first ≤
      (Transcript.mk (ribbon.spans.map Span.piece)).origin finding.stop := by
  rw [h.origin_first hsplit hplain, h.origin_stop hsplit hplain]
  have hend := Ribbon.stop_of_isPlain (show span ∈ ribbon.spans by simp [hsplit]) hplain
  have hbehind := Ribbon.stop_le_startOfProse hsplit
  have hle := h.le
  split <;> omega

/-- The transcript has the end right behind the last character unless the finding ends with its segment and
the next one shows nothing. -/
theorem origin_stop_eq_iff (h : finding.LiesIn before span inside length)
    (hsplit : ribbon.spans = before ++ span :: after) (hplain : SegmentTag.isPlain span.tag = true)
    (hfull : ∀ stretch ∈ ribbon, stretch.chars ≠ []) :
    (Transcript.mk (ribbon.spans.map Span.piece)).origin finding.stop = span.start + inside + length ↔
      inside + length < span.prose.length ∨ ∀ next ∈ after.head?, next.prose ≠ "" := by
  rw [h.origin_stop hsplit hplain, ← Ribbon.startOfProse_eq_stop_iff hfull hsplit]
  split
  next hlt => simp [hlt]
  next hge =>
    have hend := Ribbon.stop_of_isPlain (show span ∈ ribbon.spans by simp [hsplit]) hplain
    have hle := h.le
    have hwhole : span.start + inside + length = span.stop := by omega
    rw [hwhole]
    simp [hge]

end Finding.LiesIn

/-- A report shows both ends of its finding where the transcript has them. -/
theorem Report.exists_places {τ : Type} [DecidableEq τ] [SegmentTag τ] {map : TagMap τ}
    {spans : List (Span τ)} (hspans : map.spans = .ok spans) (transcript : Transcript) (finding : Finding) :
    ∃ report, ofFinding map transcript finding = .ok report ∧
      report.first = map.source.location (transcript.origin finding.first) ∧
      report.stop =
        map.source.location (max (transcript.origin finding.stop) (transcript.origin finding.first)) := by
  rw [ofFinding, TagMap.proseIn, hspans]
  exact ⟨_, rfl, rfl, rfl⟩

namespace Latex
variable {π : Type} [Package π] {settings : Settings}

/-- A finding within a segment of text can be reported. It begins where its first character stands, and the
text there is what it is about. Its end is reported one behind its last character if the segment goes on, and
else as the start of the next segment that shows anything, or as the end of the text. So it is exact unless
the finding ends with its segment and the next one shows nothing. -/
theorem report_of_literal {packages : Chain π} {text : String} {document : Document π}
    (h : (Document.withPackages settings packages text).read = (.ok (), document)) :
    ∃ map spans transcript, document.map = .ok map ∧ map.spans = .ok spans ∧
      map.transcript = .ok transcript ∧
      ∀ (finding : Finding) before span after inside length, spans = before ++ span :: after →
        span.tag = .text → finding.LiesIn before span inside length →
        let source := Source.ofString text
        let place := span.start + inside
        ∃ report, Report.ofFinding map transcript finding = .ok report ∧
          report.first = source.location place ∧
          source.slice place (place + length) =
            (Source.ofString transcript.prose).slice finding.first finding.stop ∧
          report.stop = source.location (if inside + length < span.prose.length then place + length
            else Span.startOfProse text.length after) ∧
          (report.stop = source.location (place + length) ↔
            inside + length < span.prose.length ∨ ∀ next ∈ after.head?, next.prose ≠ "") := by
  obtain ⟨map, ribbon, hmap, hsource, hcompletes, hprojects⟩ := Document.exists_projects h
  have hlength : ribbon.chars.length = text.length := by
    rw [hcompletes.chars, Source.chars_ofString, String.length_toList]
  refine ⟨map, ribbon.spans, _, hmap, hprojects.spans, hprojects.transcript_eq, ?_⟩
  intro finding before span after inside length hsplit htag hlies source place
  have hplain : SegmentTag.isPlain span.tag = true := decide_eq_true htag
  have hfirst := hlies.origin_first hsplit hplain
  have hstop := hlies.origin_stop hsplit hplain
  obtain ⟨report, hreport, hstarts, hstops⟩ := Report.exists_places hprojects.spans
    ⟨ribbon.spans.map Span.piece⟩ finding
  rw [hfirst, hsource] at hstarts
  rw [Nat.max_eq_left (hlies.origin_le_origin hsplit hplain), hsource] at hstops
  refine ⟨report, hreport, hstarts, ?_, ?_, ?_⟩
  · have hprose : (Transcript.mk (ribbon.spans.map Span.piece)).prose =
        String.join (ribbon.spans.map Span.prose) := Span.join_prose_piece ribbon.spans
    rw [hprose, hlies.slice_prose hsplit]
    exact hlies.slice_source hsplit hplain hcompletes.chars
  · rw [hstops, hstop, hlength]
  · have hspan : span ∈ ribbon.spans := by simp [hsplit]
    have hoffset : span.start < span.stop := by
      have hend := Ribbon.stop_of_isPlain hspan hplain
      have hpos := hlies.pos
      have hle := hlies.le
      omega
    rw [← hlies.origin_stop_eq_iff hsplit hplain (hcompletes.full_of_lt_stop hspan hoffset), hstops]
    exact ⟨Source.location_inj, congrArg source.location⟩

/-- The misspelt word goes on up to a blank, which is shown. -/
theorem report_of_literal_word :
    ∃ document map transcript report,
      (Document.withPackages {} (Chain.bundled {}) "% note\nTeh cat").read = (.ok (), document) ∧
        document.map = .ok map ∧ map.transcript = .ok transcript ∧
        Report.ofFinding map transcript { first := 0, stop := 3, message := "" } = .ok report ∧
        report.first = "2:1 (7)" ∧ report.stop = "2:4 (10)" := by
  have hok : (Document.withPackages {} (Chain.bundled {}) "% note\nTeh cat").read.1.isOk = true := by
    decide +kernel
  have htold : ((Document.withPackages {} (Chain.bundled {}) "% note\nTeh cat").read.2.map.bind
      TagMap.spans).toOption = some [⟨⟨0, .comment, none⟩, 6, "% note"⟩, ⟨⟨6, .space, none⟩, 7, "\n"⟩,
        ⟨⟨7, .text, none⟩, 10, "Teh"⟩, ⟨⟨10, .space, some " "⟩, 11, " "⟩,
        ⟨⟨11, .text, none⟩, 14, "cat"⟩] := by
    decide +kernel
  obtain ⟨document, hread⟩ := Document.exists_of_isOk hok
  obtain ⟨map, spans, transcript, hmap, hspans, htranscript, hfindings⟩ := report_of_literal hread
  rw [hread] at htold
  change (document.map.bind TagMap.spans).toOption = _ at htold
  rw [hmap] at htold
  change map.spans.toOption = _ at htold
  rw [hspans] at htold
  obtain rfl := Option.some.inj htold
  obtain ⟨report, hreport, hfirst, -, -, hexact⟩ :=
    hfindings { first := 0, stop := 3, message := "" } [_, _] _ _ 0 3 rfl rfl
      ⟨by decide, by decide, by decide, by decide⟩
  refine ⟨document, map, transcript, report, hread, hmap, htranscript, hreport, ?_, ?_⟩
  · rw [hfirst]
    decide +kernel
  · rw [hexact.mpr (.inr (by decide))]
    decide +kernel

/-- The same word in front of a command that shows nothing: its end is reported behind the command. -/
theorem stop_behind_command :
    ((Document.withPackages {} (Chain.bundled {}) "Teh\\label{x} cat").read.2.map.bind fun map =>
        map.spans.bind fun spans => map.transcript.bind fun transcript =>
          (Report.ofFinding map transcript { first := 0, stop := 3, message := "" }).map fun report =>
            (spans.head?, report.first, report.stop, map.source.location 3)).toOption =
        some (some ⟨⟨0, .text, none⟩, 3, "Teh"⟩, "1:1 (0)", "1:13 (12)", "1:4 (3)") ∧
      "1:13 (12)" ≠ "1:4 (3)" := by
  decide +kernel

end Latex
end TexProse
