import TexProse.Proofs.Tagging.Covering
import TexProse.Proofs.Tagging.Origin

/-!
# Agreement of the projections

The prose of a text, the prose of its full range and its transcript are three walks over the segments. Only
the first one takes every segment as it is: the second one drops segments by their ends, and the third one
counts the ends again from the texts. Main statement: `run_agrees`, which says that they show the same for
every tagger whose segments can be told at all.
-/

namespace TexProse

namespace TagMap
variable {τ : Type} [DecidableEq τ] [SegmentTag τ] {source : Source}

theorem cut_cons_cons {boundary next : Boundary τ} {rest : List (Boundary τ)} {spans : List (Span τ)} :
    cut source (boundary :: next :: rest) = .ok spans ↔ next.tag ≠ boundary.tag ∧
      ∃ later, cut source (next :: rest) = .ok later ∧
        spans = ⟨boundary, next.start, source.slice boundary.start next.start⟩ :: later := by
  rw [cut]
  split
  next htag => simp [htag]
  next htag =>
    rcases cut source (next :: rest) with failure | later
    · constructor
      · rintro ⟨⟩
      · rintro ⟨-, _, ⟨⟩, -⟩
    · constructor
      · rintro ⟨⟩
        exact ⟨htag, later, rfl, rfl⟩
      · rintro ⟨-, _, ⟨⟩, rfl⟩
        rfl

/-- Boundaries at which a text is cut differ from their neighbours. -/
theorem isChain_of_cut {boundaries : List (Boundary τ)} {spans : List (Span τ)}
    (h : cut source boundaries = .ok spans) : boundaries.IsChain fun a b => a.tag ≠ b.tag := by
  induction boundaries generalizing spans with
  | nil => exact List.isChain_nil
  | cons boundary rest ih =>
      cases rest with
      | nil => exact List.isChain_singleton _
      | cons next rest =>
          obtain ⟨htag, later, hlater, -⟩ := cut_cons_cons.mp h
          exact List.isChain_cons_cons.mpr ⟨htag.symm, ih hlater⟩

/-- Every segment of a cut holds what stands between its ends. -/
theorem text_of_mem_cut {boundaries : List (Boundary τ)} {spans : List (Span τ)}
    (h : cut source boundaries = .ok spans) : ∀ span ∈ spans, span.text = source.slice span.start span.stop := by
  induction boundaries generalizing spans with
  | nil =>
      cases h
      simp
  | cons boundary rest ih =>
      cases rest with
      | nil =>
          cases h
          simp
      | cons next rest =>
          obtain ⟨-, later, hlater, rfl⟩ := cut_cons_cons.mp h
          exact List.forall_mem_cons.mpr ⟨rfl, ih hlater⟩

/-- A text that a ribbon lays out can be told only if the ribbon has no two neighbours with one tag. -/
theorem isVaried_of_spans {map : TagMap τ} {ribbon : Ribbon τ} {spans : List (Span τ)}
    (hlist : map.segments.toList = ribbon.boundaries) (h : map.spans = .ok spans) : ribbon.IsVaried := by
  rw [TagMap.spans, boundaries, hlist] at h
  exact Ribbon.isVaried_iff_isChain_boundaries.mpr (isChain_of_cut h)

end TagMap

namespace Tagger.Completes
variable {τ σ : Type} [DecidableEq τ] [SegmentTag τ] {tagger : Tagger τ σ} {source : Source}
variable {initial state : σ} {ribbon : Ribbon τ}

/-- The full range shows all that the text shows. A text without characters has one segment, which the range
leaves out and which shows nothing. -/
theorem proseOf_touches_length (h : tagger.Completes source initial ribbon state) :
    TagMap.proseOf (ribbon.spans.filter (·.touches 0 source.length)) = TagMap.proseOf ribbon.spans := by
  rcases Nat.eq_zero_or_pos source.length with hlength | hlength
  · rw [h.eq_single hlength, hlength]
    simp [Ribbon.spans, Span.touches, TagMap.proseOf, Stretch.prose_fresh]
  · congr 1
    apply List.filter_eq_self.mpr
    intro span hspan
    have hless := Ribbon.start_lt_stop (h.full hlength) hspan
    have hstop := Ribbon.stop_le_of_mem_spans hspan
    rw [h.chars] at hstop
    simp only [Span.touches, Bool.and_eq_true, decide_eq_true_eq]
    exact ⟨Nat.zero_lt_of_lt hless, Nat.lt_of_lt_of_le hless hstop⟩

end Tagger.Completes

namespace Pass
variable {τ σ : Type} [DecidableEq τ] [SegmentTag τ] {pass pass' : Pass τ σ}

/-- If the segments of a text can be told, whatever its tagger has done, so can its prose and its transcript.
The prose is what the transcript shows but for the blanks at its ends, and the full range has the same prose.
The transcript has one piece for each segment in their order, with the ends of the segment, the text that
stands between them, and its role; and it covers the source. -/
theorem run_agrees {map : TagMap τ} {spans : List (Span τ)} (hrun : pass.run = (.ok (), pass'))
    (hmap : pass'.map = .ok map) (hspans : map.spans = .ok spans) :
    ∃ transcript, map.transcript = .ok transcript ∧
      map.prose = .ok (trim transcript.prose) ∧
      map.proseIn 0 pass.source.length = .ok (trim transcript.prose) ∧
      transcript.pieces = spans.map (fun span =>
        ⟨span.start, span.stop, pass.source.slice span.start span.stop, span.role⟩) ∧
      transcript.sourceLength = pass.source.length := by
  obtain ⟨segments, state, hscan, hsegments⟩ := exists_scan hrun
  obtain rfl : (⟨pass.source, segments⟩ : TagMap τ) = map := Except.ok.inj (hsegments.symm.trans hmap)
  obtain ⟨ribbon, hcompletes, hlist⟩ := Tagger.exists_completes hscan
  have hprojects : TagMap.Projects ⟨pass.source, segments⟩ ribbon :=
    TagMap.projects hlist hcompletes.chars (TagMap.isVaried_of_spans hlist hspans)
  obtain rfl : ribbon.spans = spans := Except.ok.inj (hprojects.spans.symm.trans hspans)
  have hprose : (Transcript.mk (ribbon.spans.map Span.piece)).prose = ribbon.prose :=
    (Span.join_prose_piece ribbon.spans).trans (Ribbon.join_prose_spans ribbon)
  refine ⟨_, hprojects.transcript_eq, ?_, ?_, ?_, ?_⟩
  · rw [hprose, hprojects.prose]
  · rw [hprose, ← Ribbon.join_prose_spans]
    calc TagMap.proseIn ⟨pass.source, segments⟩ 0 pass.source.length
        = .ok (TagMap.proseOf (ribbon.spans.filter (·.touches 0 pass.source.length))) := by
          rw [TagMap.proseIn, hprojects.spans]
          rfl
      _ = .ok (TagMap.proseOf ribbon.spans) := by rw [hcompletes.proseOf_touches_length]
  · apply List.map_congr_left
    intro span hspan
    rw [← TagMap.text_of_mem_cut hspans span hspan]
    rfl
  · rw [Ribbon.sourceLength_spans, hcompletes.chars]
    rfl

/-- The number shows more than it holds, and the blanks show nothing. -/
theorem run_agrees_words :
    ∃ pass' map spans transcript, (words.pass (.ofString "€  b1 ")).run = (.ok (), pass') ∧
      pass'.map = .ok map ∧ map.spans = .ok spans ∧ map.transcript = .ok transcript ∧
      map.prose = .ok (trim transcript.prose) ∧ map.proseIn 0 6 = .ok (trim transcript.prose) ∧
      transcript.sourceLength = 6 := by
  have hok : ((words.pass (.ofString "€  b1 ")).run.2.map.bind TagMap.spans).isOk = true ∧
      (words.pass (.ofString "€  b1 ")).run.1.isOk = true := by decide +kernel
  rcases hrun : (words.pass (.ofString "€  b1 ")).run with ⟨failure | ⟨⟩, pass'⟩
  · rw [hrun] at hok
    cases hok.2
  · rw [hrun] at hok
    rcases hmap : pass'.map with failure | map
    · rw [hmap] at hok
      cases hok.1
    · rcases hspans : map.spans with failure | spans
      · rw [hmap, Except.bind, hspans] at hok
        cases hok.1
      · obtain ⟨transcript, htranscript, hprose, hrange, -, hlength⟩ := run_agrees hrun hmap hspans
        exact ⟨pass', map, spans, transcript, rfl, hmap, hspans, htranscript, hprose, hrange, hlength⟩

end Pass
end TexProse
