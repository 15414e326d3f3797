import TexProse.Proofs.Latex.Partition
import TexProse.Proofs.Tagging.Excerpt

/-!
# The prose of a range

A range of the source shows the segments that hold an offset of it. That is so for every range with an offset.
A range without one holds nothing, and still the segment is shown that begins before its end and ends behind
its start, should there be one. Main statement: `prose_of_range`.
-/

namespace TexProse

namespace Span
variable {τ : Type} {span : Span τ} {first stop : Nat}

/-- Some offset of the range from `first` up to `stop` lies in the segment. -/
def Meets (span : Span τ) (first stop : Nat) : Prop :=
  ∃ offset, first ≤ offset ∧ offset < stop ∧ span.start ≤ offset ∧ offset < span.stop

theorem meets_iff : span.Meets first stop ↔ max first span.start < min stop span.stop := by
  constructor
  · rintro ⟨offset, hfirst, hstop, hstart, hend⟩
    exact Nat.lt_of_le_of_lt (Nat.max_le.mpr ⟨hfirst, hstart⟩) (Nat.lt_min.mpr ⟨hstop, hend⟩)
  · intro hlt
    obtain ⟨hstop, hend⟩ := Nat.lt_min.mp hlt
    exact ⟨max first span.start, Nat.le_max_left _ _, hstop, Nat.le_max_right _ _, hend⟩

instance (span : Span τ) (first stop : Nat) : Decidable (span.Meets first stop) :=
  decidable_of_iff _ meets_iff.symm

/-- A segment that reaches into a range with an offset holds one of its offsets. -/
theorem touches_iff_meets (hspan : span.start < span.stop ∨ span.stop = 0) (hlt : first < stop) :
    span.touches first stop = true ↔ span.Meets first stop := by
  simp only [meets_iff, touches, Bool.and_eq_true, decide_eq_true_eq]
  omega

theorem not_meets (hle : stop ≤ first) : ¬ span.Meets first stop := by
  rintro ⟨offset, hfirst, hstop, -, -⟩
  omega

end Span

theorem TagMap.proseOf_nil {τ : Type} [SegmentTag τ] : proseOf ([] : List (Span τ)) = "" := rfl

theorem TagMap.proseOf_meets {τ : Type} [SegmentTag τ] (spans : List (Span τ)) {first stop : Nat}
    (hle : stop ≤ first) : proseOf (spans.filter (·.Meets first stop)) = "" := by
  rw [List.filter_eq_nil_iff.mpr fun span _ => by simpa using Span.not_meets hle, proseOf_nil]

namespace Ribbon
variable {τ : Type} {ribbon : Ribbon τ} {first stop : Nat}

theorem filter_touches_eq_filter_meets
    (hspans : ∀ span ∈ ribbon.spans, span.start < span.stop ∨ span.stop = 0) (hlt : first < stop) :
    ribbon.spans.filter (·.touches first stop) = ribbon.spans.filter (·.Meets first stop) := by
  apply List.filter_congr
  intro span hspan
  rw [Bool.eq_iff_iff, decide_eq_true_eq]
  exact Span.touches_iff_meets (hspans span hspan) hlt

variable [SegmentTag τ]

/-- A range without an offset lies between the ends of one segment at most. -/
theorem proseOf_touches_of_le (hfull : ∀ stretch ∈ ribbon, stretch.chars ≠ []) (hle : stop ≤ first)
    {span : Span τ} (hspan : span ∈ ribbon.spans) (hstart : span.start < stop) (hstop : first < span.stop) :
    TagMap.proseOf (ribbon.spans.filter (·.touches first stop)) = trim span.prose := by
  obtain ⟨before, after, hsplit⟩ := List.append_of_mem hspan
  have hpairwise := pairwise_spans ribbon
  rw [hsplit] at hpairwise
  obtain ⟨-, hpairwise, -⟩ := List.pairwise_append.mp hpairwise
  obtain ⟨hafter, -⟩ := List.pairwise_cons.mp hpairwise
  have hwhole : ribbon.spans = before ++ [span] ++ after := by simp [hsplit]
  have hone : ribbon.spans.filter (·.touches first stop) = [span] := by
    apply filter_touches hfull hwhole (by omega) hstop
    · intro other hother
      rw [List.mem_singleton.mp hother]
      exact hstart
    · intro other hother
      have := hafter other hother
      omega
  rw [hone]
  simp [TagMap.proseOf]

theorem proseOf_touches_of_not
    (hnone : ∀ span ∈ ribbon.spans, span.start < stop → ¬ first < span.stop) :
    TagMap.proseOf (ribbon.spans.filter (·.touches first stop)) = "" := by
  have hnil : ribbon.spans.filter (·.touches first stop) = [] := by
    apply List.filter_eq_nil_iff.mpr
    intro span hspan htouches
    simp only [Span.touches, Bool.and_eq_true, decide_eq_true_eq] at htouches
    exact hnone span hspan htouches.2 htouches.1
  rw [hnil, TagMap.proseOf_nil]

end Ribbon

namespace Tagger.Completes
variable {τ σ : Type} [DecidableEq τ] [SegmentTag τ] {tagger : Tagger τ σ} {source : Source}
variable {initial state : σ} {ribbon : Ribbon τ} {first stop : Nat} (h : tagger.Completes source initial ribbon state)
include h

theorem proseOf_touches (hlt : first < stop) :
    TagMap.proseOf (ribbon.spans.filter (·.touches first stop)) =
      TagMap.proseOf (ribbon.spans.filter (·.Meets first stop)) := by
  apply congrArg TagMap.proseOf (Ribbon.filter_touches_eq_filter_meets _ hlt)
  intro span hspan
  rcases Nat.eq_zero_or_pos span.stop with hzero | hpos
  · exact .inr hzero
  · exact .inl (Ribbon.start_lt_stop (h.full_of_lt_stop hspan hpos) hspan)

theorem proseOf_touches_within (hle : stop ≤ first) {span : Span τ} (hspan : span ∈ ribbon.spans)
    (hstart : span.start < stop) (hstop : first < span.stop) :
    TagMap.proseOf (ribbon.spans.filter (·.touches first stop)) = trim span.prose :=
  Ribbon.proseOf_touches_of_le (h.full_of_lt_stop hspan hstop) hle hspan hstart hstop

theorem proseOf_touches_eq_iff :
    TagMap.proseOf (ribbon.spans.filter (·.touches first stop)) =
        TagMap.proseOf (ribbon.spans.filter (·.Meets first stop)) ↔
      first < stop ∨ ∀ span ∈ ribbon.spans, span.start < stop → first < span.stop → trim span.prose = "" := by
  rcases Nat.lt_or_ge first stop with hlt | hle
  · exact ⟨fun _ => .inl hlt, fun _ => h.proseOf_touches hlt⟩
  rw [TagMap.proseOf_meets _ hle]
  constructor
  · intro hempty
    refine .inr fun span hspan hstart hstop => ?_
    exact (h.proseOf_touches_within hle hspan hstart hstop).symm.trans hempty
  · intro hempty
    replace hempty := hempty.resolve_left (Nat.not_lt_of_le hle)
    by_cases hwithin : ∃ span ∈ ribbon.spans, span.start < stop ∧ first < span.stop
    · obtain ⟨span, hspan, hstart, hstop⟩ := hwithin
      exact (h.proseOf_touches_within hle hspan hstart hstop).trans (hempty span hspan hstart hstop)
    · apply Ribbon.proseOf_touches_of_not
      intro span hspan hstart hstop
      exact hwithin ⟨span, hspan, hstart, hstop⟩

end Tagger.Completes

namespace Latex
variable {π : Type} [Package π] {settings : Settings}

/-- A range of a document can always be shown. If it has an offset, its prose is that of the segments that
hold one of its offsets. If it has none, no segment does, but the one segment that it lies inside of is shown
nevertheless. So the prose of a range is that of the segments it meets exactly if it has an offset or lies
inside of no segment that shows anything. -/
theorem prose_of_range {packages : Chain π} {text : String} {document : Document π}
    (h : (Document.withPackages settings packages text).read = (.ok (), document)) :
    ∃ map spans, document.map = .ok map ∧ map.spans = .ok spans ∧
      ∀ first stop, ∃ prose, map.proseIn first stop = .ok prose ∧
        (first < stop → prose = TagMap.proseOf (spans.filter (·.Meets first stop))) ∧
        (stop ≤ first → TagMap.proseOf (spans.filter (·.Meets first stop)) = "" ∧
          ∀ span ∈ spans, span.start < stop → first < span.stop → prose = trim span.prose) ∧
        (prose = TagMap.proseOf (spans.filter (·.Meets first stop)) ↔
          first < stop ∨ ∀ span ∈ spans, span.start < stop → first < span.stop → trim span.prose = "") := by
  obtain ⟨map, ribbon, hmap, -, hcompletes, hprojects⟩ := Document.exists_projects h
  refine ⟨map, ribbon.spans, hmap, hprojects.spans, ?_⟩
  intro first stop
  have hprose : map.proseIn first stop =
      .ok (TagMap.proseOf (ribbon.spans.filter (·.touches first stop))) := by
    rw [TagMap.proseIn, hprojects.spans]
    rfl
  refine ⟨_, hprose, hcompletes.proseOf_touches, ?_, hcompletes.proseOf_touches_eq_iff⟩
  intro hle
  exact ⟨TagMap.proseOf_meets _ hle, fun span => hcompletes.proseOf_touches_within hle⟩

theorem prose_of_range_words :
    ∃ document map spans,
      (Document.withPackages {} (Chain.bundled {}) "one \\emph{two} three").read = (.ok (), document) ∧
        document.map = .ok map ∧ map.spans = .ok spans ∧
        ∀ first stop, first < stop →
          map.proseIn first stop = .ok (TagMap.proseOf (spans.filter (·.Meets first stop))) := by
  have hok : (Document.withPackages {} (Chain.bundled {}) "one \\emph{two} three").read.1.isOk = true := by
    decide +kernel
  obtain ⟨document, hread⟩ := Document.exists_of_isOk hok
  obtain ⟨map, spans, hmap, hspans, hranges⟩ := prose_of_range hread
  refine ⟨document, map, spans, hread, hmap, hspans, ?_⟩
  intro first stop hlt
  obtain ⟨prose, hprose, hmeets, -⟩ := hranges first stop
  rw [hprose, hmeets hlt]

/-- A range without an offset and one whose ends are the wrong way round show the word that they lie in. -/
theorem empty_range_shows_word :
    ((Document.withPackages {} (Chain.bundled {}) "one two").read.2.map.bind fun map =>
        map.spans.bind fun spans => (map.proseIn 1 1).bind fun empty => (map.proseIn 2 1).map fun reversed =>
          [(empty, TagMap.proseOf (spans.filter (·.Meets 1 1))),
            (reversed, TagMap.proseOf (spans.filter (·.Meets 2 1)))]).toOption =
        some [("one", ""), ("one", "")] ∧
      "one" ≠ "" := by
  decide +kernel

end Latex
end TexProse
