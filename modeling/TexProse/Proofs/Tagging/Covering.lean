import TexProse.Proofs.Tagging.Spans
import TexProse.Proofs.Tagging.Visits
import TexProse.Tagging.RuleTable

/-!
# Covering a text

What a scan leaves covers its text, each offset once, whatever its tagger does. Main statement:
`run_covers`. It says besides what a tagger has to keep to if the segments are to be told: never to retag the
current character in a visit that has tagged the next one. Then no two neighbours get one tag, for a new tag
is only compared with what stands before it.
-/

namespace TexProse

namespace Boundary
variable {τ : Type}

/-- The ends of the segments that start at boundaries. The last one runs to the end of the text. -/
def extents (length : Nat) : List (Boundary τ) → List (Nat × Nat)
  | [] => []
  | [last] => [(last.start, length)]
  | boundary :: next :: rest => (boundary.start, next.start) :: extents length (next :: rest)

/-- The offsets of segments, one after the other. -/
def offsets (extents : List (Nat × Nat)) : List Nat :=
  extents.flatMap fun (start, stop) => List.range' start (stop - start)

/-- Boundaries cover a text if they ascend from its start and stay in it, so that their segments hold each
offset once. -/
structure Covers (length : Nat) (boundaries : List (Boundary τ)) : Prop extends
    Segmentation.IsAnchored boundaries where
  below : 0 < length → ∀ boundary ∈ boundaries, boundary.start < length
  single : length = 0 → boundaries.length = 1
  offsets : offsets (extents length boundaries) = List.range length

theorem offsets_extents {length : Nat} {boundary : Boundary τ} {rest : List (Boundary τ)}
    (hascending : (boundary :: rest).Pairwise fun a b => a.start < b.start)
    (hbelow : ∀ other ∈ boundary :: rest, other.start ≤ length) :
    offsets (extents length (boundary :: rest)) = List.range' boundary.start (length - boundary.start) := by
  induction rest generalizing boundary with
  | nil => simp [extents, offsets]
  | cons next rest ih =>
      obtain ⟨hfirst, hrest⟩ := List.pairwise_cons.mp hascending
      obtain ⟨-, hbelow⟩ := List.forall_mem_cons.mp hbelow
      have hnext := hfirst next List.mem_cons_self
      have hlength := hbelow next List.mem_cons_self
      calc offsets (extents length (boundary :: next :: rest))
          = List.range' boundary.start (next.start - boundary.start) ++
              offsets (extents length (next :: rest)) := rfl
        _ = List.range' boundary.start (next.start - boundary.start) ++
              List.range' (boundary.start + (next.start - boundary.start)) (length - next.start) := by
            rw [ih hrest hbelow, Nat.add_sub_of_le (Nat.le_of_lt hnext)]
        _ = List.range' boundary.start (length - boundary.start) := by
            rw [List.range'_append_1]
            congr 1
            omega

/-- Boundaries that ascend from the start of a text and stay in it cover it. -/
theorem covers_of_isAnchored {length : Nat} {boundaries : List (Boundary τ)}
    (hanchored : Segmentation.IsAnchored boundaries)
    (hbelow : 0 < length → ∀ boundary ∈ boundaries, boundary.start < length)
    (hsingle : length = 0 → boundaries.length = 1) : Covers length boundaries := by
  refine ⟨hanchored, hbelow, hsingle, ?_⟩
  cases boundaries with
  | nil => cases hanchored.head
  | cons first rest =>
      have hstart : first.start = 0 := by simpa using hanchored.head
      have hle : ∀ boundary ∈ first :: rest, boundary.start ≤ length := by
        rcases Nat.eq_zero_or_pos length with hlength | hlength
        · have hrest : rest = [] := by simpa using hsingle hlength
          simp [hrest, hstart]
        · intro boundary hb
          exact Nat.le_of_lt (hbelow hlength boundary hb)
      rw [offsets_extents hanchored.ascending hle, hstart, Nat.sub_zero, List.range_eq_range']

end Boundary

namespace Ribbon
variable {τ : Type}

/-- The ends of segments laid out one after the other. -/
theorem extents_layOut (start : Nat) (stretches : List (Stretch τ)) :
    Boundary.extents (start + (stretches.flatMap (·.chars)).length)
        ((layOut start stretches).map (·.toBoundary)) =
      (layOut start stretches).map fun span => (span.start, span.stop) := by
  induction stretches generalizing start with
  | nil => rfl
  | cons stretch rest ih =>
      have hrest := ih (start + stretch.chars.length)
      rw [Nat.add_assoc, ← List.length_append, ← List.flatMap_cons] at hrest
      cases rest with
      | nil => simp [layOut, Boundary.extents, Stretch.span, Stretch.boundary]
      | cons next rest => exact congrArg (_ :: ·) hrest

theorem extents_boundaries (ribbon : Ribbon τ) :
    Boundary.extents (chars ribbon).length (boundaries ribbon) =
      (spans ribbon).map fun span => (span.start, span.stop) := by
  have hlaid := extents_layOut 0 ribbon.reverse
  rwa [layOut_reverse, map_toBoundary_spans, flatMap_reverse_chars, Nat.zero_add] at hlaid

end Ribbon

namespace Edit
variable {τ : Type}

instance : DecidableRel fun first later : Edit τ =>
    ∀ tag tag' : τ, first = .tagNext tag → later ≠ .tagHere tag'
  | .tagNext tag, .tagHere tag' => .isFalse fun h => h tag tag' rfl rfl
  | .tagNext _, .tagNext _ | .tagNext _, .render _ | .tagNext _, .append _ => .isTrue fun _ _ _ => nofun
  | .tagHere _, _ | .render _, _ | .append _, _ => .isTrue fun _ _ => nofun

instance (edits : List (Edit τ)) : Decidable (IsOrderly edits) :=
  inferInstanceAs (Decidable (edits.Pairwise _))

end Edit

namespace Tagger
variable {τ σ : Type} [DecidableEq τ] {tagger : Tagger τ σ} {source : Source} {initial : σ}

/-- All visits of a scan, the one at the end of the text included. -/
def allVisits (tagger : Tagger τ σ) (source : Source) (initial : σ) : List (Visit τ σ) :=
  tagger.visits source initial ++ (tagger.lastVisit? source initial).toList

/-- Orderly visits leave no two neighbours with one tag. -/
theorem exists_completes_isVaried {segments : Segmentation τ} {state : σ}
    (horderly : ∀ visit ∈ tagger.allVisits source initial, Edit.IsOrderly visit.edits)
    (h : (tagger.scan source).outcome initial = (.ok segments, state)) :
    ∃ ribbon, Completes tagger source initial ribbon state ∧
      segments.toList = ribbon.boundaries ∧ ribbon.IsVaried := by
  refine exists_completes_keeping Ribbon.IsVaried (List.isChain_singleton _) ?_ ?_ h
  · intro offset ho before middle edits after hscan hedits ribbon hvaried
    have hvisit : ⟨⟨⟨source, offset⟩, before.seek offset⟩, middle, edits⟩ ∈ tagger.visits source initial :=
      List.mem_filterMap.mpr ⟨offset, List.mem_range.mpr ho, visit?_eq_some hscan hedits⟩
    exact hvaried.lay (horderly _ (List.mem_append_left _ hvisit)) _
  · intro before middle edits after hlength hscan hedits ribbon hvaried
    have hvisit := lastVisit?_eq_some_iff.mpr ⟨Nat.ne_of_gt hlength, visit?_eq_some hscan hedits⟩
    exact hvaried.settle.close (horderly _ (List.mem_append_right _ (Option.mem_toList.mpr hvisit)))

theorem Completes.covers {ribbon : Ribbon τ} {state : σ} (h : Completes tagger source initial ribbon state) :
    Boundary.Covers source.length ribbon.boundaries := by
  apply Boundary.covers_of_isAnchored h.isSolid.isAnchored
  · intro hlength boundary hb
    have hlt := Ribbon.start_lt_of_mem (h.full hlength) boundary hb
    rwa [h.chars] at hlt
  · intro hlength
    rw [h.eq_single hlength, Ribbon.length_boundaries]
    rfl

end Tagger

namespace Pass
variable {τ σ : Type} [DecidableEq τ] {pass pass' : Pass τ σ}

/-- A pass that succeeds has scanned its source. -/
theorem exists_scan (hrun : pass.run = (.ok (), pass')) :
    ∃ segments state, (pass.tagger.scan pass.source).outcome pass.state = (.ok segments, state) ∧
      pass'.map = .ok ⟨pass.source, segments⟩ := by
  rw [run] at hrun
  split at hrun
  · rcases hscan : (pass.tagger.scan pass.source).outcome pass.state with ⟨failure | segments, state⟩
    · rw [show pass.tagger.scan pass.source pass.state = _ from hscan] at hrun
      cases hrun
    · rw [show pass.tagger.scan pass.source pass.state = _ from hscan] at hrun
      cases hrun
      exact ⟨segments, state, rfl, rfl⟩
  · cases hrun

/-- What a pass leaves covers its source, whatever the tagger does. If moreover no visit retags the current
character after it has tagged the next one, neighbours differ: the segments can be told, one for each
boundary, and their texts make up the source. -/
theorem run_covers [SegmentTag τ] (hrun : pass.run = (.ok (), pass')) :
    ∃ map, pass'.map = .ok map ∧ map.source = pass.source ∧
      Boundary.Covers pass.source.length map.boundaries ∧
      ((∀ visit ∈ pass.tagger.allVisits pass.source pass.state, Edit.IsOrderly visit.edits) →
        map.boundaries.IsChain (fun a b => a.tag ≠ b.tag) ∧
        ∃ spans, map.spans = .ok spans ∧ spans.map (·.toBoundary) = map.boundaries ∧
          spans.map (fun span => (span.start, span.stop)) =
            Boundary.extents pass.source.length map.boundaries ∧
          String.join (spans.map (·.text)) = pass.source.text) := by
  obtain ⟨segments, state, hscan, hmap⟩ := exists_scan hrun
  refine ⟨_, hmap, rfl, ?_, ?_⟩
  · obtain ⟨ribbon, hcompletes, hlist⟩ := Tagger.exists_completes hscan
    rw [TagMap.boundaries, hlist]
    exact hcompletes.covers
  · intro horderly
    obtain ⟨ribbon, hcompletes, hlist, hvaried⟩ := Tagger.exists_completes_isVaried horderly hscan
    have hchars := hcompletes.chars
    have hprojects : TagMap.Projects ⟨pass.source, segments⟩ ribbon := TagMap.projects hlist hchars hvaried
    rw [hprojects.boundaries]
    refine ⟨Ribbon.isChain_boundaries hvaried, ribbon.spans, hprojects.spans, ?_, ?_, ?_⟩
    · exact Ribbon.map_toBoundary_spans ribbon
    · rw [← Ribbon.extents_boundaries, hchars]
      rfl
    · rw [Ribbon.join_text_spans, hchars]
      rfl

/-- Words, the blanks between them, and numbers. -/
def words : RuleTable where
  start := ⟨'W'⟩
  rules := [{ char := some ' ', acts := [.edit (.tagHere ⟨'b'⟩), .edit (.tagNext ⟨'W'⟩)] },
    { char := some '1', acts := [.edit (.tagHere ⟨'n'⟩), .edit (.append "one")] }]

theorem run_covers_words :
    ∃ pass' map spans, (words.pass (.ofString "ab c1")).run = (.ok (), pass') ∧ pass'.map = .ok map ∧
      Boundary.Covers 5 map.boundaries ∧ map.spans = .ok spans ∧
      spans.map (·.toBoundary) = map.boundaries ∧ String.join (spans.map (·.text)) = "ab c1" := by
  have hok : (words.pass (.ofString "ab c1")).run.1.isOk = true := by decide +kernel
  have horderly : ∀ visit ∈ words.tagger.allVisits (.ofString "ab c1") #[], Edit.IsOrderly visit.edits := by
    decide +kernel
  rcases hrun : (words.pass (.ofString "ab c1")).run with ⟨_ | _, pass'⟩
  · rw [hrun] at hok
    cases hok
  · obtain ⟨map, hmap, hsource, hcovers, htold⟩ := run_covers hrun
    obtain ⟨-, spans, hspans, hboundaries, -, htexts⟩ := htold horderly
    exact ⟨pass', map, spans, rfl, hmap, hcovers, hspans, hboundaries, htexts⟩

/-- A character may get the tag that the next one has just got. -/
example :
    let table : RuleTable :=
      ⟨⟨'A'⟩, [{ char := some 'x', acts := [.edit (.tagNext ⟨'B'⟩), .edit (.tagHere ⟨'B'⟩)] }], none⟩
    ((table.pass (.ofString "axy")).run.2.map.bind TagMap.spans).isOk = false := by
  decide +kernel

end Pass
end TexProse
