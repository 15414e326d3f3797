import TexProse.Proofs.Tagging.Progress
import TexProse.Tagging.TagMap

/-!
# The segments of a ribbon

Cutting a text at the boundaries of its ribbon gives the segments of the ribbon, each with the characters
that were read into it. Every projection of the text is thereby one of the ribbon.
-/

namespace TexProse

namespace Source

theorem toList_slice (source : Source) (start stop : Nat) :
    (source.slice start stop).toList = (source.chars.toList.drop start).take (stop - start) := by
  simp [slice]

end Source

namespace Cursor

/-- What was read behind a character. -/
theorem textSince_of_take {here : Cursor} {before inside : List Char} {c : Char}
    (h : here.source.chars.toList.take here.offset = before ++ c :: inside) :
    here.textSince (before.length + 1) = String.ofList inside := by
  rw [← String.toList_inj, textSince, Source.toList_slice, ← List.drop_take, h]
  simp

end Cursor

namespace Boundary
variable {τ : Type}

/-- Continuing a rendering continues what it says. -/
theorem getD_append (boundary : Boundary τ) (text : String) :
    (boundary.append text).rendering.getD "" = boundary.rendering.getD "" ++ text := by
  rw [append]
  split
  next hempty => simp [hempty]
  next => rfl

end Boundary

namespace Stretch
variable {τ : Type}

/-- The segment with both ends, from where it starts. -/
def span (stretch : Stretch τ) (start : Nat) : Span τ :=
  ⟨stretch.boundary start, start + stretch.chars.length, String.ofList stretch.chars⟩

/-- What the segment adds to the prose. -/
def prose [SegmentTag τ] (stretch : Stretch τ) : String :=
  if SegmentTag.isPlain stretch.tag then String.ofList stretch.chars else stretch.rendering.getD ""

@[simp] theorem prose_span [SegmentTag τ] (stretch : Stretch τ) (start : Nat) :
    (stretch.span start).prose = stretch.prose := rfl

/-- A segment that nothing was read into or rendered for adds nothing. -/
theorem prose_fresh [SegmentTag τ] (tag : τ) : prose { tag := tag } = "" := by
  rw [prose]
  split <;> rfl

end Stretch

namespace Ribbon
variable {τ : Type}

/-- The segments from left to right. -/
def spans : Ribbon τ → List (Span τ)
  | [] => []
  | last :: rest => spans rest ++ [last.span (chars rest).length]

/-- What all segments together say if each says what `speak` tells. -/
def told (speak : Stretch τ → String) : Ribbon τ → String
  | [] => ""
  | last :: rest => told speak rest ++ speak last

/-- What all segments together add to the prose. -/
def prose [SegmentTag τ] (ribbon : Ribbon τ) : String := told Stretch.prose ribbon

/-- The last segment holds what was read from its start on. -/
theorem slice_of_read {source : Source} {last : Stretch τ} {rest : Ribbon τ} {start stop : Nat}
    (hread : chars (last :: rest) = source.chars.toList.take stop)
    (hstart : start + last.chars.length = stop) (hstop : stop ≤ source.length) :
    source.slice start stop = String.ofList last.chars := by
  have hlength := congrArg List.length hread
  rw [List.length_take_of_le (show stop ≤ source.chars.toList.length from hstop), chars,
    List.length_append] at hlength
  have hrest : start = (chars rest).length := by omega
  rw [← String.toList_inj, Source.toList_slice, ← List.drop_take, ← hread, hrest, chars,
    List.drop_left, String.toList_ofList]

theorem map_toBoundary_spans (ribbon : Ribbon τ) :
    (spans ribbon).map (·.toBoundary) = boundaries ribbon := by
  induction ribbon with
  | nil => rfl
  | cons last rest ih => simp [spans, boundaries, ih, Stretch.span]

theorem join_text_spans (ribbon : Ribbon τ) :
    String.join ((spans ribbon).map (·.text)) = String.ofList (chars ribbon) := by
  induction ribbon with
  | nil => rfl
  | cons last rest ih => simp [spans, chars, ih, Stretch.span, String.ofList_append]

theorem stop_le_of_mem_spans {ribbon : Ribbon τ} {span : Span τ} (h : span ∈ spans ribbon) :
    span.stop ≤ (chars ribbon).length := by
  induction ribbon with
  | nil => cases h
  | cons last rest ih =>
      rw [chars, List.length_append]
      rcases List.mem_append.mp h with h | h
      · exact Nat.le_add_right_of_le (ih h)
      · rw [List.mem_singleton.mp h]
        exact Nat.le_refl _

/-- What is told of the segments is told of them from left to right. -/
theorem join_spans {speak : Stretch τ → String} {voice : Span τ → String}
    (hvoice : ∀ stretch start, voice (stretch.span start) = speak stretch) (ribbon : Ribbon τ) :
    String.join ((spans ribbon).map voice) = told speak ribbon := by
  induction ribbon with
  | nil => rfl
  | cons last rest ih => simp [spans, told, hvoice, ih]

theorem join_prose_spans [SegmentTag τ] (ribbon : Ribbon τ) :
    String.join ((spans ribbon).map Span.prose) = prose ribbon :=
  join_spans Stretch.prose_span ribbon

/-- A segment is the last one or stands before it. -/
theorem spans_cases {last : Stretch τ} {rest : Ribbon τ} {before after : List (Span τ)} {span : Span τ}
    (h : spans (last :: rest) = before ++ span :: after) :
    before = spans rest ∧ span = last.span (chars rest).length ∧ after = [] ∨
      ∃ between, after = between ++ [last.span (chars rest).length] ∧
        spans rest = before ++ span :: between := by
  rcases List.eq_nil_or_concat' after with rfl | ⟨between, final, rfl⟩
  · obtain ⟨hbefore, hspan⟩ := List.append_inj' h rfl
    exact .inl ⟨hbefore.symm, (List.cons.inj hspan).1.symm, rfl⟩
  · rw [spans, ← List.cons_append, ← List.append_assoc] at h
    obtain ⟨hrest, hfinal⟩ := List.append_inj' h rfl
    exact .inr ⟨between, by rw [hfinal], hrest⟩

/-- What stands before a segment is a ribbon of its own. -/
theorem exists_of_spans_eq {ribbon : Ribbon τ} {before after : List (Span τ)} {span : Span τ}
    (h : spans ribbon = before ++ span :: after) :
    ∃ later last earlier, ribbon = later ++ last :: earlier ∧ spans earlier = before ∧
      last.span (chars earlier).length = span := by
  induction ribbon generalizing after with
  | nil => simp [spans] at h
  | cons last rest ih =>
      obtain ⟨rfl, rfl, -⟩ | ⟨between, -, hrest⟩ := spans_cases h
      · exact ⟨[], last, rest, rfl, rfl, rfl⟩
      · obtain ⟨later, last', earlier, rfl, hbefore, hspan⟩ := ih hrest
        exact ⟨last :: later, last', earlier, rfl, hbefore, hspan⟩

section Told
variable [DecidableEq τ] {speak : Stretch τ → String}

/-- A new tag leaves what is told, as the segment it takes the place of says nothing. -/
theorem told_turn (hfresh : ∀ tag, speak { tag := tag } = "") (tag : τ) {ribbon : Ribbon τ}
    (hclean : ∀ last ∈ ribbon.head?, last.chars = [] → speak last = "") :
    told speak (turn tag ribbon) = told speak ribbon := by
  cases ribbon with
  | nil => simp [turn, told, hfresh]
  | cons last rest =>
      simp only [turn]
      split_ifs with htag hchars hprevious
      · rfl
      · simp [told, hclean last rfl hchars]
      · simp [told, hclean last rfl hchars, hfresh]
      · simp [told, hfresh]

theorem told_beginNext (hfresh : ∀ tag, speak { tag := tag } = "") (tag : τ) (ribbon : Ribbon τ) :
    told speak (ribbon.beginNext tag) = told speak ribbon := by
  rw [beginNext]
  split
  · rfl
  · simp [told, hfresh]

omit [DecidableEq τ] in
theorem told_settle {ribbon : Ribbon τ}
    (hclean : ∀ last ∈ ribbon.head?, last.chars = [] → speak last = "") :
    told speak ribbon.settle = told speak ribbon := by
  unfold settle
  split
  next last previous rest =>
    split
    next hchars => simp [told, hclean last rfl hchars]
    next => rfl
  · rfl

end Told

/-- Segments laid out from left to right. -/
def layOut (start : Nat) : List (Stretch τ) → List (Span τ)
  | [] => []
  | stretch :: rest => stretch.span start :: layOut (start + stretch.chars.length) rest

theorem layOut_concat (start : Nat) (stretches : List (Stretch τ)) (stretch : Stretch τ) :
    layOut start (stretches ++ [stretch]) = layOut start stretches ++
      [stretch.span (start + (stretches.flatMap (·.chars)).length)] := by
  induction stretches generalizing start with
  | nil => rfl
  | cons first rest ih => simp [layOut, ih, Nat.add_assoc]

theorem flatMap_reverse_chars (ribbon : Ribbon τ) :
    ribbon.reverse.flatMap (·.chars) = chars ribbon := by
  induction ribbon with
  | nil => rfl
  | cons last rest ih => simp [chars, ih]

theorem layOut_reverse (ribbon : Ribbon τ) : layOut 0 ribbon.reverse = spans ribbon := by
  induction ribbon with
  | nil => rfl
  | cons last rest ih =>
      rw [List.reverse_cons, layOut_concat, ih, flatMap_reverse_chars, Nat.zero_add, spans]

variable [DecidableEq τ] [SegmentTag τ]

theorem cut_layOut {source : Source} {start : Nat} {stretches : List (Stretch τ)}
    (hstart : start ≤ source.length)
    (hchars : source.chars.toList.drop start = stretches.flatMap (·.chars))
    (hvaried : stretches.IsChain fun a b => a.tag ≠ b.tag) :
    TagMap.cut source ((layOut start stretches).map (·.toBoundary)) =
      .ok (layOut start stretches) := by
  have hlength : source.length = start + (stretches.flatMap (·.chars)).length := by
    rw [← hchars, List.length_drop, Array.length_toList]
    exact (Nat.add_sub_of_le hstart).symm
  induction stretches generalizing start with
  | nil => rfl
  | cons stretch rest ih =>
      have hslice : source.slice start (start + stretch.chars.length) =
          String.ofList stretch.chars := by
        rw [← String.toList_inj, Source.toList_slice, hchars]
        simp
      have hdrop : source.chars.toList.drop (start + stretch.chars.length) =
          rest.flatMap (·.chars) := by
        rw [← List.drop_drop, hchars]
        simp
      simp only [List.flatMap_cons, List.length_append] at hlength
      cases rest with
      | nil =>
          have hstop : source.length = start + stretch.chars.length := by simpa using hlength
          simp [layOut, TagMap.cut, Stretch.span, Stretch.boundary, hstop, hslice]
      | cons next rest =>
          obtain ⟨htag, hrest⟩ := List.isChain_cons_cons.mp hvaried
          have hcut := ih (by omega) hdrop hrest (by omega)
          simp only [layOut, List.map_cons] at hcut ⊢
          have htag' : ¬ (next.span (start + stretch.chars.length)).tag = (stretch.span start).tag :=
            Ne.symm htag
          rw [TagMap.cut, if_neg htag', hcut]
          rw [show stretch.span start = ⟨stretch.boundary start, start + stretch.chars.length,
            source.slice start (start + stretch.chars.length)⟩ by rw [hslice]; rfl]
          rfl

/-- Cutting a text at the boundaries of its ribbon gives back the segments. -/
theorem cut_boundaries {source : Source} {ribbon : Ribbon τ}
    (hchars : chars ribbon = source.chars.toList) (hvaried : ribbon.IsVaried) :
    TagMap.cut source (boundaries ribbon) = .ok (spans ribbon) := by
  rw [← map_toBoundary_spans, ← layOut_reverse]
  apply cut_layOut (Nat.zero_le _)
  · rw [List.drop_zero, flatMap_reverse_chars, hchars]
  · have hchain : ribbon.IsChain fun a b => a.tag ≠ b.tag := by
      simpa [IsVaried, tags, List.isChain_map] using hvaried
    exact List.isChain_reverse.mpr (hchain.imp fun a b h => Ne.symm h)

end Ribbon

namespace Transcript

theorem prose_foldl_add {τ : Type} [SegmentTag τ] (spans : List (Span τ)) (draft : Draft) :
    (spans.foldl (fun draft span => draft.add span.role span.text) draft).finish.1.prose =
      draft.finish.1.prose ++ String.join (spans.map Span.prose) := by
  induction spans generalizing draft with
  | nil => simp
  | cons span rest ih =>
      have hpiece : (draft.add span.role span.text).finish.1.prose =
          draft.finish.1.prose ++ span.prose := by
        simp only [Draft.finish, Draft.add, prose, Span.role, Span.prose]
        split <;> simp [Piece.prose]
      simp [ih, hpiece, String.append_assoc]

end Transcript

namespace TagMap
variable {τ : Type} [DecidableEq τ] [SegmentTag τ] {map : TagMap τ} {ribbon : Ribbon τ}

/-- Every projection of a text that a ribbon lays out succeeds and shows the ribbon. -/
structure Projects (map : TagMap τ) (ribbon : Ribbon τ) : Prop where
  boundaries : map.boundaries = ribbon.boundaries
  spans : map.spans = .ok ribbon.spans
  prose : map.prose = .ok (trim ribbon.prose)
  transcript : ∃ transcript, map.transcript = .ok transcript ∧ transcript.prose = ribbon.prose

theorem projects (hlist : map.segments.toList = ribbon.boundaries)
    (hchars : ribbon.chars = map.source.chars.toList) (hvaried : ribbon.IsVaried) :
    map.Projects ribbon := by
  have hspans : map.spans = .ok ribbon.spans := by
    rw [TagMap.spans, TagMap.boundaries, hlist]
    exact Ribbon.cut_boundaries hchars hvaried
  refine ⟨hlist, hspans, ?_, (ribbon.spans.foldl (fun draft span =>
    draft.add span.role span.text) ({} : Transcript.Draft)).finish.1, ?_, ?_⟩
  · rw [TagMap.prose, hspans, ← Ribbon.join_prose_spans]
    rfl
  · rw [TagMap.transcript, hspans]
    rfl
  · rw [Transcript.prose_foldl_add, Ribbon.join_prose_spans]
    exact String.empty_append

end TagMap
end TexProse
