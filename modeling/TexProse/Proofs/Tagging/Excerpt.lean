import TexProse.Finding
import TexProse.Proofs.Tagging.Origin

/-!
# What an excerpt quotes

A finding touches consecutive segments. The first of them supplies its first character. They reach to its end,
unless it ends inside a rendering: what is rendered stands for the start of its segment, which is then the end
of what the finding touches. Such a rendering is quoted only if the finding begins in it, too.
-/

namespace TexProse

theorem dropWhile_isInfix {α : Type} (p : α → Bool) {xs ys : List α} (h : xs <:+: ys) :
    xs.dropWhile p <:+: ys.dropWhile p := by
  obtain ⟨before, after, rfl⟩ := h
  have hfront : xs.dropWhile p <:+: (before ++ xs).dropWhile p := by
    rw [List.dropWhile_append]
    split
    · exact List.infix_rfl
    · exact (List.dropWhile_suffix p).isInfix.trans (List.suffix_append _ _).isInfix
  rw [List.dropWhile_append]
  split
  next hempty =>
    rw [List.isEmpty_iff.mp hempty] at hfront
    rw [List.infix_nil.mp hfront]
    exact List.nil_infix
  next => exact hfront.trans (List.prefix_append _ _).isInfix

/-- Trimming keeps what a text holds, as long as that is trimmed, too. -/
theorem trimChars_isInfix {cs cs' : List Char} (h : cs <:+: cs') : trimChars cs <:+: trimChars cs' := by
  rw [trimChars, trimChars, List.reverse_infix]
  apply dropWhile_isInfix
  rw [List.reverse_infix]
  exact dropWhile_isInfix isBlank h

theorem Source.slice_isInfix (source : Source) {start first stop finish : Nat} (hstart : start ≤ first)
    (hstop : stop ≤ finish) : (source.slice first stop).toList <:+: (source.slice start finish).toList := by
  have hfront : (source.slice first stop).toList <:+ (source.slice start stop).toList := by
    rw [toList_slice, toList_slice, ← List.drop_take, ← List.drop_take]
    exact List.drop_suffix_drop_left _ hstart
  have hback : (source.slice start stop).toList <+: (source.slice start finish).toList := by
    rw [toList_slice, toList_slice]
    exact List.take_prefix_take_left (Nat.sub_le_sub_right hstop start)
  exact hfront.isInfix.trans hback.isInfix

namespace Span
variable {τ : Type} [SegmentTag τ] {spans before touched after : List (Span τ)}

/-- What consecutive segments add to the prose. -/
theorem slice_join (h : spans = before ++ touched ++ after) :
    (Source.ofString (String.join (spans.map prose))).slice (String.join (before.map prose)).length
        (String.join ((before ++ touched).map prose)).length = String.join (touched.map prose) := by
  rw [← String.toList_inj, Source.toList_slice, h, Source.chars_ofString]
  simp only [List.map_append, String.join_append, String.toList_append, String.length_append,
    Nat.add_sub_cancel_left, List.append_assoc]
  rw [List.drop_left' (String.length_toList), List.take_left' (String.length_toList)]

theorem slice_isInfix_join {first stop : Nat} (h : spans = before ++ touched ++ after)
    (hfirst : (String.join (before.map prose)).length ≤ first)
    (hstop : stop ≤ (String.join ((before ++ touched).map prose)).length) :
    ((Source.ofString (String.join (spans.map prose))).slice first stop).toList <:+:
      (String.join (touched.map prose)).toList := by
  rw [← slice_join h]
  exact Source.slice_isInfix _ hfirst hstop

/-- Of two characters of the prose the earlier one is supplied by the same segment or by an earlier one. -/
theorem Supplies.cases_of_lt {opening closing : Span τ} {inside inside' first stop : Nat}
    (hopening : Supplies spans opening inside first) (hclosing : Supplies spans closing inside' stop)
    (hlt : first < stop) :
    (∃ before after, spans = before ++ [opening] ++ after ∧ closing = opening ∧
      first = (String.join (before.map prose)).length + inside ∧
      stop = (String.join (before.map prose)).length + inside') ∨
    ∃ before between after, spans = before ++ (opening :: between) ++ closing :: after ∧
      first = (String.join (before.map prose)).length + inside ∧
      stop = (String.join ((before ++ opening :: between).map prose)).length + inside' := by
  obtain ⟨before, after, hspans, hfirst, hinside⟩ := hopening
  obtain ⟨before', after', hspans', hstop, hinside'⟩ := hclosing
  rcases List.append_eq_append_iff.mp (hspans.symm.trans hspans') with
    ⟨between, hbefore, hrest⟩ | ⟨between, hbefore, hrest⟩
  · cases between with
    | nil =>
        obtain ⟨rfl, rfl⟩ := List.cons.inj hrest
        rw [List.append_nil] at hbefore
        exact .inl ⟨before, after, by simpa using hspans, rfl, hfirst, hbefore ▸ hstop⟩
    | cons next between =>
        obtain ⟨rfl, rfl⟩ := List.cons.inj hrest
        subst hbefore
        exact .inr ⟨before, between, after', hspans', hfirst, hstop⟩
  · cases between with
    | nil =>
        obtain ⟨rfl, rfl⟩ := List.cons.inj hrest
        rw [List.append_nil] at hbefore
        exact .inl ⟨before, after', by simpa using hspans, rfl, hfirst, hbefore ▸ hstop⟩
    | cons next between =>
        -- the later character would stand before the earlier one
        obtain ⟨rfl, rfl⟩ := List.cons.inj hrest
        rw [hbefore, List.map_append, String.join_append, String.length_append, List.map_cons,
          String.join_cons, String.length_append] at hfirst
        omega

end Span

namespace Ribbon
variable {τ : Type} [SegmentTag τ] {ribbon : Ribbon τ} (hfull : ∀ stretch ∈ ribbon, stretch.chars ≠ [])
include hfull

/-- What a segment supplies comes from the segment. -/
theorem origin_bounds {span : Span τ} {inside offset : Nat}
    (h : Span.Supplies ribbon.spans span inside offset) :
    span.start ≤ span.piece.origin inside ∧ span.piece.origin inside < span.stop := by
  cases hplain : SegmentTag.isPlain span.tag with
  | true =>
      have hprose : span.prose = span.text := by simp [Span.prose, hplain]
      have hinside := hprose ▸ h.inside_lt
      rw [Span.origin_of_isPlain hplain, stop_eq_of_mem_spans h.mem]
      omega
  | false =>
      rw [Span.origin_of_not_isPlain hplain]
      exact ⟨Nat.le_refl _, start_lt_stop hfull h.mem⟩

omit [SegmentTag τ] in
/-- A range of the source touches all segments from the one that holds its start to its end. -/
theorem filter_touches {before between after : List (Span τ)} {opening : Span τ} {place stop : Nat}
    (hsplit : ribbon.spans = before ++ (opening :: between) ++ after)
    (hstart : opening.start ≤ place) (hplace : place < opening.stop)
    (htouched : ∀ span ∈ opening :: between, span.start < stop) (hafter : ∀ span ∈ after, stop ≤ span.start) :
    ribbon.spans.filter (·.touches place stop) = opening :: between := by
  have hpairwise := pairwise_spans ribbon
  rw [hsplit] at hpairwise
  obtain ⟨hinner, -, -⟩ := List.pairwise_append.mp hpairwise
  obtain ⟨-, hbetween, hbefore⟩ := List.pairwise_append.mp hinner
  obtain ⟨hbetween, -⟩ := List.pairwise_cons.mp hbetween
  have hnone : before.filter (·.touches place stop) = [] := by
    apply List.filter_eq_nil_iff.mpr
    intro span hspan
    have := hbefore span hspan opening List.mem_cons_self
    simp only [Span.touches, Bool.and_eq_true, decide_eq_true_eq]
    omega
  have hall : (opening :: between).filter (·.touches place stop) = opening :: between := by
    apply List.filter_eq_self.mpr
    intro span hspan
    have hless := htouched span hspan
    simp only [Span.touches, Bool.and_eq_true, decide_eq_true_eq]
    rcases List.mem_cons.mp hspan with rfl | hspan
    · exact ⟨hplace, hless⟩
    · have hbehind := hbetween span hspan
      have hmem : span ∈ ribbon.spans := by simp [hsplit, hspan]
      have hnonempty := start_lt_stop hfull hmem
      omega
  have hnone' : after.filter (·.touches place stop) = [] := by
    apply List.filter_eq_nil_iff.mpr
    intro span hspan
    have := hafter span hspan
    simp only [Span.touches, Bool.and_eq_true, decide_eq_true_eq]
    omega
  rw [hsplit, List.filter_append, List.filter_append, hnone, hall, hnone', List.nil_append, List.append_nil]

end Ribbon

namespace Finding
variable {τ : Type} [SegmentTag τ]

/-- The segments that a finding touches. -/
def touched (finding : Finding) (transcript : Transcript) (spans : List (Span τ)) : List (Span τ) :=
  let first := transcript.origin finding.first
  let stop := max (transcript.origin finding.stop) first
  spans.filter (·.touches first (max stop (first + 1)))

variable {ribbon : Ribbon τ} (hfull : ∀ stretch ∈ ribbon, stretch.chars ≠ [])
variable {finding : Finding} {before between after : List (Span τ)} {opening closing : Span τ}
variable {inside inside' : Nat}

/-- A range of the source is touched from where the start of the finding comes from. -/
theorem touched_eq (hopening : Span.Supplies ribbon.spans opening inside finding.first) :
    finding.touched ⟨ribbon.spans.map Span.piece⟩ ribbon.spans =
      ribbon.spans.filter (·.touches (opening.piece.origin inside)
        (max (max ((Transcript.mk (ribbon.spans.map Span.piece)).origin finding.stop)
          (opening.piece.origin inside)) (opening.piece.origin inside + 1))) := by
  have horigin : (Transcript.mk (ribbon.spans.map Span.piece)).origin finding.first =
      opening.piece.origin inside := hopening.originIn _
  rw [touched, horigin]

include hfull

/-- A finding in what one segment supplies touches no other. -/
theorem touched_same (hopening : Span.Supplies ribbon.spans opening inside finding.first)
    (hclosing : Span.Supplies ribbon.spans opening inside' finding.stop)
    (hsplit : ribbon.spans = before ++ [opening] ++ after) :
    finding.touched ⟨ribbon.spans.map Span.piece⟩ ribbon.spans = [opening] := by
  obtain ⟨hstart, hplace⟩ := Ribbon.origin_bounds hfull hopening
  have hstop := (Ribbon.origin_bounds hfull hclosing).2
  have horigin : (Transcript.mk (ribbon.spans.map Span.piece)).origin finding.stop =
      opening.piece.origin inside' := hclosing.originIn _
  have hpairwise := Ribbon.pairwise_spans ribbon
  rw [hsplit, List.append_assoc] at hpairwise
  obtain ⟨-, hpairwise, -⟩ := List.pairwise_append.mp hpairwise
  obtain ⟨hafter, -⟩ := List.pairwise_cons.mp hpairwise
  rw [touched_eq hopening, horigin]
  apply Ribbon.filter_touches hfull hsplit hstart hplace
  · intro span hspan
    rw [List.mem_singleton.mp hspan]
    omega
  · intro span hspan
    have := hafter span hspan
    omega

/-- A finding that ends in another segment touches all before that, and that one itself if the finding ends
behind the start of its text. -/
theorem touched_between (hopening : Span.Supplies ribbon.spans opening inside finding.first)
    (hclosing : Span.Supplies ribbon.spans closing inside' finding.stop)
    (hsplit : ribbon.spans = before ++ (opening :: between) ++ closing :: after) :
    finding.touched ⟨ribbon.spans.map Span.piece⟩ ribbon.spans =
      opening :: between ++ if SegmentTag.isPlain closing.tag ∧ 0 < inside' then [closing] else [] := by
  obtain ⟨hstart, hplace⟩ := Ribbon.origin_bounds hfull hopening
  obtain ⟨hstart', hplace'⟩ := Ribbon.origin_bounds hfull hclosing
  have horigin : (Transcript.mk (ribbon.spans.map Span.piece)).origin finding.stop =
      closing.piece.origin inside' := hclosing.originIn _
  have hpairwise := Ribbon.pairwise_spans ribbon
  rw [hsplit, List.append_assoc, List.cons_append] at hpairwise
  obtain ⟨-, hpairwise, -⟩ := List.pairwise_append.mp hpairwise
  obtain ⟨hopens, hpairwise⟩ := List.pairwise_cons.mp hpairwise
  obtain ⟨-, hafter, hbetween⟩ := List.pairwise_append.mp hpairwise
  obtain ⟨hafter, -⟩ := List.pairwise_cons.mp hafter
  have hopened := hopens closing (by simp)
  have hearlier : ∀ span ∈ opening :: between, span.start < closing.start := by
    intro span hspan
    have hmem : span ∈ ribbon.spans := hsplit ▸ List.mem_append_left _ (List.mem_append_right _ hspan)
    have hless := Ribbon.start_lt_stop hfull hmem
    rcases List.mem_cons.mp hspan with rfl | hspan
    · omega
    · have := hbetween span hspan closing List.mem_cons_self
      omega
  rw [touched_eq hopening, horigin, Nat.max_eq_left (by omega), Nat.max_eq_left (by omega)]
  by_cases hinto : SegmentTag.isPlain closing.tag ∧ 0 < inside'
  · have hbehind := Span.origin_of_isPlain hinto.1 inside'
    have hwhole : ribbon.spans = before ++ (opening :: (between ++ [closing])) ++ after := by simp [hsplit]
    rw [if_pos hinto, List.cons_append]
    apply Ribbon.filter_touches hfull hwhole hstart hplace
    · intro span hspan
      rw [← List.cons_append] at hspan
      rcases List.mem_append.mp hspan with hspan | hspan
      · have := hearlier span hspan
        omega
      · rw [List.mem_singleton.mp hspan]
        omega
    · intro span hspan
      have := hafter span hspan
      omega
  · have hbegin : closing.piece.origin inside' = closing.start := by
      cases hplain : SegmentTag.isPlain closing.tag with
      | true =>
          rw [Span.origin_of_isPlain hplain]
          have hzero : ¬ 0 < inside' := fun hpos => hinto ⟨hplain, hpos⟩
          omega
      | false => exact Span.origin_of_not_isPlain hplain inside'
    rw [if_neg hinto, List.append_nil, hbegin]
    apply Ribbon.filter_touches hfull hsplit hstart hplace hearlier
    intro span hspan
    rcases List.mem_cons.mp hspan with rfl | hspan
    · exact Nat.le_refl _
    · have := hafter span hspan
      omega

/-- A finding up to the end of the prose touches all that follows its start. -/
theorem touched_rest (hopening : Span.Supplies ribbon.spans opening inside finding.first)
    (hstop : (String.join (ribbon.spans.map Span.prose)).length ≤ finding.stop)
    (hsplit : ribbon.spans = before ++ (opening :: between)) :
    finding.touched ⟨ribbon.spans.map Span.piece⟩ ribbon.spans = opening :: between := by
  obtain ⟨hstart, hplace⟩ := Ribbon.origin_bounds hfull hopening
  have horigin : (Transcript.mk (ribbon.spans.map Span.piece)).origin finding.stop =
      (Ribbon.chars ribbon).length := by
    rw [Transcript.origin, Ribbon.sourceLength_spans]
    exact Transcript.originIn_of_le (by rwa [Span.join_prose_piece])
  have hwhole : ribbon.spans = before ++ (opening :: between) ++ [] := by rw [hsplit, List.append_nil]
  rw [touched_eq hopening, horigin]
  apply Ribbon.filter_touches hfull hwhole hstart hplace
  · intro span hspan
    have hmem : span ∈ ribbon.spans := hsplit ▸ List.mem_append_right _ hspan
    have hless := Ribbon.start_lt_stop hfull hmem
    have hle := Ribbon.stop_le_of_mem_spans hmem
    omega
  · exact nofun

/-- A finding that ends inside a rendering, and does not begin in it, is quoted up to where that begins. -/
theorem join_touched_of_rendering (hopening : Span.Supplies ribbon.spans opening inside finding.first)
    (hclosing : Span.Supplies ribbon.spans closing inside' finding.stop)
    (hmarkup : SegmentTag.isPlain closing.tag = false) (hbehind : finding.first + inside' < finding.stop) :
    String.join ((finding.touched ⟨ribbon.spans.map Span.piece⟩ ribbon.spans).map Span.prose) =
      (Source.ofString (String.join (ribbon.spans.map Span.prose))).slice (finding.first - inside)
        (finding.stop - inside') := by
  rcases hopening.cases_of_lt hclosing (by omega) with
    ⟨before, after, -, -, hfirst, hstop⟩ | ⟨before, between, after, hsplit, hfirst, hstop⟩
  · omega
  · rw [touched_between hfull hopening hclosing hsplit, if_neg (by simp [hmarkup]), List.append_nil,
      hfirst, hstop, Nat.add_sub_cancel, Nat.add_sub_cancel]
    exact (Span.slice_join hsplit).symm

/-- What any other finding is about is quoted as a whole. -/
theorem slice_isInfix_touched (hlt : finding.first < finding.stop)
    (hstop : finding.stop ≤ (String.join (ribbon.spans.map Span.prose)).length)
    (hnot : ∀ closing inside', Span.Supplies ribbon.spans closing inside' finding.stop →
      SegmentTag.isPlain closing.tag = false → 0 < inside' → finding.stop ≤ finding.first + inside') :
    ((Source.ofString (String.join (ribbon.spans.map Span.prose))).slice finding.first
        finding.stop).toList <:+:
      (String.join ((finding.touched ⟨ribbon.spans.map Span.piece⟩ ribbon.spans).map Span.prose)).toList := by
  obtain ⟨opening, inside, hopening⟩ := Span.exists_supplies (Nat.lt_of_lt_of_le hlt hstop)
  by_cases hend : finding.stop < (String.join (ribbon.spans.map Span.prose)).length
  · obtain ⟨closing, inside', hclosing⟩ := Span.exists_supplies hend
    have hinside' := hclosing.inside_lt
    rcases hopening.cases_of_lt hclosing hlt with
      ⟨before, after, hsplit, rfl, hfirst, hstop'⟩ | ⟨before, between, after, hsplit, hfirst, hstop'⟩
    · rw [touched_same hfull hopening hclosing hsplit]
      apply Span.slice_isInfix_join hsplit (by omega)
      simp only [List.map_append, String.join_append, String.length_append, List.map_cons, List.map_nil,
        String.join_cons, String.join_nil, String.length_empty]
      omega
    · rw [touched_between hfull hopening hclosing hsplit]
      split
      · have hwhole : ribbon.spans = before ++ (opening :: between ++ [closing]) ++ after := by
          simp [hsplit]
        apply Span.slice_isInfix_join hwhole (by omega)
        rw [← List.append_assoc, List.map_append, String.join_append, String.length_append]
        simp only [List.map_cons, List.map_nil, String.join_cons, String.join_nil, String.length_append]
        omega
      next hinto =>
        have hzero : inside' = 0 := by
          by_contra hpos
          have hmarkup : SegmentTag.isPlain closing.tag = false := by
            by_contra hplain
            exact hinto ⟨by simpa using hplain, by omega⟩
          have hle := hnot closing inside' hclosing hmarkup (by omega)
          have hinside := hopening.inside_lt
          rw [List.map_append, String.join_append, String.length_append, List.map_cons, String.join_cons,
            String.length_append] at hstop'
          omega
        rw [List.append_nil]
        exact Span.slice_isInfix_join hsplit (by omega) (by omega)
  · obtain ⟨before, between, hsplit, hfirst, -⟩ := id hopening
    rw [touched_rest hfull hopening (by omega) hsplit]
    have hwhole : ribbon.spans = before ++ (opening :: between) ++ [] := by rw [hsplit, List.append_nil]
    exact Span.slice_isInfix_join hwhole (by omega) (hsplit ▸ hstop)

end Finding

namespace Report
variable {τ : Type} [DecidableEq τ] [SegmentTag τ]

/-- A report quotes what its finding touches. -/
theorem exists_ofFinding {map : TagMap τ} {spans : List (Span τ)} (hspans : map.spans = .ok spans)
    (transcript : Transcript) (finding : Finding) :
    ∃ report, ofFinding map transcript finding = .ok report ∧
      report.excerpt = TagMap.proseOf (finding.touched transcript spans) := by
  rw [ofFinding, TagMap.proseIn, hspans]
  exact ⟨_, rfl, rfl⟩

end Report
end TexProse
