import TexProse.Proofs.Bracket.Nesting
import Mathlib.Data.List.Basic

/-!
# Groups of a text

A text may open brackets that it never closes, and close some that it never opened. What it closes where
none else is open are its outermost groups. A balanced text is nested deeper than a limit exactly if one of
its outermost groups is.
-/

namespace TexProse.Bracket
variable {bracket : Bracket} {text group : List Char}

/-- A part of the text between two brackets that match, where no bracket is open before it. -/
def IsOutermost (bracket : Bracket) (text group : List Char) : Prop :=
  ∃ before inside after, text = before ++ (group ++ after) ∧
    group = bracket.opening :: (inside ++ [bracket.closing]) ∧
    openDepth [bracket] before = 0 ∧ bracket.IsBalanced inside

theorem openDepth_append (kinds : List Bracket) (first second : List Char) :
    openDepth kinds (first ++ second) = second.foldl (level kinds) (openDepth kinds first) :=
  List.foldl_append

/-- A bracket that closes where none is open counts for nothing. -/
theorem level_zero {c : Char} (h : c ≠ bracket.opening) : level [bracket] 0 c = 0 := by
  rcases kind_cases [bracket] c with ⟨other, hmem, rfl⟩ | ⟨other, hmem, rfl⟩ | hother
  · exact absurd (congrArg opening (List.mem_singleton.mp hmem)) h
  · exact level_closing hmem 0
  · exact level_other hother 0

/-- The depth where no bracket closes more than is open. -/
theorem foldl_level {depth depth' : Nat} (h : bracket.depthAfter depth text = some depth') :
    text.foldl (level [bracket]) depth = depth' := by
  have hmem : bracket ∈ [bracket] := List.mem_singleton_self bracket
  induction text generalizing depth with
  | nil => exact Option.some.inj h
  | cons c rest ih =>
      rw [List.foldl_cons]
      rcases kind_cases [bracket] c with ⟨other, hother, rfl⟩ | ⟨other, hother, rfl⟩ | hother
      · obtain rfl := List.mem_singleton.mp hother
        rw [depthAfter_opening] at h
        rw [level_opening hmem, ih h]
      · obtain rfl := List.mem_singleton.mp hother
        cases depth with
        | zero =>
            rw [depthAfter_zero_closing] at h
            cases h
        | succ depth =>
            rw [depthAfter_closing] at h
            rw [level_closing hmem]
            exact ih h
      · obtain ⟨hopening, hclosing⟩ := ne_of_kind? hother hmem
        rw [depthAfter_cons hopening hclosing] at h
        rw [level_other hother, ih h]

theorem openDepth_of_isBalanced (h : bracket.IsBalanced text) : openDepth [bracket] text = 0 :=
  foldl_level h

/-- Behind an outermost bracket the text inside it counts as if it began there. -/
theorem openDepth_opening {before inside : List Char} {depth : Nat}
    (hbefore : openDepth [bracket] before = 0) (hinside : bracket.depthAfter 0 inside = some depth) :
    openDepth [bracket] (before ++ bracket.opening :: inside) = depth + 1 := by
  have hadd := depthAfter_add 1 hinside
  rw [openDepth_append, hbefore, List.foldl_cons, level_opening (List.mem_singleton_self bracket)]
  exact foldl_level hadd

theorem nesting_group {inside : List Char} (h : bracket.IsBalanced inside) :
    nesting [bracket] (bracket.opening :: (inside ++ [bracket.closing])) =
      nesting [bracket] inside + 1 := by
  have hmem : bracket ∈ [bracket] := List.mem_singleton_self bracket
  have hnested : IsNested [bracket] inside := isNested_single.mpr h
  have hclosing : level [bracket] (0 + 1) bracket.closing = 0 := level_closing hmem _
  rw [nesting, peak, level_opening hmem, peak_append, (hnested.levels _).1, (hnested.levels _).2, peak,
    peak, hclosing]
  omega

namespace IsOutermost

/-- A longer text has the groups of a shorter one, and those that its last character closes. -/
theorem of_concat {c : Char} (h : bracket.IsOutermost (text ++ [c]) group) :
    bracket.IsOutermost text group ∨
      ∃ before inside, c = bracket.closing ∧ text = before ++ bracket.opening :: inside ∧
        openDepth [bracket] before = 0 ∧ bracket.IsBalanced inside ∧
        group = bracket.opening :: (inside ++ [bracket.closing]) := by
  obtain ⟨before, inside, after, htext, hgroup, hbefore, hinside⟩ := h
  rcases List.eq_nil_or_concat' after with rfl | ⟨initial, last, rfl⟩
  · right
    rw [List.append_nil, hgroup, ← List.cons_append, ← List.append_assoc] at htext
    obtain ⟨hread, hlast⟩ := List.append_inj' htext rfl
    exact ⟨before, inside, (List.cons.inj hlast).1, hread, hbefore, hinside, hgroup⟩
  · left
    rw [← List.append_assoc, ← List.append_assoc] at htext
    obtain ⟨hread, -⟩ := List.append_inj' htext rfl
    exact ⟨before, inside, initial, hread.trans (List.append_assoc _ _ _), hgroup, hbefore, hinside⟩

theorem nesting_le (h : bracket.IsOutermost text group) :
    nesting [bracket] group ≤ nesting [bracket] text := by
  obtain ⟨before, inside, after, rfl, -, hbefore, -⟩ := h
  have hstart : before.foldl (level [bracket]) 0 = 0 := hbefore
  rw [nesting, nesting, peak_append, hstart, peak_append]
  omega

/-- A text behind one that leaves no bracket open has its groups in the longer text, too. -/
theorem append_left {before : List Char} (h : bracket.IsOutermost text group)
    (hbefore : openDepth [bracket] before = 0) : bracket.IsOutermost (before ++ text) group := by
  obtain ⟨first, inside, after, rfl, hgroup, hfirst, hinside⟩ := h
  refine ⟨before ++ first, inside, after, (List.append_assoc _ _ _).symm, hgroup, ?_, hinside⟩
  rw [openDepth_append, hbefore]
  exact hfirst

end IsOutermost

/-- A nested text is as deep as its deepest group. -/
theorem exists_isOutermost {limit : Nat} (h : IsNested [bracket] text)
    (hdeep : limit < nesting [bracket] text) :
    ∃ group, bracket.IsOutermost text group ∧ limit < nesting [bracket] group := by
  induction text, h using IsNested.induction with
  | nil => exact absurd hdeep (Nat.not_lt_zero limit)
  | other c rest hother hrest ih =>
      have hlevel := level_other hother 0
      rw [nesting, peak, hlevel, Nat.zero_max] at hdeep
      obtain ⟨group, hgroup, hlimit⟩ := ih hdeep
      exact ⟨group, @IsOutermost.append_left bracket rest group [c] hgroup hlevel, hlimit⟩
  | enclosed other inside after h hmem hinside hafter ihinside ihafter =>
      obtain rfl : other = bracket := List.mem_singleton.mp hmem
      have hbalanced := isNested_single.mp hinside
      have hsplit : other.opening :: (inside ++ other.closing :: after) =
          other.opening :: (inside ++ [other.closing]) ++ after := by simp
      have hfold : (other.opening :: (inside ++ [other.closing])).foldl (level [other]) 0 = 0 := by
        apply foldl_level
        exact depthAfter_enclosed other (hinside.depthAfter hmem) 0 []
      rw [hsplit] at hdeep ⊢
      have hmax : nesting [other] (other.opening :: (inside ++ [other.closing]) ++ after) =
          max (nesting [other] (other.opening :: (inside ++ [other.closing]))) (nesting [other] after) := by
        rw [nesting, peak_append, hfold]
        rfl
      have hdeeper : limit < nesting [other] (other.opening :: (inside ++ [other.closing])) ∨
          limit < nesting [other] after := by omega
      rcases hdeeper with hgroup | hlater
      · exact ⟨_, ⟨[], inside, after, rfl, rfl, rfl, hbalanced⟩, hgroup⟩
      · obtain ⟨group, hgroup, hlimit⟩ := ihafter hlater
        exact ⟨group, hgroup.append_left hfold, hlimit⟩

end TexProse.Bracket
