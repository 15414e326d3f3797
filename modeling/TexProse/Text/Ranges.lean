/-!
# Classes of characters as ranges

A class of characters is a list of closed ranges of code points in ascending order.
`contains_eq_any` says that the early end of the search changes no answer on such a list.
-/

namespace TexProse

/-- Closed ranges of code points, the first and the last of each. -/
abbrev Ranges := List (Nat × Nat)

namespace Ranges

/-- Whether one of the ranges holds the code point. The ranges ascend, so the search ends at the
first that starts behind it. -/
def contains : Ranges → Nat → Bool
  | [], _ => false
  | (first, last) :: rest, n => if n < first then false else n ≤ last || contains rest n

/-- No range is empty, and each starts behind the end of the one before it. -/
def isAscending : Ranges → Bool
  | [] => true
  | [range] => range.1 ≤ range.2
  | range :: next :: rest =>
    range.1 ≤ range.2 && range.2 < next.1 && isAscending (next :: rest)

theorem isAscending_tail {range : Nat × Nat} {rest : Ranges}
    (h : isAscending (range :: rest)) : isAscending rest := by
  cases rest with
  | nil => rfl
  | cons next rest =>
    simp only [isAscending, Bool.and_eq_true] at h
    exact h.2

/-- In an ascending list all later ranges start behind the first one. -/
theorem lt_of_isAscending {range : Nat × Nat} {rest : Ranges}
    (h : isAscending (range :: rest)) : ∀ later ∈ rest, range.1 < later.1 := by
  induction rest generalizing range with
  | nil => intro later hlater; cases hlater
  | cons next rest ih =>
    have hnext : range.1 < next.1 := by
      simp only [isAscending, Bool.and_eq_true, decide_eq_true_eq] at h
      omega
    intro later hlater
    rcases List.mem_cons.1 hlater with rfl | hlater
    · exact hnext
    · exact Nat.lt_trans hnext (ih (isAscending_tail h) later hlater)

theorem contains_eq_any {ranges : Ranges} (h : ranges.isAscending) (n : Nat) :
    ranges.contains n = ranges.any fun range => range.1 ≤ n && n ≤ range.2 := by
  induction ranges with
  | nil => rfl
  | cons range rest ih =>
    by_cases hn : n < range.1
    · have hrest : (rest.any fun later => later.1 ≤ n && n ≤ later.2) = false := by
        rw [List.any_eq_false]
        intro later hlater
        have hlt : range.1 < later.1 := lt_of_isAscending h later hlater
        have hfar : ¬ later.1 ≤ n := by omega
        simp [hfar]
      simp [contains, hn, hrest, Nat.not_le.2 hn]
    · simp [contains, hn, ih (isAscending_tail h), Nat.not_lt.1 hn]

end Ranges

end TexProse
