import TexProse.Proofs.Bracket.Depth

/-!
# Nesting of brackets

Brackets of several kinds nest if each closes the one that was opened last. `openAfter` keeps those that
are open, and `exists_closing` cuts a text at the bracket that closes one of them. How deep a text is
nested is the greatest number of brackets that are open at once; a bracket that closes where none is open
counts for nothing there, so the number is defined for every text.
-/

namespace TexProse.Bracket

/-- The kind of bracket that a character opens or closes, if it is one of the given kinds. -/
def kind? (kinds : List Bracket) (c : Char) : Option Bracket := (of? c).filter (· ∈ kinds)

/-- The brackets that are open behind a text if `opened` are before it, the last one first. There are
none if a bracket closes that was not opened last. -/
def openAfter (kinds : List Bracket) : List Bracket → List Char → Option (List Bracket)
  | opened, [] => some opened
  | opened, c :: rest =>
    match kind? kinds c with
    | none => openAfter kinds opened rest
    | some bracket =>
      if c = bracket.opening then openAfter kinds (bracket :: opened) rest
      else if opened.head? = some bracket then openAfter kinds opened.tail rest
      else none

/-- Every bracket is closed, and before any that was opened earlier. -/
def IsNested (kinds : List Bracket) (text : List Char) : Prop := openAfter kinds [] text = some []

instance (kinds : List Bracket) (text : List Char) : Decidable (IsNested kinds text) :=
  inferInstanceAs (Decidable (_ = _))

/-- The number of open brackets behind a character. -/
def level (kinds : List Bracket) (depth : Nat) (c : Char) : Nat :=
  match kind? kinds c with
  | none => depth
  | some bracket => if c = bracket.opening then depth + 1 else depth - 1

/-- The number of open brackets behind a text. -/
def openDepth (kinds : List Bracket) (text : List Char) : Nat := text.foldl (level kinds) 0

/-- The greatest number of open brackets along a text with `depth` open before it. -/
def peak (kinds : List Bracket) : Nat → List Char → Nat
  | depth, [] => depth
  | depth, c :: rest => max depth (peak kinds (level kinds depth c) rest)

/-- How deep brackets are nested in a text. -/
def nesting (kinds : List Bracket) (text : List Char) : Nat := peak kinds 0 text

variable {kinds : List Bracket} {bracket : Bracket} {opened left : List Bracket} {text rest : List Char}

section Kind

@[simp] theorem of?_opening (bracket : Bracket) : of? bracket.opening = some bracket := by
  cases bracket <;> rfl

@[simp] theorem of?_closing (bracket : Bracket) : of? bracket.closing = some bracket := by
  cases bracket <;> rfl

theorem eq_of_of? {c : Char} (h : of? c = some bracket) : c = bracket.opening ∨ c = bracket.closing := by
  unfold of? at h
  split at h <;> cases h <;> simp [opening, closing]

theorem kind?_opening (h : bracket ∈ kinds) : kind? kinds bracket.opening = some bracket := by
  simp [kind?, Option.filter, h]

theorem kind?_closing (h : bracket ∈ kinds) : kind? kinds bracket.closing = some bracket := by
  simp [kind?, Option.filter, h]

/-- A character opens or closes a bracket of the kinds, or is none of them. -/
theorem kind_cases (kinds : List Bracket) (c : Char) :
    (∃ bracket ∈ kinds, c = bracket.opening) ∨ (∃ bracket ∈ kinds, c = bracket.closing) ∨
      kind? kinds c = none := by
  cases hkind : kind? kinds c with
  | none => exact .inr (.inr rfl)
  | some bracket =>
      obtain ⟨hof, hmem⟩ := Option.filter_eq_some_iff.mp hkind
      replace hmem : bracket ∈ kinds := of_decide_eq_true hmem
      rcases eq_of_of? hof with hopening | hclosing
      · exact .inl ⟨bracket, hmem, hopening⟩
      · exact .inr (.inl ⟨bracket, hmem, hclosing⟩)

theorem ne_of_kind? {c : Char} (h : kind? kinds c = none) (hmem : bracket ∈ kinds) :
    c ≠ bracket.opening ∧ c ≠ bracket.closing := by
  constructor
  · rintro rfl
    cases h.symm.trans (kind?_opening hmem)
  · rintro rfl
    cases h.symm.trans (kind?_closing hmem)

end Kind

section Open

theorem openAfter_opening (h : bracket ∈ kinds) (opened : List Bracket) (rest : List Char) :
    openAfter kinds opened (bracket.opening :: rest) = openAfter kinds (bracket :: opened) rest := by
  rw [openAfter, kind?_opening h]
  exact if_pos rfl

theorem openAfter_closing (h : bracket ∈ kinds) (opened : List Bracket) (rest : List Char) :
    openAfter kinds opened (bracket.closing :: rest) =
      if opened.head? = some bracket then openAfter kinds opened.tail rest else none := by
  rw [openAfter, kind?_closing h]
  exact if_neg (Ne.symm (opening_ne_closing bracket))

theorem openAfter_other {c : Char} (h : kind? kinds c = none) (opened : List Bracket)
    (rest : List Char) : openAfter kinds opened (c :: rest) = openAfter kinds opened rest := by
  rw [openAfter, h]

theorem openAfter_append (opened : List Bracket) (first second : List Char) :
    openAfter kinds opened (first ++ second) =
      (openAfter kinds opened first).bind fun middle => openAfter kinds middle second := by
  induction first generalizing opened with
  | nil => rfl
  | cons c first ih =>
      rw [List.cons_append, openAfter, openAfter]
      split
      · exact ih opened
      · split
        · exact ih _
        · split
          · exact ih _
          · rfl

/-- A bracket that is not open any more behind a text is closed in it, and so are those above it. -/
theorem exists_closing {above : List Bracket}
    (h : openAfter kinds (above ++ bracket :: opened) text = some left)
    (hleft : left.length ≤ opened.length) :
    ∃ inside after, text = inside ++ bracket.closing :: after ∧
      openAfter kinds above inside = some [] ∧ openAfter kinds opened after = some left := by
  induction text generalizing above with
  | nil =>
      have hlength := congrArg List.length (Option.some.inj h)
      simp only [List.length_append, List.length_cons] at hlength
      omega
  | cons c rest ih =>
      rcases kind_cases kinds c with ⟨other, hmem, rfl⟩ | ⟨other, hmem, rfl⟩ | hother
      · rw [openAfter_opening hmem, ← List.cons_append] at h
        obtain ⟨inside, after, rfl, hinside, hafter⟩ := ih h
        exact ⟨_ :: inside, after, rfl, (openAfter_opening hmem _ _).trans hinside, hafter⟩
      · rw [openAfter_closing hmem] at h
        cases above with
        | nil =>
            -- this is the bracket itself
            rw [List.nil_append, List.head?_cons, List.tail_cons] at h
            split at h
            next heq =>
              obtain rfl : bracket = other := Option.some.inj heq
              exact ⟨[], rest, rfl, rfl, h⟩
            next => cases h
        | cons top above =>
            rw [List.cons_append, List.head?_cons, List.tail_cons] at h
            split at h
            next heq =>
              obtain ⟨inside, after, rfl, hinside, hafter⟩ := ih h
              refine ⟨_ :: inside, after, rfl, ?_, hafter⟩
              rw [openAfter_closing hmem, List.head?_cons, if_pos heq]
              exact hinside
            next => cases h
      · rw [openAfter_other hother] at h
        obtain ⟨inside, after, rfl, hinside, hafter⟩ := ih h
        exact ⟨_ :: inside, after, rfl, (openAfter_other hother _ _).trans hinside, hafter⟩

end Open

namespace IsNested

theorem nil : IsNested kinds [] := rfl

/-- The bracket that closes an open one, wherever that stands. -/
theorem exists_closing {before : List Char} (h : IsNested kinds (before ++ bracket.opening :: rest))
    (hmem : bracket ∈ kinds) :
    ∃ opened inside after, rest = inside ++ bracket.closing :: after ∧ IsNested kinds inside ∧
      openAfter kinds [] before = some opened ∧ openAfter kinds opened after = some [] := by
  rw [IsNested, openAfter_append] at h
  obtain ⟨opened, hbefore, hrest⟩ := Option.bind_eq_some_iff.mp h
  rw [openAfter_opening hmem] at hrest
  obtain ⟨inside, after, hsplit, hinside, hafter⟩ :=
    @Bracket.exists_closing kinds bracket opened [] rest [] hrest (Nat.zero_le _)
  exact ⟨opened, inside, after, hsplit, hinside, hbefore, hafter⟩

/-- Nested brackets are pairs of brackets with nested brackets between them, one pair after the other. -/
theorem induction {motive : ∀ text : List Char, IsNested kinds text → Prop} (nil : motive [] nil)
    (other : ∀ c rest (hother : kind? kinds c = none) (hrest : IsNested kinds rest), motive rest hrest →
      motive (c :: rest) ((openAfter_other hother [] rest).trans hrest))
    (enclosed : ∀ bracket inside after
      (h : IsNested kinds (bracket.opening :: (inside ++ bracket.closing :: after)))
      (_ : bracket ∈ kinds) (hinside : IsNested kinds inside) (hafter : IsNested kinds after),
      motive inside hinside → motive after hafter → motive _ h)
    (text : List Char) (h : IsNested kinds text) : motive text h := by
  cases text with
  | nil => exact nil
  | cons c rest =>
      rcases kind_cases kinds c with ⟨bracket, hmem, rfl⟩ | ⟨bracket, hmem, rfl⟩ | hother
      · obtain ⟨opened, inside, after, rfl, hinside, hopened, hafter⟩ :=
          @exists_closing kinds bracket rest [] h hmem
        obtain rfl : [] = opened := Option.some.inj hopened
        exact enclosed bracket inside after h hmem hinside hafter
          (induction nil other enclosed inside hinside) (induction nil other enclosed after hafter)
      · rw [IsNested, openAfter_closing hmem] at h
        cases h
      · have hrest : IsNested kinds rest := (openAfter_other hother [] rest).symm.trans h
        exact other c rest hother hrest (induction nil other enclosed rest hrest)
termination_by text.length
decreasing_by
  all_goals subst_vars; simp only [List.length_cons, List.length_append]; omega

/-- Brackets that nest together leave the depth of each kind. -/
theorem depthAfter (h : IsNested kinds text) (hmem : bracket ∈ kinds) (depth : Nat) :
    bracket.depthAfter depth text = some depth := by
  induction text, h using IsNested.induction generalizing depth with
  | nil => rfl
  | other c rest hother hrest ih =>
      obtain ⟨hopening, hclosing⟩ := ne_of_kind? hother hmem
      rw [depthAfter_cons hopening hclosing, ih]
  | enclosed other inside after h hother hinside hafter ihinside ihafter =>
      rw [depthAfter_enclosed other ihinside, ihafter]

end IsNested

section Level

theorem level_opening (h : bracket ∈ kinds) (depth : Nat) :
    level kinds depth bracket.opening = depth + 1 := by
  rw [level, kind?_opening h]
  exact if_pos rfl

theorem level_closing (h : bracket ∈ kinds) (depth : Nat) :
    level kinds depth bracket.closing = depth - 1 := by
  rw [level, kind?_closing h]
  exact if_neg (Ne.symm (opening_ne_closing bracket))

theorem level_other {c : Char} (h : kind? kinds c = none) (depth : Nat) :
    level kinds depth c = depth := by
  rw [level, h]

theorem le_peak (depth : Nat) (text : List Char) : depth ≤ peak kinds depth text := by
  cases text with
  | nil => exact Nat.le_refl depth
  | cons c rest => exact Nat.le_max_left _ _

theorem peak_append (depth : Nat) (first second : List Char) :
    peak kinds depth (first ++ second) =
      max (peak kinds depth first) (peak kinds (first.foldl (level kinds) depth) second) := by
  induction first generalizing depth with
  | nil => exact (Nat.max_eq_right (le_peak depth second)).symm
  | cons c first ih => rw [List.cons_append, peak, ih, peak, List.foldl_cons, Nat.max_assoc]

/-- A nested text between two brackets adds one level to what it has itself. -/
theorem IsNested.levels (h : IsNested kinds text) (depth : Nat) :
    text.foldl (level kinds) depth = depth ∧ peak kinds depth text = depth + nesting kinds text := by
  induction text, h using IsNested.induction generalizing depth with
  | nil => exact ⟨rfl, rfl⟩
  | other c rest hother hrest ih =>
      have hlevel := level_other hother
      obtain ⟨hfold, hpeak⟩ := ih depth
      constructor
      · rw [List.foldl_cons, hlevel, hfold]
      · rw [nesting, peak, peak, hlevel, hlevel, hpeak, ← nesting]
        omega
  | enclosed bracket inside after h hmem hinside hafter ihinside ihafter =>
      have hclosing : level kinds (depth + 1) bracket.closing = depth := level_closing hmem _
      have hzero : level kinds (0 + 1) bracket.closing = 0 := level_closing hmem _
      constructor
      · rw [List.foldl_cons, List.foldl_append, List.foldl_cons, level_opening hmem,
          (ihinside _).1, hclosing, (ihafter _).1]
      · rw [nesting, peak, peak, level_opening hmem, level_opening hmem, peak_append, peak_append,
          (ihinside _).1, (ihinside _).1, (ihinside _).2, (ihinside _).2, peak, peak, hclosing, hzero,
          (ihafter _).2, (ihafter 0).2]
        omega

/-- Between two brackets a text is nested less deep by one level at least. -/
theorem nesting_lt {before inside after : List Char} (hmem : bracket ∈ kinds)
    (hinside : IsNested kinds inside) :
    nesting kinds inside < nesting kinds (before ++ bracket.opening :: (inside ++ after)) := by
  have houter (depth : Nat) :
      depth + 1 + nesting kinds inside ≤ peak kinds depth (bracket.opening :: (inside ++ after)) := by
    rw [peak, level_opening hmem, peak_append, (hinside.levels _).2]
    omega
  have hlater := houter (before.foldl (level kinds) 0)
  rw [nesting.eq_def kinds (_ ++ _), peak_append]
  omega

end Level

/-- A balanced text goes on behind a balanced part only with what does not close more. -/
theorem eq_nil_of_append_closing {inside between after after' : List Char} (hinside : bracket.IsBalanced inside)
    (hlonger : bracket.IsBalanced (inside ++ between))
    (h : bracket.closing :: after = between ++ bracket.closing :: after') : between = [] := by
  cases between with
  | nil => rfl
  | cons c between =>
      obtain ⟨rfl, -⟩ := List.cons.inj h
      rw [IsBalanced, depthAfter_append, hinside, Option.bind_some, depthAfter_zero_closing] at hlonger
      cases hlonger

/-- What brackets of one kind enclose ends at the first bracket that closes more than was opened. -/
theorem eq_of_append_closing {inside inside' after after' : List Char}
    (hinside : bracket.IsBalanced inside) (hinside' : bracket.IsBalanced inside')
    (h : inside ++ bracket.closing :: after = inside' ++ bracket.closing :: after') :
    inside = inside' := by
  rcases List.append_eq_append_iff.mp h with ⟨between, rfl, hrest⟩ | ⟨between, rfl, hrest⟩
  · rw [eq_nil_of_append_closing hinside hinside' hrest, List.append_nil]
  · rw [eq_nil_of_append_closing hinside' hinside hrest, List.append_nil]

namespace IsNested

/-- Behind nested brackets none is open. -/
theorem depthAfter_of_open {before : List Char} (h : IsNested kinds (before ++ bracket.opening :: rest))
    (hmem : bracket ∈ kinds) : bracket.depthAfter 0 rest = none := by
  obtain ⟨-, inside, after, rfl, hinside, -, -⟩ := h.exists_closing hmem
  rw [depthAfter_append, hinside.depthAfter hmem, Option.bind_some, depthAfter_zero_closing]

/-- What two brackets that match enclose is nested itself, and less deep. -/
theorem inner {before inside after : List Char}
    (h : IsNested kinds (before ++ bracket.opening :: (inside ++ bracket.closing :: after)))
    (hmem : bracket ∈ kinds) (hinside : bracket.IsBalanced inside) :
    IsNested kinds inside ∧
      nesting kinds inside <
        nesting kinds (before ++ bracket.opening :: (inside ++ bracket.closing :: after)) := by
  obtain ⟨-, inside', after', hsplit, hnested, -, -⟩ := h.exists_closing hmem
  obtain rfl := eq_of_append_closing hinside (hnested.depthAfter hmem 0) hsplit
  exact ⟨hnested, nesting_lt hmem hnested⟩

end IsNested

/-- For brackets of one kind, to nest is to be balanced. -/
theorem openAfter_single (depth : Nat) (text : List Char) :
    openAfter [bracket] (List.replicate depth bracket) text =
      (bracket.depthAfter depth text).map (List.replicate · bracket) := by
  have hmem : bracket ∈ [bracket] := List.mem_singleton_self bracket
  induction text generalizing depth with
  | nil => rfl
  | cons c rest ih =>
      rcases kind_cases [bracket] c with ⟨other, hother, rfl⟩ | ⟨other, hother, rfl⟩ | hother
      · obtain rfl := List.mem_singleton.mp hother
        rw [openAfter_opening hmem, ← List.replicate_succ, ih, depthAfter_opening]
      · obtain rfl := List.mem_singleton.mp hother
        rw [openAfter_closing hmem]
        cases depth with
        | zero =>
            rw [depthAfter_zero_closing]
            rfl
        | succ depth =>
            rw [List.replicate_succ, List.head?_cons, if_pos rfl, List.tail_cons, ih, depthAfter_closing]
      · obtain ⟨hopening, hclosing⟩ := ne_of_kind? hother hmem
        rw [openAfter_other hother, ih, depthAfter_cons hopening hclosing]

theorem isNested_single : IsNested [bracket] text ↔ bracket.IsBalanced text := by
  have h := @openAfter_single bracket 0 text
  rw [IsNested, IsBalanced]
  rw [List.replicate_zero] at h
  rw [h]
  cases bracket.depthAfter 0 text with
  | none => simp
  | some depth => simp

end TexProse.Bracket
