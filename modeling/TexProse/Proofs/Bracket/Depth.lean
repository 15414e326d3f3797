import TexProse.Bracket

/-!
# Depth of brackets

How many brackets of one kind are open behind a text, brackets of all other kinds counting as ordinary
characters. There is no depth behind a text that closes more than is open.
-/

namespace TexProse.Bracket

/-- How many brackets are open behind a text if `depth` are open before it. -/
def depthAfter (bracket : Bracket) : Nat → List Char → Option Nat
  | depth, [] => some depth
  | depth, c :: rest =>
    if c = bracket.closing then
      match depth with
      | 0 => none
      | depth + 1 => depthAfter bracket depth rest
    else if c = bracket.opening then depthAfter bracket (depth + 1) rest
    else depthAfter bracket depth rest

/-- No part at the start of the text closes more than it opens, and the whole closes what it opens. -/
def IsBalanced (bracket : Bracket) (text : List Char) : Prop := bracket.depthAfter 0 text = some 0

instance (bracket : Bracket) (text : List Char) : Decidable (bracket.IsBalanced text) :=
  inferInstanceAs (Decidable (_ = _))

variable {bracket : Bracket}

@[simp] theorem opening_ne_closing (bracket : Bracket) : bracket.opening ≠ bracket.closing := by
  cases bracket <;> decide

@[simp] theorem depthAfter_nil (depth : Nat) : bracket.depthAfter depth [] = some depth := rfl

theorem depthAfter_opening (depth : Nat) (rest : List Char) :
    bracket.depthAfter depth (bracket.opening :: rest) = bracket.depthAfter (depth + 1) rest := by
  conv => lhs; unfold depthAfter
  rw [if_neg (opening_ne_closing bracket), if_pos rfl]

theorem depthAfter_closing (depth : Nat) (rest : List Char) :
    bracket.depthAfter (depth + 1) (bracket.closing :: rest) = bracket.depthAfter depth rest := by
  conv => lhs; unfold depthAfter
  rw [if_pos rfl]

/-- There is no depth behind a bracket that closes where none is open. -/
theorem depthAfter_zero_closing (rest : List Char) :
    bracket.depthAfter 0 (bracket.closing :: rest) = none := by
  unfold depthAfter
  rw [if_pos rfl]

theorem depthAfter_cons {c : Char} (hopening : c ≠ bracket.opening) (hclosing : c ≠ bracket.closing)
    (depth : Nat) (rest : List Char) :
    bracket.depthAfter depth (c :: rest) = bracket.depthAfter depth rest := by
  conv => lhs; unfold depthAfter
  rw [if_neg hclosing, if_neg hopening]

theorem depthAfter_append (depth : Nat) (first second : List Char) :
    bracket.depthAfter depth (first ++ second) =
      (bracket.depthAfter depth first).bind fun middle => bracket.depthAfter middle second := by
  induction first generalizing depth with
  | nil => rfl
  | cons c rest ih =>
      simp only [List.cons_append, depthAfter]
      split
      · cases depth with
        | zero => rfl
        | succ depth => exact ih depth
      · split
        · exact ih (depth + 1)
        · exact ih depth

theorem depthAfter_concat {depth middle : Nat} {text : List Char} (c : Char)
    (h : bracket.depthAfter depth text = some middle) :
    bracket.depthAfter depth (text ++ [c]) = bracket.depthAfter middle [c] := by
  rw [depthAfter_append, h, Option.bind_some]

/-- Brackets that were open before a text stay open behind it. -/
theorem depthAfter_add {depth after : Nat} {text : List Char} (more : Nat)
    (h : bracket.depthAfter depth text = some after) :
    bracket.depthAfter (depth + more) text = some (after + more) := by
  induction text generalizing depth with
  | nil => simpa using h
  | cons c rest ih =>
      unfold depthAfter at h ⊢
      split at h
      next hclosing =>
        cases depth with
        | zero => cases h
        | succ depth =>
            rw [if_pos hclosing, Nat.add_right_comm]
            exact ih h
      next hclosing =>
        rw [if_neg hclosing]
        split at h
        next hopening =>
          rw [if_pos hopening, Nat.add_right_comm]
          exact ih h
        next hopening =>
          rw [if_neg hopening]
          exact ih h

theorem depthAfter_of_notMem {text : List Char} (depth : Nat) (hopening : bracket.opening ∉ text)
    (hclosing : bracket.closing ∉ text) : bracket.depthAfter depth text = some depth := by
  induction text with
  | nil => rfl
  | cons c rest ih =>
      simp only [List.mem_cons, not_or] at hopening hclosing
      rw [depthAfter_cons (Ne.symm hopening.1) (Ne.symm hclosing.1)]
      exact ih hopening.2 hclosing.2

/-- The parts at the start of a text are the empty one and those that share its first character. -/
theorem forall_prefix_cons {P : List Char → Prop} {c : Char} {rest : List Char} :
    (∀ before, before <+: c :: rest → P before) ↔
      P [] ∧ ∀ before, before <+: rest → P (c :: before) := by
  constructor
  · intro h
    exact ⟨h [] List.nil_prefix, fun before hb => h _ (List.cons_prefix_cons.mpr ⟨rfl, hb⟩)⟩
  · rintro ⟨hnil, hcons⟩ before hb
    cases before with
    | nil => exact hnil
    | cons first before =>
        obtain ⟨rfl, hrest⟩ := List.cons_prefix_cons.mp hb
        exact hcons before hrest

/-- The depth is what a text opens and does not close, where no part at its start closes more than is
open there. -/
theorem depthAfter_eq_some_iff {depth after : Nat} {text : List Char} :
    bracket.depthAfter depth text = some after ↔
      (∀ before, before <+: text →
        before.count bracket.closing ≤ depth + before.count bracket.opening) ∧
      after + text.count bracket.closing = depth + text.count bracket.opening := by
  have hne := opening_ne_closing bracket
  induction text generalizing depth with
  | nil => simp [eq_comm]
  | cons c rest ih =>
      rw [forall_prefix_cons]
      unfold depthAfter
      split
      next hclosing =>
        subst hclosing
        simp only [List.count_cons_self, List.count_cons_of_ne hne.symm, List.count_nil]
        cases depth with
        | zero =>
            constructor
            · intro h
              cases h
            · rintro ⟨⟨-, hparts⟩, -⟩
              have hfirst := hparts [] List.nil_prefix
              simp at hfirst
        | succ depth =>
            simp only [ih, Nat.add_right_comm depth 1, Nat.add_le_add_iff_right, ← Nat.add_assoc,
              Nat.add_right_cancel_iff, Nat.zero_le, true_and]
      next hclosing =>
        split
        next hopening =>
          subst hopening
          simp only [List.count_cons_self, List.count_cons_of_ne hne, ih, Nat.add_assoc, Nat.add_comm 1,
            List.count_nil, Nat.zero_le, true_and]
        next hopening =>
          simp only [List.count_cons_of_ne hclosing, List.count_cons_of_ne hopening, ih,
            List.count_nil, Nat.zero_le, true_and]

theorem isBalanced_iff {text : List Char} :
    bracket.IsBalanced text ↔
      (∀ before, before <+: text → before.count bracket.closing ≤ before.count bracket.opening) ∧
        text.count bracket.closing = text.count bracket.opening := by
  rw [IsBalanced, depthAfter_eq_some_iff]
  simp only [Nat.zero_add]

/-- A balanced text between two brackets that match, of whatever kind, leaves the depth. -/
theorem depthAfter_enclosed (other : Bracket) {inside : List Char}
    (hinside : ∀ depth, bracket.depthAfter depth inside = some depth) (depth : Nat) (rest : List Char) :
    bracket.depthAfter depth (other.opening :: (inside ++ other.closing :: rest)) =
      bracket.depthAfter depth rest := by
  by_cases hother : other = bracket
  · subst hother
    calc other.depthAfter depth (other.opening :: (inside ++ other.closing :: rest))
        = other.depthAfter (depth + 1) (inside ++ other.closing :: rest) := depthAfter_opening depth _
      _ = other.depthAfter (depth + 1) (other.closing :: rest) := by
          rw [depthAfter_append, hinside, Option.bind_some]
      _ = other.depthAfter depth rest := depthAfter_closing depth rest
  · have hne : other.opening ≠ bracket.opening ∧ other.opening ≠ bracket.closing ∧
        other.closing ≠ bracket.opening ∧ other.closing ≠ bracket.closing := by
      revert hother
      cases other <;> cases bracket <;> decide
    obtain ⟨hoo, hoc, hco, hcc⟩ := hne
    rw [depthAfter_cons hoo hoc, depthAfter_append, hinside, Option.bind_some, depthAfter_cons hco hcc]

theorem closing_inj {bracket bracket' : Bracket} (h : bracket.closing = bracket'.closing) :
    bracket = bracket' := by
  cases bracket <;> cases bracket' <;> simp_all [closing]

theorem length_le_of_isBalanced {before before' inside inside' : List Char}
    (hinside : bracket.IsBalanced inside) (hinside' : bracket.IsBalanced inside')
    (h : before ++ bracket.opening :: inside = before' ++ bracket.opening :: inside') :
    before.length ≤ before'.length := by
  rcases List.append_eq_append_iff.mp h with ⟨between, rfl, hrest⟩ | ⟨between, rfl, hrest⟩
  · simp
  · cases between with
    | nil => simp
    | cons c between =>
        have hsplit : inside' = between ++ bracket.opening :: inside := (List.cons.inj hrest).2
        -- behind the earlier bracket the later one is still open
        rw [IsBalanced, hsplit, depthAfter_append] at hinside'
        obtain ⟨depth, -, hopen⟩ := Option.bind_eq_some_iff.mp hinside'
        rw [depthAfter_opening] at hopen
        have hadd := depthAfter_add (depth + 1) hinside
        rw [Nat.zero_add, hopen] at hadd
        cases hadd

/-- Only one opening bracket before an offset has a balanced text behind it. -/
theorem eq_of_isBalanced {before before' inside inside' : List Char}
    (hinside : bracket.IsBalanced inside) (hinside' : bracket.IsBalanced inside')
    (h : before ++ bracket.opening :: inside = before' ++ bracket.opening :: inside') :
    inside = inside' := by
  have hlength := Nat.le_antisymm (length_le_of_isBalanced hinside hinside' h)
    (length_le_of_isBalanced hinside' hinside h.symm)
  exact (List.cons.inj (List.append_inj h hlength).2).2

/-- An argument of a command stands in curly or square brackets. -/
theorem eq_opening_of_ofArgument? {c : Char} (h : ofArgument? c = some bracket) :
    bracket ≠ angle ∧ c = bracket.opening := by
  unfold ofArgument? at h
  split at h <;> cases h <;> exact ⟨by decide, rfl⟩

theorem ofArgument?_opening (h : bracket ≠ angle) : ofArgument? bracket.opening = some bracket := by
  cases bracket with
  | curly => rfl
  | square => rfl
  | angle => exact absurd rfl h

end TexProse.Bracket
