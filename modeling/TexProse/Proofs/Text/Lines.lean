import TexProse.Source
import Mathlib.Data.Finset.Lattice.Fold
import Mathlib.Data.Finset.Prod
import Mathlib.Data.Prod.Lex
import Mathlib.Order.Lattice.Nat

/-!
# Lines and columns

A line break is a carriage return together with the line feed behind it, or one of the two alone. The offsets
where lines start are collected in one walk over the text; here they are compared with the breaks that stand
in it, each seen for itself with its neighbours. Main statement: `positions_of_breaks`, the exact line and
column of every offset.
-/

namespace TexProse

/-- The walk over a text goes from left to right. -/
theorem pairwise_lineStartsAfter (offset : Nat) (rest : List Char) :
    (offset :: lineStartsAfter offset rest).Pairwise (· < ·) := by
  fun_induction lineStartsAfter offset rest with
  | case1 offset => exact List.pairwise_singleton _ _
  | case2 offset rest ih => exact ih.cons_cons_of_trans (Nat.lt_add_of_pos_right Nat.two_pos)
  | case3 offset c rest hpair hbreak ih => exact ih.cons_cons_of_trans (Nat.lt_succ_self offset)
  | case4 offset c rest hpair hbreak ih =>
      have hall := ih.cons_cons_of_trans (Nat.lt_succ_self offset)
      exact hall.sublist ((List.sublist_cons_self _ _).cons_cons offset)

theorem takeWhile_le_eq_filter {offset : Nat} {starts : List Nat} (h : starts.Pairwise (· < ·)) :
    starts.takeWhile (· ≤ offset) = starts.filter (· ≤ offset) := by
  induction starts with
  | nil => rfl
  | cons first rest ih =>
      obtain ⟨hfirst, hrest⟩ := List.pairwise_cons.mp h
      rw [List.takeWhile_cons, List.filter_cons, ih hrest]
      split
      · rfl
      next hbehind =>
        symm
        apply List.filter_eq_nil_iff.mpr
        intro later hlater
        have hlt := hfirst later hlater
        simp only [decide_eq_true_eq] at hbehind ⊢
        omega

/-- The last of ascending numbers is the greatest one. -/
theorem sup_toFinset_of_pairwise {starts : List Nat} (h : starts.Pairwise (· < ·)) :
    starts.toFinset.sup id = starts.getLastD 0 := by
  rcases List.eq_nil_or_concat' starts with rfl | ⟨before, last, rfl⟩
  · rfl
  · obtain ⟨-, -, hbefore⟩ := List.pairwise_append.mp h
    rw [List.getLastD_concat]
    apply Nat.le_antisymm
    · apply Finset.sup_le
      intro start hstart
      rcases List.mem_append.mp (List.mem_toFinset.mp hstart) with hstart | hstart
      · exact Nat.le_of_lt (hbefore start hstart last List.mem_cons_self)
      · exact Nat.le_of_eq (List.mem_singleton.mp hstart)
    · exact Finset.le_sup (f := id) (by simp)

/-- A prefix tells its last element by its length. -/
theorem getElem?_length_of_isPrefix {α : Type} {first : α} {front whole : List α} (h : front <+: whole) :
    (first :: whole)[front.length]? = some (front.getLastD first) := by
  obtain ⟨back, rfl⟩ := h
  rcases List.eq_nil_or_concat' front with rfl | ⟨before, last, rfl⟩
  · rfl
  · simp

namespace Source
variable {source : Source} {start stop offset : Nat}

/-- A line break with both ends. -/
inductive IsBreak (source : Source) : Nat → Nat → Prop
  /-- A carriage return and the line feed behind it. -/
  | pair {start : Nat} (hreturn : source.char? start = some '\r')
      (hfeed : source.char? (start + 1) = some '\n') : IsBreak source start (start + 2)
  | carriageReturn {start : Nat} (hreturn : source.char? start = some '\r')
      (hnext : Cursor.next? ⟨source, start⟩ ≠ some '\n') : IsBreak source start (start + 1)
  | lineFeed {start : Nat} (hfeed : source.char? start = some '\n')
      (hprevious : Cursor.previous? ⟨source, start⟩ ≠ some '\r') : IsBreak source start (start + 1)

theorem isBreak_iff : source.IsBreak start stop ↔
    source.char? start = some '\r' ∧ source.char? (start + 1) = some '\n' ∧ stop = start + 2 ∨
    source.char? start = some '\r' ∧ Cursor.next? ⟨source, start⟩ ≠ some '\n' ∧ stop = start + 1 ∨
    source.char? start = some '\n' ∧ Cursor.previous? ⟨source, start⟩ ≠ some '\r' ∧ stop = start + 1 := by
  constructor
  · rintro (⟨hreturn, hfeed⟩ | ⟨hreturn, hnext⟩ | ⟨hfeed, hprevious⟩)
    · exact .inl ⟨hreturn, hfeed, rfl⟩
    · exact .inr (.inl ⟨hreturn, hnext, rfl⟩)
    · exact .inr (.inr ⟨hfeed, hprevious, rfl⟩)
  · rintro (⟨hreturn, hfeed, rfl⟩ | ⟨hreturn, hnext, rfl⟩ | ⟨hfeed, hprevious, rfl⟩)
    · exact .pair hreturn hfeed
    · exact .carriageReturn hreturn hnext
    · exact .lineFeed hfeed hprevious

instance (source : Source) (start stop : Nat) : Decidable (source.IsBreak start stop) :=
  decidable_of_iff _ isBreak_iff.symm

namespace IsBreak

theorem start_lt_length (h : source.IsBreak start stop) : start < source.length := by
  cases h with
  | pair hreturn hfeed => exact lt_length_of_char? hreturn
  | carriageReturn hreturn hnext => exact lt_length_of_char? hreturn
  | lineFeed hfeed hprevious => exact lt_length_of_char? hfeed

theorem stop_le_length (h : source.IsBreak start stop) : stop ≤ source.length := by
  have hstart := h.start_lt_length
  cases h with
  | pair hreturn hfeed => exact lt_length_of_char? hfeed
  | carriageReturn hreturn hnext => exact hstart
  | lineFeed hfeed hprevious => exact hstart

/-- No two breaks end at one place. -/
theorem start_eq {start' : Nat} (h : source.IsBreak start stop) (h' : source.IsBreak start' stop) :
    start = start' := by
  cases h with
  | pair hreturn hfeed =>
      cases h' with
      | pair hreturn' hfeed' => rfl
      | carriageReturn hreturn' hnext' => simp [hfeed] at hreturn'
      | lineFeed hfeed' hprevious' => exact absurd hreturn hprevious'
  | carriageReturn hreturn hnext =>
      cases h' with
      | pair hreturn' hfeed' => simp [hreturn] at hfeed'
      | carriageReturn hreturn' hnext' => rfl
      | lineFeed hfeed' hprevious' => rfl
  | lineFeed hfeed hprevious =>
      cases h' with
      | pair hreturn' hfeed' => exact absurd hreturn' hprevious
      | carriageReturn hreturn' hnext' => rfl
      | lineFeed hfeed' hprevious' => rfl

end IsBreak

/-- The line breaks of a text. -/
def breaks (source : Source) : Finset (Nat × Nat) :=
  (Finset.range source.length ×ˢ Finset.range (source.length + 1)).filter fun (start, stop) =>
    source.IsBreak start stop

@[simp] theorem mem_breaks : (start, stop) ∈ source.breaks ↔ source.IsBreak start stop := by
  simp only [breaks, Finset.mem_filter, Finset.mem_product, Finset.mem_range, and_iff_right_iff_imp]
  intro h
  exact ⟨h.start_lt_length, Nat.lt_succ_of_le h.stop_le_length⟩

/-- The line breaks that end at or before an offset. -/
def breaksTo (source : Source) (offset : Nat) : Finset (Nat × Nat) :=
  source.breaks.filter fun (_, stop) => stop ≤ offset

theorem isBreak_of_pair (hreturn : source.char? start = some '\r')
    (hfeed : source.char? (start + 1) = some '\n') : source.IsBreak start stop ↔ stop = start + 2 := by
  have hnext : Cursor.next? ⟨source, start⟩ = some '\n' := hfeed
  simp [isBreak_iff, hreturn, hfeed, hnext]

/-- No break starts within a pair. -/
theorem not_isBreak_of_pair (hreturn : source.char? start = some '\r')
    (hfeed : source.char? (start + 1) = some '\n') : ¬ source.IsBreak (start + 1) stop := by
  have hprevious : Cursor.previous? ⟨source, start + 1⟩ = some '\r' := hreturn
  simp [isBreak_iff, hfeed, hprevious]

theorem exists_isBreak_succ (offset : Nat) : (∃ start, offset ≤ start ∧ source.IsBreak start stop) ↔
    source.IsBreak offset stop ∨ ∃ start, offset + 1 ≤ start ∧ source.IsBreak start stop := by
  constructor
  · rintro ⟨start, hstart, hbreak⟩
    rcases Nat.eq_or_lt_of_le hstart with rfl | hlt
    · exact .inl hbreak
    · exact .inr ⟨start, hlt, hbreak⟩
  · rintro (hbreak | ⟨start, hstart, hbreak⟩)
    · exact ⟨offset, Nat.le_refl _, hbreak⟩
    · exact ⟨start, Nat.le_of_succ_le hstart, hbreak⟩

/-- From an offset on that does not part a pair, the walk over a text collects the ends of the breaks. -/
theorem mem_lineStartsAfter {before rest : List Char} (htext : source.chars.toList = before ++ rest)
    (hparts : before.getLast? = some '\r' → rest.head? ≠ some '\n') (hoffset : before.length = offset) :
    stop ∈ lineStartsAfter offset rest ↔ ∃ start, offset ≤ start ∧ source.IsBreak start stop := by
  fun_induction lineStartsAfter offset rest generalizing before with
  | case1 offset =>
      constructor
      · exact nofun
      · rintro ⟨start, hstart, hbreak⟩
        have hlength : source.length = offset := by rw [← hoffset, length, ← Array.length_toList, htext]; simp
        have hlt := hbreak.start_lt_length
        omega
  | case2 offset rest ih =>
      subst hoffset
      have hreturn : source.char? before.length = some '\r' := char?_of_split htext 0
      have hfeed : source.char? (before.length + 1) = some '\n' := char?_of_split htext 1
      have hrest := @ih (before ++ ['\r', '\n']) (by simp [htext]) (by simp) (by simp)
      rw [List.mem_cons, hrest, exists_isBreak_succ before.length, exists_isBreak_succ (before.length + 1),
        isBreak_of_pair hreturn hfeed, or_iff_right (not_isBreak_of_pair hreturn hfeed)]
  | case3 offset c rest hpair hbreak ih =>
      subst hoffset
      have hchar : source.char? before.length = some c := char?_of_split htext 0
      have hnext := Cursor.next?_of_split htext
      have hprevious := Cursor.previous?_of_split htext
      have hhead : c = '\r' → rest.head? ≠ some '\n' := by
        rintro hc hrest
        obtain ⟨rest, rfl⟩ := List.head?_eq_some_iff.mp hrest
        exact hpair rest hc rfl
      have hrest := @ih (before ++ [c]) (by simp [htext]) (by simpa using hhead) (by simp)
      have hstop : source.IsBreak before.length stop ↔ stop = before.length + 1 := by
        rcases hbreak with rfl | rfl
        · have hfeed : before.getLast? ≠ some '\r' := fun hlast => hparts hlast rfl
          simp [isBreak_iff, hchar, hprevious, hfeed]
        · have hfeed : source.char? (before.length + 1) ≠ some '\n' := fun hfeed =>
            hhead rfl (hnext.symm.trans hfeed)
          simp [isBreak_iff, hchar, hnext, hhead, hfeed]
      rw [List.mem_cons, hrest, exists_isBreak_succ before.length, hstop]
  | case4 offset c rest hpair hbreak ih =>
      subst hoffset
      have hchar : source.char? before.length = some c := char?_of_split htext 0
      obtain ⟨hfeed, hreturn⟩ := not_or.mp hbreak
      have hrest := @ih (before ++ [c]) (by simp [htext]) (by simp [hreturn]) (by simp)
      have hstop : ¬ source.IsBreak before.length stop := by simp [isBreak_iff, hchar, hfeed, hreturn]
      rw [hrest, exists_isBreak_succ before.length, or_iff_right hstop]

/-- Where the breaks of a text end, from left to right. -/
def breakEnds (source : Source) : List Nat := lineStartsAfter 0 source.chars.toList

theorem lineStarts_eq_cons (source : Source) : source.lineStarts = 0 :: source.breakEnds := source.lineStarts_eq

theorem mem_breakEnds : stop ∈ source.breakEnds ↔ ∃ start, source.IsBreak start stop := by
  have htext : source.chars.toList = [] ++ source.chars.toList := rfl
  rw [breakEnds, mem_lineStartsAfter htext nofun List.length_nil]
  simp

theorem pairwise_breakEnds (source : Source) : source.breakEnds.Pairwise (· < ·) :=
  (pairwise_lineStartsAfter 0 source.chars.toList).of_cons

/-- The ends up to an offset are those of the breaks up to it. -/
theorem image_breaksTo (source : Source) (offset : Nat) :
    (source.breaksTo offset).image Prod.snd = (source.breakEnds.takeWhile (· ≤ offset)).toFinset := by
  rw [takeWhile_le_eq_filter source.pairwise_breakEnds]
  ext stop
  simp [breaksTo, mem_breakEnds]

theorem pairwise_takeWhile_breakEnds (source : Source) (offset : Nat) :
    (source.breakEnds.takeWhile (· ≤ offset)).Pairwise (· < ·) :=
  source.pairwise_breakEnds.sublist (List.takeWhile_sublist _)

theorem card_breaksTo (source : Source) (offset : Nat) :
    (source.breaksTo offset).card = (source.breakEnds.takeWhile (· ≤ offset)).length := by
  have hinjective : Set.InjOn Prod.snd (source.breaksTo offset : Set (Nat × Nat)) := by
    rintro ⟨start, stop⟩ h ⟨start', stop'⟩ h' rfl
    simp only [breaksTo, Finset.coe_filter, Set.mem_ofPred_eq, mem_breaks] at h h'
    rw [h.1.start_eq h'.1]
  rw [← Finset.card_image_of_injOn hinjective, image_breaksTo,
    List.toFinset_card_of_nodup (source.pairwise_takeWhile_breakEnds offset).nodup]

theorem breaksTo_length (source : Source) : source.breaksTo source.length = source.breaks := by
  apply Finset.filter_true_of_mem
  rintro ⟨start, stop⟩ h
  exact (mem_breaks.mp h).stop_le_length

theorem sup_breaksTo (source : Source) (offset : Nat) :
    (source.breaksTo offset).sup Prod.snd = (source.breakEnds.takeWhile (· ≤ offset)).getLastD 0 := by
  rw [← sup_toFinset_of_pairwise (source.pairwise_takeWhile_breakEnds offset), ← image_breaksTo, Finset.sup_image]
  rfl

/-- The offset at which the line of an offset starts. -/
def lineStart (source : Source) (offset : Nat) : Nat := (source.breaksTo offset).sup Prod.snd

theorem lineStart_le (source : Source) (offset : Nat) : source.lineStart offset ≤ offset := by
  apply Finset.sup_le
  rintro ⟨start, stop⟩ h
  exact (Finset.mem_filter.mp h).2

/-- The place of an offset by the breaks before it. -/
def place (source : Source) (offset : Nat) : Nat × Nat :=
  (1 + (source.breaksTo offset).card, offset - source.lineStart offset + 1)

theorem position?_of_le (h : offset ≤ source.length) : source.position? offset = some (source.place offset) := by
  have hbegun : source.lineStarts.takeWhile (· ≤ offset) = 0 :: source.breakEnds.takeWhile (· ≤ offset) := by
    simp [lineStarts_eq_cons]
  rw [position?, if_neg (Nat.not_lt.mpr h), hbegun, place, lineStart, card_breaksTo, sup_breaksTo, Nat.add_comm 1]
  dsimp only
  rw [List.length_cons, List.getLastD_cons]

theorem position?_of_gt (h : source.length < offset) : source.position? offset = none := by
  rw [position?, if_pos h]

theorem toLex_place_lt {later : Nat} (h : offset < later) :
    toLex (source.place offset) < toLex (source.place later) := by
  have hsubset : source.breaksTo offset ⊆ source.breaksTo later := by
    apply Finset.monotone_filter_right
    rintro ⟨start, stop⟩ - hstop
    exact Nat.le_trans hstop (Nat.le_of_lt h)
  rw [Prod.Lex.toLex_lt_toLex]
  rcases hsubset.eq_or_ssubset with heq | hless
  · right
    have hle := source.lineStart_le offset
    have hsame : source.lineStart offset = source.lineStart later := by rw [lineStart, heq, lineStart]
    simp only [place, heq, true_and]
    omega
  · left
    exact Nat.add_lt_add_left (Finset.card_lt_card hless) 1

/-- The offset of a line and a column, both counted from 1. -/
def offset? (source : Source) (line column : Nat) : Option Nat :=
  source.lineStarts[line - 1]?.map (· + (column - 1))

theorem offset?_place (source : Source) (offset : Nat) :
    source.offset? (source.place offset).1 (source.place offset).2 = some offset := by
  have hle := source.lineStart_le offset
  have hstart : source.lineStarts[(source.place offset).1 - 1]? = some (source.lineStart offset) := by
    rw [place, Nat.add_sub_cancel_left, card_breaksTo, lineStarts_eq_cons, lineStart, sup_breaksTo]
    exact getElem?_length_of_isPrefix (List.takeWhile_prefix _)
  rw [offset?, hstart, place, Nat.add_sub_cancel, Option.map_some, Nat.add_sub_of_le hle]

/-- A text has one line more than breaks. -/
theorem lineCount_eq (source : Source) : source.lineCount = 1 + source.breaks.card := by
  have hall : source.breakEnds.takeWhile (· ≤ source.length) = source.breakEnds := by
    rw [takeWhile_le_eq_filter source.pairwise_breakEnds]
    apply List.filter_eq_self.mpr
    intro stop hstop
    obtain ⟨start, hbreak⟩ := mem_breakEnds.mp hstop
    exact decide_eq_true hbreak.stop_le_length
  rw [lineCount, lineStarts_eq_cons, List.length_cons, ← breaksTo_length, card_breaksTo, hall, Nat.add_comm]

/-- The line of an offset is one more than the number of line breaks that end at or before it, and its column
one more than its distance from the end of the last of them, or from the start of the text. Offsets behind the
end have no position. So positions ascend with the offsets, each leads back to its offset, and a text has one
line more than breaks. -/
theorem positions_of_breaks (source : Source) :
    (∀ offset ≤ source.length, source.position? offset =
        some (1 + (source.breaksTo offset).card, offset - (source.breaksTo offset).sup Prod.snd + 1)) ∧
      (∀ offset, source.length < offset → source.position? offset = none) ∧
      (∀ offset later, offset < later → later ≤ source.length →
        ∃ position position', source.position? offset = some position ∧
          source.position? later = some position' ∧ toLex position < toLex position') ∧
      (∀ offset line column, source.position? offset = some (line, column) →
        source.offset? line column = some offset) ∧
      source.lineCount = 1 + source.breaks.card := by
  refine ⟨fun offset => position?_of_le, fun offset => position?_of_gt, ?_, ?_, source.lineCount_eq⟩
  · intro offset later hlt hlater
    exact ⟨_, _, position?_of_le (by omega), position?_of_le hlater, toLex_place_lt hlt⟩
  · intro offset line column hposition
    have hle : offset ≤ source.length := by
      by_contra hbehind
      rw [position?_of_gt (Nat.lt_of_not_le hbehind)] at hposition
      cases hposition
    have hplace : source.place offset = (line, column) :=
      Option.some.inj ((position?_of_le hle).symm.trans hposition)
    have hoffset := offset?_place source offset
    rwa [hplace] at hoffset

/-- An offset within a pair is still on the line that the pair ends. -/
example : (List.range 7).map (ofString "\r\r\n\nab").position? =
    [some (1, 1), some (2, 1), some (2, 2), some (3, 1), some (4, 1), some (4, 2), some (4, 3)] := by
  decide +kernel

end Source
end TexProse
