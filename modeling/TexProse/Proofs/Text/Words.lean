import Mathlib.Data.List.Chain
import Mathlib.Data.List.DropRight
import TexProse.Text.Blank

/-!
# Words

The words of a text are its maximal runs without blanks. They can be told of two parts of a text one by one
wherever the first ends in a blank or the second begins with one. A neat text has single blanks between its
words and none before the first.
-/

namespace TexProse

/-- The maximal runs of characters that are no blanks. -/
def words (cs : List Char) : List (List Char) := (cs.splitOnP isBlank).filter (· ≠ [])

/-- Whether a text ends in a blank or has not begun. -/
def isSettled (cs : List Char) : Bool := cs.getLast?.all isBlank

/-- No blank stands before the first word or on top of another blank. -/
structure IsNeat (cs : List Char) : Prop where
  first : ∀ c ∈ cs.head?, isBlank c = false
  single : cs.IsChain fun c c' => ¬ (isBlank c = true ∧ isBlank c' = true)

/-- What is dropped ends before a character that is not. -/
theorem of_mem_head?_dropWhile {p : Char → Bool} {cs : List Char} {c : Char}
    (h : c ∈ (cs.dropWhile p).head?) : p c = false := by
  have hnot := List.head?_dropWhile_not p cs
  rw [Option.mem_def.mp h] at hnot
  simpa using hnot

section Settled
variable {first second : List Char} {c : Char}

@[simp] theorem isSettled_nil : isSettled [] = true := rfl

@[simp] theorem isSettled_concat : isSettled (first ++ [c]) = isBlank c := by simp [isSettled]

theorem isSettled_append (h : isSettled first = true) : isSettled (first ++ second) = isSettled second := by
  rcases List.eq_nil_or_concat' second with rfl | ⟨before, c, rfl⟩
  · rw [List.append_nil, h, isSettled_nil]
  · rw [← List.append_assoc, isSettled_concat, isSettled_concat]

theorem isSettled_append_of_ne_nil (h : second ≠ []) : isSettled (first ++ second) = isSettled second := by
  rw [isSettled, List.getLast?_append_of_ne_nil _ h, isSettled]

/-- Behind a blank, or at the start, nothing of a word has been read. -/
theorem eq_nil_or_concat_of_isSettled (h : isSettled first = true) :
    first = [] ∨ ∃ before c, first = before ++ [c] ∧ isBlank c = true := by
  rcases List.eq_nil_or_concat' first with rfl | ⟨before, c, rfl⟩
  · exact .inl rfl
  · exact .inr ⟨before, c, rfl, isSettled_concat ▸ h⟩

end Settled

section Words
variable {first second word : List Char} {c : Char}

@[simp] theorem words_nil : words [] = [] := by simp [words]

theorem words_append_cons (hc : isBlank c = true) :
    words (first ++ c :: second) = words first ++ words second := by
  rw [words, List.splitOnP_append_cons _ _ hc, List.filter_append, words, words]

theorem words_concat_blank (hc : isBlank c = true) : words (first ++ [c]) = words first := by
  rw [words_append_cons hc, words_nil, List.append_nil]

theorem words_cons_blank (hc : isBlank c = true) : words (c :: second) = words second := by
  have happend : words ([] ++ c :: second) = words [] ++ words second := words_append_cons hc
  rwa [words_nil, List.nil_append, List.nil_append] at happend

theorem words_append_blanks (h : ∀ c ∈ second, isBlank c = true) : words (first ++ second) = words first := by
  induction second generalizing first with
  | nil => rw [List.append_nil]
  | cons c rest ih =>
      rw [List.append_cons, ih fun c hc => h c (List.mem_cons_of_mem _ hc),
        words_concat_blank (h c List.mem_cons_self)]

/-- A run without blanks is a word. -/
theorem words_of_word (hsome : word ≠ []) (hword : ∀ c ∈ word, isBlank c = false) : words word = [word] := by
  rw [words, List.splitOnP_eq_singleton hword]
  simp [hsome]

theorem words_append (h : isSettled first = true) : words (first ++ second) = words first ++ words second := by
  rcases eq_nil_or_concat_of_isSettled h with rfl | ⟨before, c, rfl, hc⟩
  · rw [words_nil, List.nil_append, List.nil_append]
  · rw [List.append_assoc, List.singleton_append, words_append_cons hc, words_concat_blank hc]

/-- A text ends in a word that is still open, if only in an empty one. -/
theorem exists_open (cs : List Char) :
    ∃ before word, cs = before ++ word ∧ isSettled before = true ∧ ∀ c ∈ word, isBlank c = false := by
  refine ⟨cs.rdropWhile (!isBlank ·), cs.rtakeWhile (!isBlank ·), List.rdropWhile_append_rtakeWhile.symm,
    ?_, ?_⟩
  · rcases List.eq_nil_or_concat' (cs.rdropWhile (!isBlank ·)) with hnil | ⟨before, c, hlast⟩
    · rw [hnil, isSettled_nil]
    · have hstop := List.rdropWhile_last_not (!isBlank ·) cs (by simp [hlast])
      simpa [hlast] using hstop
  · intro c hc
    simpa using List.mem_rtakeWhile_imp hc

/-- A character that is no blank goes on with an open word, or begins one. -/
theorem words_concat (hc : isBlank c = false) (hsettled : isSettled first = true)
    (hword : ∀ c ∈ word, isBlank c = false) :
    words (first ++ word ++ [c]) = words first ++ [word ++ [c]] := by
  have hlonger : ∀ c' ∈ word ++ [c], isBlank c' = false := by
    simpa [or_imp, forall_and] using ⟨hword, hc⟩
  rw [List.append_assoc, words_append hsettled, words_of_word (by simp) hlonger]

/-- What the words of a longer text are depends on the words so far and on whether the last is complete. -/
theorem words_concat_congr (hc : isBlank c = false) (hwords : words first = words second)
    (hsettled : isSettled first = isSettled second) : words (first ++ [c]) = words (second ++ [c]) := by
  obtain ⟨before, word, rfl, hbefore, hword⟩ := exists_open first
  obtain ⟨before', word', rfl, hbefore', hword'⟩ := exists_open second
  rw [words_concat hc hbefore hword, words_concat hc hbefore' hword']
  rw [words_append hbefore, words_append hbefore'] at hwords
  have hopen {word : List Char} (hword : ∀ c ∈ word, isBlank c = false) (hsome : word ≠ []) :
      isSettled word = false := by
    obtain ⟨initial, last, rfl⟩ := (List.eq_nil_or_concat' word).resolve_left hsome
    rw [isSettled_concat]
    exact hword last (by simp)
  rw [isSettled_append hbefore, isSettled_append hbefore'] at hsettled
  by_cases hsome : word = []
  · have hsome' : word' = [] := by
      by_contra hsome'
      rw [hsome, hopen hword' hsome'] at hsettled
      cases hsettled
    rw [hsome, hsome', words_nil, List.append_nil, List.append_nil] at hwords
    rw [hsome, hsome', hwords]
  · have hsome' : word' ≠ [] := by
      rintro rfl
      rw [hopen hword hsome] at hsettled
      cases hsettled
    rw [words_of_word hsome hword, words_of_word hsome' hword'] at hwords
    obtain ⟨hearlier, hlast⟩ := List.append_inj' hwords rfl
    rw [hearlier, List.singleton_inj.mp hlast]

end Words

namespace IsNeat
variable {cs : List Char} {c : Char}

theorem nil : IsNeat [] := ⟨by simp, List.isChain_nil⟩

/-- Only a blank behind a word keeps a text neat. -/
theorem concat (h : IsNeat cs) (hc : isBlank c = true → isSettled cs = false) : IsNeat (cs ++ [c]) := by
  constructor
  · cases cs with
    | nil =>
        rintro _ ⟨⟩
        exact Bool.eq_false_iff.mpr fun hblank => by simpa using hc hblank
    | cons first rest => exact h.first
  · refine List.isChain_append.mpr ⟨h.single, List.isChain_singleton c, ?_⟩
    rintro last hlast _ ⟨⟩ ⟨hblank, hblank'⟩
    have hopen := hc hblank'
    rw [isSettled, Option.mem_def.mp hlast, Option.all_some, hblank] at hopen
    cases hopen

/-- What stands before a blank of a neat text ends in a word. -/
theorem of_concat (h : IsNeat (cs ++ [c])) : IsNeat cs ∧ (isBlank c = true → isSettled cs = false) := by
  refine ⟨⟨?_, (List.isChain_append.mp h.single).1⟩, ?_⟩
  · intro first hfirst
    exact h.first first (by simp [Option.mem_def.mp hfirst])
  · intro hc
    rcases List.eq_nil_or_concat' cs with rfl | ⟨before, last, rfl⟩
    · rw [h.first c rfl] at hc
      cases hc
    · have hchain := (List.isChain_append.mp h.single).2.2 last (by simp) c rfl
      rw [isSettled_concat]
      exact Bool.eq_false_iff.mpr fun hlast => hchain ⟨hlast, hc⟩

theorem of_prefix {more : List Char} (h : IsNeat (cs ++ more)) : IsNeat cs := by
  induction more using List.reverseRecOn with
  | nil => rwa [List.append_nil] at h
  | append_singleton more c ih =>
      rw [← List.append_assoc] at h
      exact ih h.of_concat.1

/-- A neat text is trimmed at its end only. -/
theorem trimChars_eq (h : IsNeat cs) : trimChars cs = cs.rdropWhile isBlank := by
  have hfront : cs.dropWhile isBlank = cs := by
    apply List.dropWhile_eq_self_iff.mpr
    intro hl hblank
    have hhead : cs.head? = some cs[0] := by simp [List.head?_eq_getElem?, hl]
    rw [h.first _ hhead] at hblank
    cases hblank
  rw [trimChars, hfront]
  rfl

theorem trim (h : IsNeat cs) : IsNeat (trimChars cs) := by
  rw [h.trimChars_eq]
  obtain ⟨more, hmore⟩ := List.rdropWhile_prefix isBlank cs
  rw [← hmore] at h
  exact h.of_prefix

end IsNeat

/-- What is trimmed ends in no blank. -/
theorem isBlank_getLast_of_trimmed (cs : List Char) : ∀ c ∈ (trimChars cs).getLast?, isBlank c = false := by
  have hback : trimChars cs = (cs.dropWhile isBlank).rdropWhile isBlank := rfl
  intro c hc
  obtain ⟨hsome, rfl⟩ := List.mem_getLast?_eq_getLast hc
  have hlast := List.rdropWhile_last_not isBlank (cs.dropWhile isBlank) (hback ▸ hsome)
  exact Bool.eq_false_iff.mpr hlast

theorem words_rdropWhile (cs : List Char) : words (cs.rdropWhile isBlank) = words cs := by
  have hblanks : ∀ c ∈ cs.rtakeWhile isBlank, isBlank c = true := fun c hc => List.mem_rtakeWhile_imp hc
  rw [← words_append_blanks hblanks, List.rdropWhile_append_rtakeWhile]

/-- A word at the end is out of reach for what trims the blanks behind it. -/
theorem rdropWhile_append {first second : List Char} (h : words second ≠ []) :
    (first ++ second).rdropWhile isBlank = first ++ second.rdropWhile isBlank := by
  have hsome : (second.reverse.dropWhile isBlank).isEmpty = false := by
    rw [List.isEmpty_eq_false_iff]
    intro hnil
    apply h
    rw [← words_rdropWhile, List.rdropWhile, hnil, List.reverse_nil, words_nil]
  simp [List.rdropWhile, List.dropWhile_append, hsome]

end TexProse
