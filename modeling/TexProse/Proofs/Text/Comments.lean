import TexProse.Proofs.Text.Words

/-!
# Comments

A text without markup is made of words, blanks and comments. A comment ends a word or a run of blanks, but is
itself followed by a line break or by nothing, so no word of the text without its comments is put together
from two sides of one: each has a place in the text as it stands. Main statement: `exists_isWordAt`.
-/

namespace TexProse

/-- A text without its comments, if it stands in one or not. A comment ends before the next line break. -/
def withoutCommentsFrom : Bool → List Char → List Char
  | _, [] => []
  | true, c :: rest => if isLineBreak c then c :: withoutCommentsFrom false rest else withoutCommentsFrom true rest
  | false, c :: rest => if c = '%' then withoutCommentsFrom true rest else c :: withoutCommentsFrom false rest

def withoutComments (cs : List Char) : List Char := withoutCommentsFrom false cs

/-- No comment is open behind a text whose last line has no percent sign. -/
def IsOutside (cs : List Char) : Prop := '%' ∉ cs.rtakeWhile fun c => !isLineBreak c

instance (cs : List Char) : Decidable (IsOutside cs) := inferInstanceAs (Decidable (¬ _))

/-- A text from the end of the comment on that it begins with, if it begins with one. -/
def behindComment (cs : List Char) : List Char :=
  if cs.head? = some '%' then cs.dropWhile fun c => !isLineBreak c else cs

/-- What a run of blanks is shown as: a single one as itself, several as a space. -/
def blankOfRun : List Char → Char
  | [c] => c
  | _ => ' '

/-- The blank between a word and the next one, if this is the text behind the word: it stands for the run of
blanks there, or behind the comment there. -/
def separator (cs : List Char) : Char := blankOfRun ((behindComment cs).takeWhile isBlank)

/-- A word of a text without its comments, where it stands in the text. -/
structure IsWordAt (before word after : List Char) : Prop where
  outside : IsOutside before
  settled : isSettled before = true
  ne_nil : word ≠ []
  solid : ∀ c ∈ word, isBlank c = false ∧ c ≠ '%'
  ended : ∀ c ∈ after.head?, isBlank c = true ∨ c = '%'

/-- What a text of words, blanks and comments should be shown as: its words with one blank between two of them,
the one that stands for the blanks behind the first. -/
structure Respaces (cs plain : List Char) : Prop where
  kept : words plain = words (withoutComments cs)
  first : ∀ c ∈ plain.head?, isBlank c = false
  last : ∀ c ∈ plain.getLast?, isBlank c = false
  single : plain.IsChain fun c c' => ¬ (isBlank c = true ∧ isBlank c' = true)
  /-- Every word has a place in the text. -/
  place : ∀ earlier word later, words (withoutComments cs) = earlier ++ word :: later →
    ∃ before after, cs = before ++ word ++ after ∧ IsWordAt before word after ∧
      words (withoutComments before) = earlier ∧ words (withoutComments after) = later
  /-- Behind a word that is not the last, wherever it stands, there is its separator. -/
  between : ∀ before word after, cs = before ++ word ++ after → IsWordAt before word after →
    words (withoutComments after) ≠ [] →
    ∃ front back, plain = front ++ word ++ separator after :: back ∧ isSettled front = true ∧
      words front = words (withoutComments before) ∧ words back = words (withoutComments after)

theorem blankOfRun_cases (run : List Char) : blankOfRun run = ' ' ∨ blankOfRun run ∈ run := by
  rw [blankOfRun.eq_def]
  split
  · exact .inr List.mem_cons_self
  · exact .inl rfl

theorem isBlank_blankOfRun {run : List Char} (h : ∀ c ∈ run, isBlank c = true) :
    isBlank (blankOfRun run) = true := by
  rcases blankOfRun_cases run with hspace | hmem
  · rw [hspace]
    decide
  · exact h _ hmem

section Comments
variable {cs first second word : List Char}

theorem ne_percent_of_isBlank {c : Char} (h : isBlank c = true) : c ≠ '%' := by
  rintro rfl
  exact absurd h (by decide)

@[simp] theorem withoutComments_nil : withoutComments [] = [] := rfl

theorem withoutComments_cons {c : Char} (h : c ≠ '%') : withoutComments (c :: cs) = c :: withoutComments cs := by
  rw [withoutComments, withoutCommentsFrom, if_neg h, withoutComments]

theorem withoutComments_append (h : '%' ∉ first) :
    withoutComments (first ++ second) = first ++ withoutComments second := by
  induction first with
  | nil => rfl
  | cons c rest ih =>
      rw [List.mem_cons, not_or] at h
      rw [List.cons_append, withoutComments_cons (Ne.symm h.1), ih h.2, List.cons_append]

theorem withoutComments_of_notMem (h : '%' ∉ cs) : withoutComments cs = cs := by
  have happend : withoutComments (cs ++ []) = cs ++ withoutComments [] := withoutComments_append h
  rwa [withoutComments_nil, List.append_nil] at happend

/-- From inside a comment the text goes on with the next line break. -/
theorem withoutCommentsFrom_true (cs : List Char) :
    withoutCommentsFrom true cs = withoutComments (cs.dropWhile fun c => !isLineBreak c) := by
  induction cs with
  | nil => rfl
  | cons c rest ih =>
      cases hc : isLineBreak c with
      | true =>
          have hpercent := ne_percent_of_isBlank (isBlank_of_isLineBreak hc)
          simp [withoutComments, withoutCommentsFrom, hc, hpercent]
      | false => simp [withoutCommentsFrom, hc, ih]

theorem withoutComments_percent (cs : List Char) :
    withoutComments ('%' :: cs) = withoutComments (cs.dropWhile fun c => !isLineBreak c) := by
  rw [withoutComments, withoutCommentsFrom, if_pos rfl, withoutCommentsFrom_true]

theorem withoutComments_behindComment (cs : List Char) :
    withoutComments (behindComment cs) = withoutComments cs := by
  rw [behindComment]
  split
  next hhead =>
    obtain ⟨rest, rfl⟩ := List.head?_eq_some_iff.mp hhead
    rw [withoutComments_percent, List.dropWhile_cons_of_pos (by decide)]
  next => rfl

/-- Behind a comment there is a line break, if there is anything. -/
theorem isBlank_of_mem_behindComment (h : ∀ c ∈ cs.head?, isBlank c = true ∨ c = '%') :
    ∀ c ∈ (behindComment cs).head?, isBlank c = true := by
  intro c hc
  rw [behindComment] at hc
  split at hc
  next hhead =>
    exact isBlank_of_isLineBreak (by simpa using of_mem_head?_dropWhile hc)
  next hhead =>
    refine (h c hc).resolve_right ?_
    rintro rfl
    exact hhead hc

/-- What is outside of comments stays there behind a text that ends outside of them. -/
theorem IsOutside.append (h : IsOutside second) (hfirst : '%' ∉ first ∨ ∃ c ∈ second, isLineBreak c = true) :
    IsOutside (first ++ second) := by
  induction second using List.reverseRecOn with
  | nil =>
      have hnone : '%' ∉ first := hfirst.resolve_right (by simp)
      rw [List.append_nil]
      exact fun hmem => hnone ((List.rtakeWhile_suffix _ _).subset hmem)
  | append_singleton second c ih =>
      rw [IsOutside, List.rtakeWhile_concat] at h
      rw [IsOutside, ← List.append_assoc, List.rtakeWhile_concat]
      split_ifs at h ⊢ with hc
      · rw [List.mem_append, not_or] at h ⊢
        refine ⟨ih h.1 (hfirst.imp_right ?_), h.2⟩
        rintro ⟨c', hmem, hbreak⟩
        rcases List.mem_append.mp hmem with hmem | hmem
        · exact ⟨c', hmem, hbreak⟩
        · rw [List.mem_singleton.mp hmem] at hbreak
          simp [hbreak] at hc
      · exact h

/-- A word is a word of the text without comments, whatever the text goes on with behind it. -/
theorem words_withoutComments_word (hsome : word ≠ []) (hword : ∀ c ∈ word, isBlank c = false ∧ c ≠ '%')
    (hsecond : ∀ c ∈ second.head?, isBlank c = true ∨ c = '%') :
    words (withoutComments (word ++ second)) = word :: words (withoutComments second) := by
  have hone := words_of_word hsome fun c hc => (hword c hc).1
  have hhead := isBlank_of_mem_behindComment hsecond
  rw [withoutComments_append fun hmem => (hword '%' hmem).2 rfl, ← withoutComments_behindComment second]
  generalize behindComment second = rest at hhead
  cases rest with
  | nil => simpa using hone
  | cons c rest =>
      have hc := hhead c rfl
      rw [withoutComments_cons (ne_percent_of_isBlank hc), words_append_cons hc, hone, words_cons_blank hc,
        List.singleton_append]

/-- A comment is left out, and what stands behind it is not. -/
theorem withoutComments_comment (hfirst : ∀ c ∈ first, isLineBreak c = false)
    (hsecond : ∀ c ∈ second.head?, isLineBreak c = true) :
    withoutComments ('%' :: first ++ second) = withoutComments second := by
  have hinside : ∀ c ∈ first, (!isLineBreak c) = true := by simpa using hfirst
  rw [List.cons_append, withoutComments_percent, List.dropWhile_append_of_pos hinside]
  cases second with
  | nil => rfl
  | cons c rest => rw [List.dropWhile_cons_of_neg (by simp [hsecond c rfl])]

/-- A text without markup goes on with a blank, a comment or a word. -/
@[elab_as_elim]
theorem pieces_induction {motive : List Char → Prop} (nil : motive [])
    (blank : ∀ c rest, isBlank c = true → motive rest → motive (c :: rest))
    (comment : ∀ inside rest, (∀ c ∈ inside, isLineBreak c = false) →
      (∀ c ∈ rest.head?, isLineBreak c = true) → motive rest → motive ('%' :: inside ++ rest))
    (word : ∀ word rest, word ≠ [] → (∀ c ∈ word, isBlank c = false ∧ c ≠ '%') →
      (∀ c ∈ rest.head?, isBlank c = true ∨ c = '%') → motive rest → motive (word ++ rest))
    (cs : List Char) : motive cs := by
  match hcs : cs with
  | [] => exact nil
  | c :: rest =>
      have ih (rest' : List Char) (hlength : rest'.length ≤ rest.length) : motive rest' :=
        pieces_induction nil blank comment word rest'
      by_cases hblank : isBlank c = true
      · exact blank c rest hblank (ih rest le_rfl)
      by_cases hpercent : c = '%'
      · subst hpercent
        have hsplit := List.takeWhile_append_dropWhile (p := fun c => !isLineBreak c) (l := rest)
        rw [← hsplit, ← List.cons_append]
        refine comment _ _ ?_ ?_ (ih _ (List.length_dropWhile_le _ _))
        · intro c hc
          simpa using List.mem_takeWhile_imp hc
        · intro c hc
          simpa using of_mem_head?_dropWhile hc
      · have hsplit := List.takeWhile_append_dropWhile (p := fun c => !isBlank c && c != '%') (l := rest)
        rw [← hsplit, ← List.cons_append]
        refine word _ _ (by simp) ?_ ?_ (ih _ (List.length_dropWhile_le _ _))
        · rintro c' hc'
          rcases List.mem_cons.mp hc' with rfl | hmem
          · exact ⟨Bool.eq_false_iff.mpr hblank, hpercent⟩
          · simpa using List.mem_takeWhile_imp hmem
        · intro c' hc'
          have hstop := of_mem_head?_dropWhile hc'
          by_cases hblank' : isBlank c' = true
          · exact .inl hblank'
          · simp only [Bool.eq_false_iff.mpr hblank', Bool.not_false, Bool.true_and] at hstop
            exact .inr (by simpa using hstop)
termination_by cs.length
decreasing_by simpa using Nat.lt_succ_of_le hlength

/-- Where no word begins, something stands before the next one. -/
theorem IsWordAt.exists_cons {before after : List Char} (h : IsWordAt before word after)
    (hhead : ∀ c ∈ (before ++ word ++ after).head?, isBlank c = true ∨ c = '%') :
    ∃ c earlier, before = c :: earlier := by
  refine List.exists_cons_of_ne_nil ?_
  rintro rfl
  obtain ⟨c, rest, rfl⟩ := List.exists_cons_of_ne_nil h.ne_nil
  obtain ⟨hblank, hpercent⟩ := h.solid c List.mem_cons_self
  exact (hhead c rfl).elim (fun hc => absurd (hblank.symm.trans hc) (by decide)) hpercent

/-- Every word of a text without its comments has a place in the text. -/
theorem exists_isWordAt {earlier later : List (List Char)}
    (h : words (withoutComments cs) = earlier ++ word :: later) :
    ∃ before after, cs = before ++ word ++ after ∧ IsWordAt before word after ∧
      words (withoutComments before) = earlier ∧ words (withoutComments after) = later := by
  induction cs using pieces_induction generalizing earlier with
  | nil => simp at h
  | blank c rest hc ih =>
      have hpercent := ne_percent_of_isBlank hc
      rw [withoutComments_cons hpercent, words_cons_blank hc] at h
      obtain ⟨before, after, rfl, hat, hearlier, hlater⟩ := ih h
      refine ⟨[c] ++ before, after, rfl, ?_, ?_, hlater⟩
      · exact { hat with
          outside := hat.outside.append (.inl (by simpa using hpercent.symm))
          settled := by rw [isSettled_append (by simp [isSettled, hc]), hat.settled] }
      · rw [List.singleton_append, withoutComments_cons hpercent, words_cons_blank hc, hearlier]
  | comment inside rest hinside hrest ih =>
      rw [withoutComments_comment hinside hrest] at h
      obtain ⟨before, after, rfl, hat, hearlier, hlater⟩ := ih h
      obtain ⟨c, before, rfl⟩ := hat.exists_cons fun c hc => .inl (isBlank_of_isLineBreak (hrest c hc))
      have hbreak := hrest c rfl
      refine ⟨'%' :: inside ++ c :: before, after, by simp, ?_, ?_, hlater⟩
      · exact { hat with
          outside := hat.outside.append (.inr ⟨c, List.mem_cons_self, hbreak⟩)
          settled := by rw [isSettled_append_of_ne_nil (by simp), hat.settled] }
      · rw [withoutComments_comment hinside (by simpa using hbreak), hearlier]
  | word first rest hsome hfirst hrest ih =>
      rw [words_withoutComments_word hsome hfirst hrest] at h
      cases earlier with
      | nil =>
          obtain ⟨rfl, rfl⟩ := List.cons_eq_cons.mp h
          exact ⟨[], rest, rfl, ⟨by simp [IsOutside], rfl, hsome, hfirst, hrest⟩, rfl, rfl⟩
      | cons first' earlier =>
          obtain ⟨rfl, hothers⟩ := List.cons_eq_cons.mp h
          obtain ⟨before, after, rfl, hat, hearlier, hlater⟩ := ih hothers
          obtain ⟨c, before, rfl⟩ := hat.exists_cons hrest
          refine ⟨first ++ c :: before, after, by simp, ?_, ?_, hlater⟩
          · exact { hat with
              outside := hat.outside.append (.inl fun hmem => (hfirst '%' hmem).2 rfl)
              settled := by rw [isSettled_append_of_ne_nil (by simp), hat.settled] }
          · rw [words_withoutComments_word hsome hfirst (fun c hc => hrest c (by simpa using hc)), hearlier]

end Comments
end TexProse
