import TexProse.Proofs.Text.Comments

/-!
# What is heard of a text

An `Ear` follows a text without markup one character behind the other: what it has said, the run of blanks
that is open, and whether a comment is. What it says has the words of the text without its comments, single
blanks between them, and before each word but the first the blank that the run behind the word before it
stands for. Main statements: `respaces_prose`, `prose_prose`.

## Implementation notes

A run of blanks is said once it is over, by the character behind it, by a comment or by the end. Behind a
comment a new run begins, but it finds the prose settled and stays silent, unless the comment stood right
behind a word.
-/

namespace TexProse

/-- What is known of a text that was read up to a place. -/
structure Ear where
  said : List Char := []
  /-- The blanks right before the place that nothing is said of yet. -/
  run : List Char := []
  remark : Bool := false

namespace Ear
variable {ear : Ear} {cs : List Char} {c : Char}

/-- What is said of a run of blanks. -/
def gap (said run : List Char) : List Char :=
  if run = [] ∨ isSettled said = true then [] else [blankOfRun run]

/-- What is said once the run is over. -/
def settle (ear : Ear) : List Char := ear.said ++ gap ear.said ear.run

def hear (ear : Ear) (c : Char) : Ear :=
  if ear.remark then if isLineBreak c then { said := ear.said, run := [c] } else ear
  else if isBlank c then { ear with run := ear.run ++ [c] }
  else if c = '%' then { said := ear.settle, remark := true }
  else { said := ear.settle ++ [c] }

/-- What is known of a whole text. -/
def listen (cs : List Char) : Ear := cs.foldl hear {}

theorem listen_concat (cs : List Char) (c : Char) : listen (cs ++ [c]) = (listen cs).hear c := by
  simp [listen]

theorem settle_of_run_eq_nil (h : ear.run = []) : ear.settle = ear.said := by
  simp [settle, gap, h]

theorem gap_of_isSettled {said : List Char} (h : isSettled said = true) (run : List Char) : gap said run = [] := by
  simp [gap, h]

theorem gap_of_run {said run : List Char} (hsaid : isSettled said = false) (hrun : run ≠ []) :
    gap said run = [blankOfRun run] := by
  simp [gap, hsaid, hrun]

/-- What is said at the end of a run of blanks, or of none. -/
theorem settle_cases (ear : Ear) :
    (ear.run = [] ∨ isSettled ear.said = true) ∧ ear.settle = ear.said ∨
      ear.run ≠ [] ∧ isSettled ear.said = false ∧
        ear.settle = ear.said ++ [blankOfRun ear.run] := by
  by_cases hrun : ear.run = []
  · exact .inl ⟨.inl hrun, settle_of_run_eq_nil hrun⟩
  · cases hsaid : isSettled ear.said with
    | true => exact .inl ⟨.inr rfl, by rw [settle, gap_of_isSettled hsaid, List.append_nil]⟩
    | false =>
        exact .inr ⟨hrun, rfl, by rw [settle, gap_of_run hsaid hrun]⟩

/-- What an ear holds of its run and its comment. -/
structure IsSound (ear : Ear) : Prop where
  blank : ∀ c ∈ ear.run, isBlank c = true
  remark : ear.remark = true → ear.run = []
  neat : IsNeat ear.said

namespace IsSound

theorem neat_settle (h : ear.IsSound) : IsNeat ear.settle := by
  rcases settle_cases ear with ⟨-, hsettle⟩ | ⟨-, hsaid, hsettle⟩
  · rw [hsettle]
    exact h.neat
  · rw [hsettle]
    exact h.neat.concat fun _ => hsaid

theorem words_settle (h : ear.IsSound) : words ear.settle = words ear.said := by
  rcases settle_cases ear with ⟨-, hsettle⟩ | ⟨-, -, hsettle⟩
  · rw [hsettle]
  · rw [hsettle, words_concat_blank (isBlank_blankOfRun h.blank)]

/-- Behind a run of blanks the prose is settled. -/
theorem isSettled_settle (h : ear.IsSound) (hrun : ear.run ≠ []) : isSettled ear.settle = true := by
  rcases settle_cases ear with ⟨hsilent, hsettle⟩ | ⟨-, -, hsettle⟩
  · rw [hsettle]
    exact hsilent.resolve_left hrun
  · rw [hsettle, isSettled_concat, isBlank_blankOfRun h.blank]

end IsSound

/-- What a character can do to an ear. -/
inductive Change (ear : Ear) (c : Char) : Ear → Prop
  | endRemark (hremark : ear.remark = true) (hc : isLineBreak c = true) :
      Change ear c { said := ear.said, run := [c] }
  | remark (hremark : ear.remark = true) (hc : isLineBreak c = false) : Change ear c ear
  | blank (hremark : ear.remark = false) (hc : isBlank c = true) :
      Change ear c { ear with run := ear.run ++ [c] }
  | openRemark (hremark : ear.remark = false) (hc : c = '%') : Change ear c { said := ear.settle, remark := true }
  | say (hremark : ear.remark = false) (hblank : isBlank c = false) (hc : c ≠ '%') :
      Change ear c { said := ear.settle ++ [c] }

theorem change_hear (ear : Ear) (c : Char) : Change ear c (ear.hear c) := by
  rw [hear]
  split_ifs with hremark hbreak hblank hc
  · exact .endRemark hremark hbreak
  · exact .remark hremark (Bool.eq_false_iff.mpr hbreak)
  · exact .blank (Bool.eq_false_iff.mpr hremark) hblank
  · exact .openRemark (Bool.eq_false_iff.mpr hremark) hc
  · exact .say (Bool.eq_false_iff.mpr hremark) (Bool.eq_false_iff.mpr hblank) hc

theorem Change.isSound {ear' : Ear} (h : Change ear c ear') (hsound : ear.IsSound) : ear'.IsSound := by
  cases h with
  | endRemark hremark hc => exact ⟨by simpa using isBlank_of_isLineBreak hc, by simp, hsound.neat⟩
  | remark hremark hc => exact hsound
  | blank hremark hc =>
      refine ⟨?_, fun h => absurd (hremark.symm.trans h) (by decide), hsound.neat⟩
      simpa [or_imp, forall_and] using ⟨hsound.blank, hc⟩
  | openRemark hremark hc => exact ⟨by simp, fun _ => rfl, hsound.neat_settle⟩
  | say hremark hblank hc =>
      refine ⟨by simp, by simp, hsound.neat_settle.concat ?_⟩
      intro hc'
      rw [hblank] at hc'
      cases hc'

theorem isSound_listen (cs : List Char) : (listen cs).IsSound := by
  induction cs using List.reverseRecOn with
  | nil => exact ⟨by simp [listen], by simp [listen], .nil⟩
  | append_singleton cs c ih =>
      rw [listen_concat]
      exact (change_hear _ c).isSound ih

/-- What was said has the words of a text without its comments, and ends where they do. -/
structure Follows (ear : Ear) (kept : List Char) : Prop where
  words : words ear.said = words kept
  settled : ear.remark = false → isSettled ear.settle = isSettled kept

theorem Follows.foldl {kept : List Char} (h : ear.Follows kept) (hsound : ear.IsSound) :
    (cs.foldl hear ear).Follows (kept ++ withoutCommentsFrom ear.remark cs) := by
  induction cs generalizing ear kept with
  | nil => simpa [withoutCommentsFrom] using h
  | cons c rest ih =>
      have hchange := change_hear ear c
      have hsound' := hchange.isSound hsound
      rw [List.foldl_cons]
      generalize ear.hear c = ear' at hchange hsound'
      cases hchange with
      | endRemark hremark hc =>
          have hblank := isBlank_of_isLineBreak hc
          have hnext : Follows { said := ear.said, run := [c] } (kept ++ [c]) := by
            refine ⟨h.words.trans (words_concat_blank hblank).symm, fun _ => ?_⟩
            rw [hsound'.isSettled_settle (by simp), isSettled_concat, hblank]
          simpa [hremark, withoutCommentsFrom, hc] using ih hnext hsound'
      | remark hremark hc => simpa [hremark, withoutCommentsFrom, hc] using ih h hsound'
      | blank hremark hc =>
          have hpercent := ne_percent_of_isBlank hc
          have hnext : Follows { ear with run := ear.run ++ [c] } (kept ++ [c]) := by
            refine ⟨h.words.trans (words_concat_blank hc).symm, fun _ => ?_⟩
            rw [hsound'.isSettled_settle (by simp), isSettled_concat, hc]
          simpa [hremark, withoutCommentsFrom, hpercent] using ih hnext hsound'
      | openRemark hremark hc =>
          have hnext : Follows { said := ear.settle, remark := true } kept :=
            ⟨hsound.words_settle.trans h.words, by simp⟩
          simpa [hremark, withoutCommentsFrom, hc] using ih hnext hsound'
      | say hremark hblank hc =>
          have hwords := words_concat_congr hblank (hsound.words_settle.trans h.words) (h.settled hremark)
          have hnext : Follows { said := ear.settle ++ [c] } (kept ++ [c]) := by
            refine ⟨hwords, fun _ => ?_⟩
            rw [settle_of_run_eq_nil rfl, isSettled_concat, isSettled_concat]
          simpa [hremark, withoutCommentsFrom, hc] using ih hnext hsound'

/-- What is said of a text has the words that stand in no comment. -/
theorem words_listen (cs : List Char) : words (listen cs).settle = words (withoutComments cs) := by
  have hstart : Follows {} [] := ⟨rfl, fun _ => rfl⟩
  have hfollows : (listen cs).Follows ([] ++ withoutComments cs) := hstart.foldl (isSound_listen [])
  exact (isSound_listen cs).words_settle.trans hfollows.words

/-- Where no comment is open, what is said is settled as the text is. -/
theorem isSettled_listen (h : (listen cs).remark = false) : isSettled (listen cs).settle = isSettled cs := by
  rcases List.eq_nil_or_concat' cs with rfl | ⟨cs, c, rfl⟩
  · rfl
  · have hsound := isSound_listen (cs ++ [c])
    rw [listen_concat] at h hsound ⊢
    have hchange := change_hear (listen cs) c
    rw [isSettled_concat]
    generalize (listen cs).hear c = ear at h hsound hchange
    cases hchange with
    | endRemark hremark hc => rw [hsound.isSettled_settle (by simp), isBlank_of_isLineBreak hc]
    | remark hremark hc => exact absurd (hremark.symm.trans h) (by decide)
    | blank hremark hc => rw [hsound.isSettled_settle (by simp), hc]
    | openRemark hremark hc => cases h
    | say hremark hblank hc => rw [settle_of_run_eq_nil rfl, isSettled_concat]

/-- Only a percent sign on the last line leaves a comment open. -/
theorem remark_listen (h : IsOutside cs) : (listen cs).remark = false := by
  induction cs using List.reverseRecOn with
  | nil => rfl
  | append_singleton cs c ih =>
      rw [listen_concat]
      have hchange := change_hear (listen cs) c
      rw [IsOutside, List.rtakeWhile_concat] at h
      generalize (listen cs).hear c = ear at hchange
      cases hchange with
      | endRemark hremark hc => rfl
      | remark hremark hc =>
          simp only [hc, Bool.not_false, if_true, List.mem_append, not_or] at h
          exact absurd (ih h.1) (by simp [hremark])
      | blank hremark hc => exact hremark
      | openRemark hremark hc =>
          subst hc
          simp [show isLineBreak '%' = false by decide] at h
      | say hremark hblank hc => rfl

/-- Nothing is said but spaces and characters of the text that begin no comment. -/
structure Keeps (ear : Ear) (cs : List Char) : Prop where
  said : ∀ c ∈ ear.said, c = ' ' ∨ c ∈ cs ∧ c ≠ '%'
  run : ∀ c ∈ ear.run, c ∈ cs ∧ c ≠ '%'

theorem Keeps.settle (h : ear.Keeps cs) :
    ∀ c ∈ ear.settle, c = ' ' ∨ c ∈ cs ∧ c ≠ '%' := by
  rcases settle_cases ear with ⟨-, hsettle⟩ | ⟨-, -, hsettle⟩
  · rw [hsettle]
    exact h.said
  · rw [hsettle]
    intro c hc
    rcases List.mem_append.mp hc with hsaid | hlast
    · exact h.said c hsaid
    · rw [List.mem_singleton.mp hlast]
      exact (blankOfRun_cases ear.run).imp_right (h.run _)

theorem keeps_listen (cs : List Char) : (listen cs).Keeps cs := by
  induction cs using List.reverseRecOn with
  | nil => exact ⟨by simp [listen], by simp [listen]⟩
  | append_singleton cs c ih =>
      have hsettle := ih.settle
      have hmore {c' : Char} (h : c' ∈ cs ∧ c' ≠ '%') : c' ∈ cs ++ [c] ∧ c' ≠ '%' :=
        ⟨List.mem_append_left _ h.1, h.2⟩
      have hchange := change_hear (listen cs) c
      rw [listen_concat]
      generalize (listen cs).hear c = ear at hchange
      cases hchange with
      | endRemark hremark hc =>
          refine ⟨fun c' hc' => (ih.said c' hc').imp_right hmore, ?_⟩
          simpa using ne_percent_of_isBlank (isBlank_of_isLineBreak hc)
      | remark hremark hc =>
          exact ⟨fun c' hc' => (ih.said c' hc').imp_right hmore, fun c' hc' => hmore (ih.run c' hc')⟩
      | blank hremark hc =>
          refine ⟨fun c' hc' => (ih.said c' hc').imp_right hmore, ?_⟩
          intro c' hc'
          rcases List.mem_append.mp hc' with hearlier | hlast
          · exact hmore (ih.run c' hearlier)
          · rw [List.mem_singleton.mp hlast]
            exact ⟨List.mem_concat_self, ne_percent_of_isBlank hc⟩
      | openRemark hremark hc => exact ⟨fun c' hc' => (hsettle c' hc').imp_right hmore, by simp⟩
      | say hremark hblank hc =>
          refine ⟨?_, by simp⟩
          intro c' hc'
          rcases List.mem_append.mp hc' with hearlier | hlast
          · exact (hsettle c' hearlier).imp_right hmore
          · rw [List.mem_singleton.mp hlast]
            exact .inr ⟨List.mem_concat_self, hc⟩

/-- The same ear behind other prose. -/
def behind (front : List Char) (ear : Ear) : Ear := { ear with said := front ++ ear.said }

section Behind
variable {front : List Char} (hfront : isSettled front = true)
include hfront

theorem settle_behind (ear : Ear) : (ear.behind front).settle = front ++ ear.settle := by
  have hgap : gap (front ++ ear.said) ear.run = gap ear.said ear.run := by
    rw [gap, isSettled_append hfront, gap]
  rw [settle, behind, hgap, List.append_assoc, settle]

theorem hear_behind (ear : Ear) (c : Char) : (ear.behind front).hear c = (ear.hear c).behind front := by
  have hsettle := settle_behind hfront ear
  unfold hear
  rw [hsettle]
  split_ifs <;> simp_all [behind]

/-- Settled prose in front changes nothing of what is said behind it. -/
theorem foldl_behind (ear : Ear) (cs : List Char) :
    cs.foldl hear (ear.behind front) = (cs.foldl hear ear).behind front := by
  induction cs generalizing ear with
  | nil => rfl
  | cons c rest ih => rw [List.foldl_cons, hear_behind hfront, ih, List.foldl_cons]

end Behind

/-- A word says itself. -/
theorem foldl_word {word : List Char} (hremark : ear.remark = false) (hsome : word ≠ [])
    (hword : ∀ c ∈ word, isBlank c = false ∧ c ≠ '%') :
    word.foldl hear ear = { said := ear.settle ++ word } := by
  induction word generalizing ear with
  | nil => exact absurd rfl hsome
  | cons c rest ih =>
      obtain ⟨hblank, hpercent⟩ := hword c List.mem_cons_self
      have hfirst : ear.hear c = { said := ear.settle ++ [c] } := by simp [hear, hremark, hblank, hpercent]
      rw [List.foldl_cons, hfirst]
      cases rest with
      | nil => rfl
      | cons c' rest =>
          rw [ih rfl (by simp) fun c hc => hword c (List.mem_cons_of_mem _ hc), settle_of_run_eq_nil rfl,
            ← List.append_cons]

theorem foldl_blanks {blanks : List Char} (hremark : ear.remark = false)
    (hblanks : ∀ c ∈ blanks, isBlank c = true) :
    blanks.foldl hear ear = { ear with run := ear.run ++ blanks } := by
  induction blanks generalizing ear with
  | nil => simp
  | cons c rest ih =>
      have hfirst : ear.hear c = { ear with run := ear.run ++ [c] } := by
        simp [hear, hremark, hblanks c List.mem_cons_self]
      have hrest : rest.foldl hear { ear with run := ear.run ++ [c] } =
          { ear with run := ear.run ++ [c] ++ rest } :=
        ih hremark fun c hc => hblanks c (List.mem_cons_of_mem _ hc)
      rw [List.foldl_cons, hfirst, hrest, List.append_cons ear.run c rest]

/-- A comment says nothing up to the line break behind it. -/
theorem foldl_remark (hremark : ear.remark = true) (cs : List Char) :
    cs.foldl hear ear = (cs.dropWhile fun c => !isLineBreak c).foldl hear ear := by
  induction cs with
  | nil => rfl
  | cons c rest ih =>
      cases hc : isLineBreak c with
      | true => rw [List.dropWhile_cons_of_neg (by simp [hc])]
      | false =>
          have hfirst : ear.hear c = ear := by simp [hear, hremark, hc]
          rw [List.dropWhile_cons_of_pos (by simp [hc]), List.foldl_cons, hfirst, ih]

/-- Behind a word a comment only puts off what comes next. -/
theorem foldl_behindComment (said : List Char) (hsome : behindComment cs ≠ []) :
    cs.foldl hear { said := said } = (behindComment cs).foldl hear { said := said } := by
  rw [behindComment] at hsome ⊢
  split
  next hhead =>
    obtain ⟨rest, rfl⟩ := List.head?_eq_some_iff.mp hhead
    have hopened : hear { said := said } '%' = { said := said, remark := true } := by
      simp [hear, settle_of_run_eq_nil, show isBlank '%' = false by decide]
    rw [if_pos hhead, List.dropWhile_cons_of_pos (by decide)] at hsome
    rw [List.dropWhile_cons_of_pos (by decide), List.foldl_cons, hopened, foldl_remark rfl]
    have hbreak : ∀ c ∈ (rest.dropWhile fun c => !isLineBreak c).head?, isLineBreak c = true := by
      intro c hc
      simpa using of_mem_head?_dropWhile hc
    obtain ⟨c, tail, htail⟩ := List.exists_cons_of_ne_nil hsome
    rw [htail] at hbreak ⊢
    have hclosed : hear { said := said, remark := true } c = hear { said := said } c := by
      simp [hear, hbreak c rfl, isBlank_of_isLineBreak (hbreak c rfl)]
    rw [List.foldl_cons, hclosed, List.foldl_cons]
  next => rfl

/-- What stands behind a word is said as it would be alone, with one blank before it. -/
theorem foldl_separator {said after : List Char} (hsaid : isSettled said = false)
    (hafter : ∀ c ∈ after.head?, isBlank c = true ∨ c = '%') (hwords : words (withoutComments after) ≠ []) :
    isBlank (separator after) = true ∧
      after.foldl hear { said := said } = (listen after).behind (said ++ [separator after]) := by
  have hsome : behindComment after ≠ [] := by
    intro hnil
    apply hwords
    rw [← withoutComments_behindComment, hnil]
    exact words_nil
  have hhead := isBlank_of_mem_behindComment hafter
  rw [← withoutComments_behindComment] at hwords
  rw [foldl_behindComment said hsome, listen, foldl_behindComment [] hsome, separator]
  generalize behindComment after = next at hsome hhead hwords
  have hsplit := List.takeWhile_append_dropWhile (p := isBlank) (l := next)
  have hblanks : ∀ c ∈ next.takeWhile isBlank, isBlank c = true := fun c hc => List.mem_takeWhile_imp hc
  have hrun : next.takeWhile isBlank ≠ [] := by
    obtain ⟨c, rest, rfl⟩ := List.exists_cons_of_ne_nil hsome
    rw [List.takeWhile_cons_of_pos (hhead c rfl)]
    simp
  have hstop : ∀ c ∈ (next.dropWhile isBlank).head?, isBlank c = false := fun c => of_mem_head?_dropWhile
  generalize next.takeWhile isBlank = run at hsplit hblanks hrun ⊢
  generalize next.dropWhile isBlank = tail at hsplit hstop
  have hgap := gap_of_run hsaid hrun
  have hblank := isBlank_blankOfRun hblanks
  have hsettled : isSettled (said ++ [blankOfRun run]) = true := isSettled_concat.trans hblank
  refine ⟨hblank, ?_⟩
  cases tail with
  | nil =>
      -- blanks alone have no words
      have hpercent : '%' ∉ run := fun hmem => ne_percent_of_isBlank (hblanks '%' hmem) rfl
      rw [← hsplit, List.append_nil, withoutComments_of_notMem hpercent] at hwords
      have hnone : words ([] ++ run) = words [] := words_append_blanks hblanks
      exact absurd (hnone.trans words_nil) hwords
  | cons c tail =>
      have hc := hstop c rfl
      have hsilent : gap [] run = [] := gap_of_isSettled rfl run
      have hnext : hear { said := said, run := run } c =
          (hear { run := run } c).behind (said ++ [blankOfRun run]) := by
        by_cases hpercent : c = '%'
        · simp [hear, behind, settle, hgap, hsilent, hpercent, show isBlank '%' = false by decide]
        · simp [hear, behind, settle, hgap, hsilent, hpercent, hc]
      rw [← hsplit, List.foldl_append, List.foldl_append, foldl_blanks rfl hblanks, foldl_blanks rfl hblanks,
        List.foldl_cons, List.foldl_cons]
      exact (congrArg (tail.foldl hear) hnext).trans (foldl_behind hsettled _ tail)

/-- A word is said behind the words before it, and before the next one stands the blank of the run between. -/
theorem exists_settle_listen {before word after : List Char} (hat : IsWordAt before word after)
    (hwords : words (withoutComments after) ≠ []) :
    ∃ front back, (listen (before ++ word ++ after)).settle = front ++ word ++ separator after :: back ∧
      isSettled front = true ∧ words front = words (withoutComments before) ∧
        words back = words (withoutComments after) := by
  have hremark := remark_listen hat.outside
  have hsaid : isSettled ((listen before).settle ++ word) = false := by
    obtain ⟨initial, c, rfl⟩ := (List.eq_nil_or_concat' word).resolve_left hat.ne_nil
    rw [← List.append_assoc, isSettled_concat]
    exact (hat.solid c List.mem_concat_self).1
  obtain ⟨hblank, hafter⟩ := foldl_separator hsaid hat.ended hwords
  have hsettled : isSettled ((listen before).settle ++ word ++ [separator after]) = true :=
    isSettled_concat.trans hblank
  refine ⟨(listen before).settle, (listen after).settle, ?_, ?_, words_listen before, words_listen after⟩
  · have hlisten : listen (before ++ word ++ after) = after.foldl hear (word.foldl hear (listen before)) := by
      rw [listen, List.foldl_append, List.foldl_append, listen]
    rw [hlisten, foldl_word hremark hat.ne_nil hat.solid, hafter, settle_behind hsettled, List.append_assoc,
      List.singleton_append]
  · rw [isSettled_listen hremark, hat.settled]

/-- A neat text without comments is what is said of it. -/
theorem settle_listen_of_isNeat (h : IsNeat cs) (hpercent : '%' ∉ cs) :
    (listen cs).settle = cs ∧ (listen cs).remark = false ∧ (isSettled cs = false → (listen cs).run = []) := by
  induction cs using List.reverseRecOn with
  | nil => exact ⟨rfl, rfl, fun _ => rfl⟩
  | append_singleton cs c ih =>
      obtain ⟨hneat, hopen⟩ := h.of_concat
      obtain ⟨hsettle, hremark, hrun⟩ := ih hneat fun hmem => hpercent (List.mem_append_left _ hmem)
      have hc : c ≠ '%' := by
        rintro rfl
        exact hpercent List.mem_concat_self
      rw [listen_concat]
      cases hblank : isBlank c with
      | true =>
          have hnone := hrun (hopen hblank)
          have hsaid : (listen cs).said = cs := (settle_of_run_eq_nil hnone).symm.trans hsettle
          have hhear : (listen cs).hear c = { said := cs, run := [c] } := by
            simp [hear, hremark, hblank, hnone, hsaid]
          rw [hhear]
          refine ⟨?_, rfl, ?_⟩
          · simp [settle, gap, hopen hblank, blankOfRun]
          · rw [isSettled_concat, hblank]
            simp
      | false =>
          have hhear : (listen cs).hear c = { said := cs ++ [c] } := by
            simp [hear, hremark, hblank, hc, hsettle]
          rw [hhear]
          exact ⟨settle_of_run_eq_nil rfl, rfl, fun _ => rfl⟩

/-- What is said of a whole text, trimmed. -/
def prose (cs : List Char) : List Char := trimChars (listen cs).settle

/-- Nothing is said before the first word, so there is nothing to trim there. -/
theorem prose_eq (cs : List Char) : prose cs = (listen cs).settle.rdropWhile isBlank :=
  (isSound_listen cs).neat_settle.trimChars_eq

theorem isNeat_prose (cs : List Char) : IsNeat (prose cs) := (isSound_listen cs).neat_settle.trim

theorem mem_prose (h : c ∈ prose cs) : c = ' ' ∨ c ∈ cs ∧ c ≠ '%' := by
  rw [prose_eq] at h
  exact (keeps_listen cs).settle c ((List.rdropWhile_prefix _ _).subset h)

theorem respaces_prose (cs : List Char) : Respaces cs (prose cs) where
  kept := by rw [prose_eq, words_rdropWhile, words_listen]
  first := (isNeat_prose cs).first
  last := isBlank_getLast_of_trimmed _
  single := (isNeat_prose cs).single
  place _ _ _ := exists_isWordAt
  between before word after hcs hat hwords := by
    subst hcs
    obtain ⟨front, back, hsettle, hfront, hbefore, hafter⟩ := exists_settle_listen hat hwords
    refine ⟨front, back.rdropWhile isBlank, ?_, hfront, hbefore, (words_rdropWhile back).trans hafter⟩
    rw [prose_eq, hsettle, List.append_cons, rdropWhile_append (hafter ▸ hwords), ← List.append_cons]

theorem prose_prose (cs : List Char) : prose (prose cs) = prose cs := by
  have hpercent : '%' ∉ prose cs := fun hmem => (mem_prose hmem).elim (by decide) fun h => h.2 rfl
  rw [prose_eq (prose cs), (settle_listen_of_isNeat (isNeat_prose cs) hpercent).1, prose_eq,
    List.rdropWhile_idempotent]

end Ear
end TexProse
