import TexProse.Proofs.Latex.Meaning
import TexProse.Proofs.Text.Ear

/-!
# Words and blanks without markup

A text of words, blanks and comments reads as its words, with one blank between two of them: a scan of such a
text goes on as an `Ear` does, and its prose is what the ear says, trimmed. Main statement: `words_of_read`.
-/

namespace TexProse

namespace Latex
variable {π : Type} [Package π] {settings : Settings} {nested : Nested π} {source : Source} {session : Session π}
variable {before after : List Char} {c : Char}

omit [Package π] in
theorem isSpaced_ofList (cs : List Char) : isSpaced (String.ofList cs) = isSettled cs := by
  rw [isSpaced, String.toList_ofList, isSettled]

/-- What a run of blanks adds to the prose. -/
theorem getD_blankFor {said run : List Char} (hrun : run ≠ []) :
    (blankFor (String.ofList said) (String.ofList run)).getD "" = String.ofList (Ear.gap said run) := by
  have hblank : blankOf (String.ofList run) = String.ofList [blankOfRun run] := by
    match run with
    | [] => exact absurd rfl hrun
    | [c] => simp [blankOf, blankOfRun]
    | c :: c' :: rest => simp [blankOf, blankOfRun]
  rw [blankFor, isSpaced_ofList]
  cases hsaid : isSettled said with
  | true => simp [Ear.gap_of_isSettled hsaid]
  | false => simp [Ear.gap_of_run hsaid hrun, hblank]

/-- The mode of a scan that has come to an offset with such an ear. -/
def Mode.ofEar (offset : Nat) (ear : Ear) : Mode :=
  if ear.remark then .comment else if ear.run = [] then .text else .space (offset - ear.run.length)

/-- A scan stands where an ear has come to. -/
structure Hearkens (settings : Settings) (nested : Nested π) (source : Source) (session : Session π)
    (before after : List Char) (ear : Ear) : Prop where
  stands : Stands settings nested source session before after (Mode.ofEar before.length ear)
    ⟨String.ofList ear.said, session.packages⟩
  sound : ear.IsSound
  run : ear.run <:+ before

namespace Hearkens
variable {ear : Ear}

theorem start : Hearkens settings nested source session [] source.chars.toList {} :=
  ⟨stands_start, Ear.isSound_listen [], List.nil_suffix⟩

/-- What is still open settles as the ear does. -/
theorem settle (h : Hearkens settings nested source session before after ear) :
    (Mode.ofEar before.length ear).settle ⟨source, before.length⟩
        ⟨String.ofList ear.said, session.packages⟩ =
      ⟨String.ofList ear.settle, session.packages⟩ := by
  rw [Mode.ofEar]
  split_ifs with hremark hrun
  · rw [Ear.settle_of_run_eq_nil (h.sound.remark hremark)]
    rfl
  · rw [Ear.settle_of_run_eq_nil hrun]
    rfl
  · obtain ⟨earlier, hbefore⟩ := h.run
    have hsplit := h.stands.1
    rw [← hbefore] at hsplit ⊢
    have hslice := Source.slice_of_split hsplit List.length_append
    rw [List.length_append, Nat.add_sub_cancel, Mode.settle, Cursor.textSince, ← List.length_append, hslice,
      Speech.blank, Speech.add, getD_blankFor hrun, ← String.ofList_append]
    rfl

theorem arrives (h : Hearkens settings nested source session before after ear) :
    Arrives settings nested source session before after (Mode.ofEar before.length ear)
      ⟨String.ofList ear.settle, session.packages⟩ :=
  ⟨_, h.stands, h.settle⟩

section Hear
variable (h : Hearkens settings nested source session before (c :: after) ear)
include h

theorem char_eq : Cursor.char ⟨source, before.length⟩ = c := (Source.char_of_split h.stands.1).1

/-- Outside comments a character that is no blank ends what was open. -/
theorem admits (hremark : ear.remark = false) (hc : isBlank c = false) :
    (Mode.ofEar before.length ear).admits ⟨source, before.length⟩ = true := by
  by_cases hrun : ear.run = []
  · simp [Mode.ofEar, hremark, hrun, Mode.admits]
  · simp [Mode.ofEar, hremark, hrun, Mode.admits, h.char_eq, hc]

/-- A scan goes on as its ear does. -/
theorem hear (hname : c ≠ '\\') (hquote : c ≠ '"') (hgroup : c ≠ '{') :
    Hearkens settings nested source session (before ++ [c]) after (ear.hear c) := by
  have hchange := ear.change_hear c
  have hsound := hchange.isSound h.sound
  have hstands := h.stands
  have hrun := h.run
  generalize ear.hear c = ear' at hchange hsound
  refine ⟨?_, hsound, ?_⟩
  · cases hchange with
    | endRemark hremark hc =>
        have hopened := h.arrives.opening
          (by simp [Mode.ofEar, hremark, Mode.admits, h.char_eq, hc])
          (Mode.ofChar_of_isBlank _ (isBlank_of_isLineBreak hc)) (by simp)
        rw [Ear.settle_of_run_eq_nil (h.sound.remark hremark)] at hopened
        simpa [Mode.ofEar] using hopened
    | remark hremark hc =>
        simp only [Mode.ofEar, hremark, if_true] at hstands ⊢
        exact hstands.remark hc
    | blank hremark hc =>
        by_cases hnone : ear.run = []
        · have hopened := h.arrives.opening
            (by simp [Mode.ofEar, hremark, hnone, Mode.admits]) (Mode.ofChar_of_isBlank _ hc) (by simp)
          rw [Ear.settle_of_run_eq_nil hnone] at hopened
          simpa [Mode.ofEar, hremark, hnone] using hopened
        · simp only [Mode.ofEar, hremark, hnone, Bool.false_eq_true, if_false] at hstands
          simpa [Mode.ofEar, hremark] using hstands.blank hc
    | openRemark hremark hc =>
        subst hc
        have hopened := h.arrives.opening (h.admits hremark (by decide))
          (show Mode.ofChar before.length '%' = .comment from rfl) (by simp)
        simpa [Mode.ofEar] using hopened
    | say hremark hblank hc =>
        have hmode : Mode.ofChar before.length c = .text := by
          simp [Mode.ofChar, hblank, hname, hquote, hgroup, hc]
        have hsaid := h.arrives.char (h.admits hremark hblank) hmode
        simpa [Mode.ofEar, Speech.add, String.ofList_append] using hsaid
  · cases hchange with
    | endRemark hremark hc => exact List.suffix_append before [c]
    | remark hremark hc =>
        rw [h.sound.remark hremark]
        exact List.nil_suffix
    | blank hremark hc =>
        obtain ⟨earlier, rfl⟩ := hrun
        exact ⟨earlier, (List.append_assoc _ _ _).symm⟩
    | openRemark hremark hc => exact List.nil_suffix
    | say hremark hblank hc => exact List.nil_suffix

end Hear

/-- A scan comes to the end of a text of words, blanks and comments. -/
theorem foldl {cs : List Char} (h : Hearkens settings nested source session before (cs ++ after) ear)
    (hplain : ∀ c ∈ cs, c ≠ '\\' ∧ c ≠ '"' ∧ c ≠ '{') :
    Hearkens settings nested source session (before ++ cs) after (cs.foldl Ear.hear ear) := by
  induction cs generalizing before ear with
  | nil => rwa [List.append_nil]
  | cons c rest ih =>
      obtain ⟨hname, hquote, hgroup⟩ := hplain c List.mem_cons_self
      rw [List.append_cons, List.foldl_cons]
      exact ih (h.hear hname hquote hgroup) fun c hc => hplain c (List.mem_cons_of_mem _ hc)

end Hearkens

theorem rests_ofEar (offset : Nat) (ear : Ear) : (Mode.ofEar offset ear).rests = true := by
  rw [Mode.ofEar]
  split_ifs <;> rfl

/-- The document can be read, and this is its prose. -/
def Document.HasProse (settings : Settings) (packages : Chain π) (text prose : String) : Prop :=
  ∃ document map, (withPackages settings packages text).read = (.ok (), document) ∧ document.map = .ok map ∧
    map.prose = .ok prose

/-- The prose of a text of words, blanks and comments is what an ear hears of it. -/
theorem hasProse_of_plain (settings : Settings) (packages : Chain π) {text : String}
    (hplain : ∀ c ∈ text.toList, c ≠ '\\' ∧ c ≠ '"' ∧ c ≠ '{') :
    Document.HasProse settings packages text (String.ofList (Ear.prose text.toList)) := by
  have hchars : (Source.ofString text).chars.toList = text.toList ++ [] := by simp
  have hstart := @Hearkens.start π _ settings (nestedProse settings settings.maxNesting) (.ofString text)
    { packages := packages }
  rw [hchars] at hstart
  obtain ⟨segments, reading, ribbon, hscan, hprojects, hspeech⟩ :=
    (hstart.foldl hplain).arrives.outcome_scan (rests_ofEar _ _)
  rw [Document.HasProse, Document.read_withPackages, documentTagger, hscan]
  refine ⟨_, _, rfl, rfl, ?_⟩
  rw [hprojects.prose, hspeech.prose, trim, String.toList_ofList, Ear.prose, Ear.listen]

/-- A text of words, blanks and comments can be read. Its prose is the text respaced, and reads as itself. -/
theorem words_of_read (settings : Settings) (packages : Chain π) {text : String} (hname : '\\' ∉ text.toList)
    (hquote : '"' ∉ text.toList) (hgroup : '{' ∉ text.toList) :
    ∃ plain, Document.HasProse settings packages text plain ∧ Respaces text.toList plain.toList ∧
      Document.HasProse settings packages plain plain := by
  have hplain : ∀ c ∈ text.toList, c ≠ '\\' ∧ c ≠ '"' ∧ c ≠ '{' := fun c hc =>
    ⟨ne_of_mem_of_not_mem hc hname, ne_of_mem_of_not_mem hc hquote, ne_of_mem_of_not_mem hc hgroup⟩
  have hagain : ∀ c ∈ (String.ofList (Ear.prose text.toList)).toList, c ≠ '\\' ∧ c ≠ '"' ∧ c ≠ '{' := by
    intro c hc
    rw [String.toList_ofList] at hc
    rcases Ear.mem_prose hc with rfl | ⟨hmem, -⟩
    · decide
    · exact hplain c hmem
  have hprose := hasProse_of_plain settings packages hagain
  rw [String.toList_ofList, Ear.prose_prose] at hprose
  refine ⟨_, hasProse_of_plain settings packages hplain, ?_, hprose⟩
  rw [String.toList_ofList]
  exact Ear.respaces_prose text.toList

/-- Comments stand behind a word, behind a blank and at the end, and a run of two blanks behind a comment. -/
theorem words_of_read_comment :
    '\\' ∉ "a\t%x y\n\n b%z\n c%\n% \nd %".toList ∧ '"' ∉ "a\t%x y\n\n b%z\n c%\n% \nd %".toList ∧
      '{' ∉ "a\t%x y\n\n b%z\n c%\n% \nd %".toList ∧
      ∃ plain, Document.HasProse {} (Chain.bundled {}) "a\t%x y\n\n b%z\n c%\n% \nd %" plain ∧
        words plain.toList = [['a'], ['b'], ['c'], ['d']] ∧
        (∃ front back, plain.toList = front ++ ['b'] ++ ' ' :: back ∧ isSettled front = true ∧
          words front = [['a']] ∧ words back = [['c'], ['d']]) ∧
        Document.HasProse {} (Chain.bundled {}) plain plain := by
  have hname : '\\' ∉ "a\t%x y\n\n b%z\n c%\n% \nd %".toList := by decide
  have hquote : '"' ∉ "a\t%x y\n\n b%z\n c%\n% \nd %".toList := by decide
  have hgroup : '{' ∉ "a\t%x y\n\n b%z\n c%\n% \nd %".toList := by decide
  obtain ⟨plain, hprose, hrespaces, hagain⟩ := words_of_read {} (Chain.bundled {}) hname hquote hgroup
  have hat : IsWordAt "a\t%x y\n\n ".toList ['b'] "%z\n c%\n% \nd %".toList := by
    have hafter : "%z\n c%\n% \nd %".toList.head? = some '%' := by decide +kernel
    refine ⟨by decide, by decide, by decide, ?_, ?_⟩
    · intro c hc
      rw [List.mem_singleton.mp hc]
      decide
    · intro c hc
      rw [hafter] at hc
      exact .inr (Option.some.inj hc).symm
  obtain ⟨front, back, hplain, hsettled, hfront, hback⟩ :=
    hrespaces.between _ _ _ (by decide +kernel) hat (by decide +kernel)
  refine ⟨hname, hquote, hgroup, plain, hprose, hrespaces.kept.trans (by decide +kernel), ?_, hagain⟩
  exact ⟨front, back, hplain, hsettled, hfront.trans (by decide +kernel), hback.trans (by decide +kernel)⟩

end Latex
end TexProse
