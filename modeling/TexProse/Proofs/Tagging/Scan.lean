import TexProse.Proofs.Tagging.Progress
import TexProse.Tagging.Tagger

/-!
# Runs of a scan

`Reaches` collects what a scan has read and what its tagger remembers after a number of characters, and
`Completes` what is left at the end. A scan that succeeds has completed, and one that fails has failed at
the character it had reached. For a tagger that looks at the text alone the converse holds as well.
-/

namespace TexProse

namespace Action
variable {σ α β : Type}

/-- What an action comes to from a state, and the state behind it. -/
def outcome (action : Action σ α) (state : σ) : Except Failure α × σ := action.run.run state

@[simp] theorem outcome_pure (a : α) (state : σ) :
    outcome (pure a : Action σ α) state = (.ok a, state) := rfl

theorem outcome_bind (action : Action σ α) (next : α → Action σ β) (state : σ) :
    outcome (action >>= next) state =
      match outcome action state with
      | (.ok a, middle) => outcome (next a) middle
      | (.error failure, middle) => (.error failure, middle) := by
  change (match outcome action state with
    | (result, middle) => (ExceptT.bindCont next result).run middle) = _
  rcases outcome action state with ⟨_ | _, _⟩ <;> rfl

theorem outcome_bind_ok {action : Action σ α} {next : α → Action σ β} {state state' : σ} {b : β} :
    outcome (action >>= next) state = (.ok b, state') ↔
      ∃ a middle, outcome action state = (.ok a, middle) ∧
        outcome (next a) middle = (.ok b, state') := by
  rw [outcome_bind]
  rcases outcome action state with ⟨_ | a, middle⟩
  · simp
  · simp

theorem outcome_bind_error {action : Action σ α} {next : α → Action σ β} {state state' : σ}
    {failure : Failure} :
    outcome (action >>= next) state = (.error failure, state') ↔
      outcome action state = (.error failure, state') ∨
        ∃ a middle, outcome action state = (.ok a, middle) ∧
          outcome (next a) middle = (.error failure, state') := by
  rw [outcome_bind]
  rcases outcome action state with ⟨_ | a, middle⟩ <;> simp

end Action

namespace Source

theorem take_succ {source : Source} {count : Nat} (h : count < source.length) :
    source.chars.toList.take (count + 1) =
      source.chars.toList.take count ++ [Cursor.char ⟨source, count⟩] := by
  have hchar : source.chars.toList[count]? = some (Cursor.char ⟨source, count⟩) := by
    have hsize : count < source.chars.size := h
    simp [Cursor.char, Source.char?, hsize]
  rw [List.take_add_one, hchar, Option.toList_some]

theorem take_length (source : Source) :
    source.chars.toList.take source.length = source.chars.toList :=
  List.take_of_length_le (Nat.le_refl _)

/-- A text around one of its characters. -/
theorem eq_take_append {source : Source} {count : Nat} (h : count < source.length) :
    source.chars.toList = source.chars.toList.take count ++
      Cursor.char ⟨source, count⟩ :: source.chars.toList.drop (count + 1) := by
  calc source.chars.toList
      = source.chars.toList.take (count + 1) ++ source.chars.toList.drop (count + 1) :=
        (List.take_append_drop _ _).symm
    _ = source.chars.toList.take count ++
        Cursor.char ⟨source, count⟩ :: source.chars.toList.drop (count + 1) := by
        rw [take_succ h, List.append_assoc, List.singleton_append]

end Source

namespace Tagger
variable {τ σ : Type} [DecidableEq τ]

theorem outcome_visit (handler : Window τ → Action σ (List (Edit τ))) (window : Window τ)
    (state : σ) :
    (visit handler window).outcome state =
      match (handler window).outcome state with
      | (.ok edits, state') => (.ok (window.editAll edits).segments, state')
      | (.error cause, state') => (.error (.within window.location cause), state') := by
  change (match (Action.outcome (do
      let edits ← handler window
      return (window.editAll edits).segments : Action σ (Segmentation τ)) state) with
    | (result, state') =>
      (result.mapError (fun failure => Failure.within window.location failure), state')) = _
  rw [Action.outcome_bind]
  rcases (handler window).outcome state with ⟨_ | _, _⟩ <;> rfl

theorem outcome_visit_ok {handler : Window τ → Action σ (List (Edit τ))} {window : Window τ}
    {state state' : σ} {segments : Segmentation τ} :
    (visit handler window).outcome state = (.ok segments, state') ↔
      ∃ edits, (handler window).outcome state = (.ok edits, state') ∧
        (window.editAll edits).segments = segments := by
  rw [outcome_visit]
  rcases (handler window).outcome state with ⟨_ | _, _⟩ <;> simp [and_comm]

theorem outcome_visit_error {handler : Window τ → Action σ (List (Edit τ))} {window : Window τ}
    {state state' : σ} {failure : Failure} :
    (visit handler window).outcome state = (.error failure, state') ↔
      ∃ cause, (handler window).outcome state = (.error cause, state') ∧
        Failure.within window.location cause = failure := by
  rw [outcome_visit]
  rcases (handler window).outcome state with ⟨_ | _, _⟩ <;> simp [and_comm]

section Run
variable (tagger : Tagger τ σ) (source : Source) (initial : σ)

/-- What a scan has read and what its tagger remembers after the first `count` characters. -/
inductive Reaches : Nat → Ribbon τ → σ → Prop
  | start : Reaches 0 [{ tag := tagger.start }] initial
  | step {count : Nat} {ribbon : Ribbon τ} {state state' : σ} {window : Window τ}
      {edits : List (Edit τ)} (before : Reaches count ribbon state)
      (hcount : count < source.length) (hcursor : window.toCursor = ⟨source, count⟩)
      (hlist : window.segments.toList = ribbon.boundaries)
      (hedits : (tagger.onChar window).outcome state = (.ok edits, state')) :
      Reaches (count + 1) (ribbon.lay edits (Cursor.char ⟨source, count⟩)) state'

/-- What a scan leaves. -/
inductive Completes : Ribbon τ → σ → Prop
  | empty (hlength : source.length = 0) : Completes [{ tag := tagger.start }] initial
  | ended {ribbon : Ribbon τ} {state state' : σ} {window : Window τ} {edits : List (Edit τ)}
      (before : Reaches tagger source initial source.length ribbon state)
      (hlength : 0 < source.length) (hcursor : window.toCursor = ⟨source, source.length - 1⟩)
      (hlist : window.segments.toList = ribbon.settle.boundaries)
      (hedits : (tagger.onEnd window).outcome state = (.ok edits, state')) :
      Completes (ribbon.settle.close edits) state'

/-- How a scan fails. -/
inductive Fails : Failure → σ → Prop
  | step {count : Nat} {ribbon : Ribbon τ} {state state' : σ} {window : Window τ} {cause : Failure}
      (before : Reaches tagger source initial count ribbon state)
      (hcount : count < source.length) (hcursor : window.toCursor = ⟨source, count⟩)
      (hlist : window.segments.toList = ribbon.boundaries)
      (hcause : (tagger.onChar window).outcome state = (.error cause, state')) :
      Fails (.within (source.location count) cause) state'
  | ended {ribbon : Ribbon τ} {state state' : σ} {window : Window τ} {cause : Failure}
      (before : Reaches tagger source initial source.length ribbon state)
      (hlength : 0 < source.length) (hcursor : window.toCursor = ⟨source, source.length - 1⟩)
      (hlist : window.segments.toList = ribbon.settle.boundaries)
      (hcause : (tagger.onEnd window).outcome state = (.error cause, state')) :
      Fails (.within (source.location (source.length - 1)) cause) state'

end Run

variable {tagger : Tagger τ σ} {source : Source} {initial : σ}

theorem Reaches.isSolid {count : Nat} {ribbon : Ribbon τ} {state : σ}
    (h : Reaches tagger source initial count ribbon state) : ribbon.IsSolid := by
  induction h with
  | start => exact ⟨by simp, by simp⟩
  | step before hcount hcursor hlist hedits ih => exact ih.lay _ _

theorem Reaches.le_length {count : Nat} {ribbon : Ribbon τ} {state : σ}
    (h : Reaches tagger source initial count ribbon state) : count ≤ source.length := by
  cases h with
  | start => exact Nat.zero_le _
  | step before hcount hcursor hlist hedits => exact hcount

omit [DecidableEq τ] in
/-- Some segmentation shows a ribbon. -/
theorem exists_segments {ribbon : Ribbon τ} (h : ribbon.IsSolid) :
    ∃ segments : Segmentation τ, segments.toList = ribbon.boundaries := by
  have hne : ribbon.boundaries ≠ [] := by
    intro hnil
    apply h.ne_nil
    rw [← List.length_eq_zero_iff, ← Ribbon.length_boundaries, hnil, List.length_nil]
  obtain ⟨first, others, hcons⟩ := List.exists_cons_of_ne_nil hne
  exact ⟨⟨[], first, others⟩, hcons.symm⟩

/-- A scan has read what stands before its place. -/
theorem Reaches.chars {count : Nat} {ribbon : Ribbon τ} {state : σ}
    (h : Reaches tagger source initial count ribbon state) :
    ribbon.chars = source.chars.toList.take count := by
  induction h with
  | start => rfl
  | step before hcount hcursor hlist hedits ih =>
      rw [Ribbon.chars_lay before.isSolid, ih, Source.take_succ hcount]

theorem Reaches.length_chars {count : Nat} {ribbon : Ribbon τ} {state : σ}
    (h : Reaches tagger source initial count ribbon state) : ribbon.chars.length = count := by
  rw [h.chars, List.length_take]
  exact Nat.min_eq_left h.le_length

/-- The ribbon as the segmentation shows it after `count` characters. -/
def shown (source : Source) (count : Nat) (ribbon : Ribbon τ) : Ribbon τ :=
  if count < source.length then ribbon else ribbon.settle

theorem toList_lay (window : Window τ) {ribbon : Ribbon τ} {count : Nat} (hsolid : ribbon.IsSolid)
    (hlength : ribbon.chars.length = count) (hcursor : window.toCursor = ⟨source, count⟩)
    (hlist : window.segments.toList = ribbon.boundaries) (edits : List (Edit τ)) (c : Char) :
    (window.editAll edits).segments.toList =
      (shown source (count + 1) (ribbon.lay edits c)).boundaries := by
  have hsource : window.source = source := congrArg Cursor.source hcursor
  have hoffset : window.offset = ribbon.chars.length :=
    (congrArg Cursor.offset hcursor).trans hlength.symm
  have hstart : window.segments.toList = Progress.boundaries ⟨ribbon, none⟩ window.source.length := by
    simp [hlist, Progress.boundaries, Progress.boundaryAhead]
  have hsolid' : (edits.foldl Progress.edit ⟨ribbon, none⟩).ribbon.IsSolid := by
    rw [Ribbon.foldl_edit_ribbon]
    exact hsolid.foldl_edit edits
  rw [Progress.toList_editAll hsolid hoffset hstart, Progress.boundaries_finish hsolid' c, hsource,
    Ribbon.foldl_edit_ribbon, Ribbon.chars_foldl_edit, hlength, shown, Ribbon.lay]
  by_cases hmore : count + 1 < source.length
  · rw [if_neg (by omega), if_pos hmore]
  · rw [if_pos (by omega), if_neg hmore]

theorem scanTo_succ (tagger : Tagger τ σ) (source : Source) (count : Nat) :
    tagger.scanTo source (count + 1) =
      tagger.scanTo source count >>= fun segments => tagger.step source segments count := by
  simp [scanTo, List.range_succ, List.foldlM_append]

/-- A scan that has come to a character has read all before it, and what each of its steps keeps holds
of what it has read. -/
theorem exists_reaches_keeping (kept : Ribbon τ → Prop) {count : Nat} {segments : Segmentation τ} {state : σ}
    (hcount : count ≤ source.length) (hstart : kept [{ tag := tagger.start }])
    (hstep : ∀ offset < count, ∀ before middle edits after,
      (tagger.scanTo source offset).outcome initial = (.ok before, middle) →
      (tagger.onChar ⟨⟨source, offset⟩, before.seek offset⟩).outcome middle = (.ok edits, after) →
      ∀ ribbon, kept ribbon → kept (ribbon.lay edits (Cursor.char ⟨source, offset⟩)))
    (h : (tagger.scanTo source count).outcome initial = (.ok segments, state)) :
    ∃ ribbon, Reaches tagger source initial count ribbon state ∧
      segments.toList = (shown source count ribbon).boundaries ∧ kept ribbon := by
  induction count generalizing segments state with
  | zero =>
      obtain ⟨rfl, rfl⟩ : Segmentation.single tagger.start = segments ∧ initial = state := by
        simpa [scanTo] using h
      refine ⟨_, .start, ?_, hstart⟩
      rw [shown]
      split <;> rfl
  | succ count ih =>
      rw [scanTo_succ, Action.outcome_bind_ok] at h
      obtain ⟨before, middle, hbefore, hvisit⟩ := h
      obtain ⟨ribbon, hreach, hlist, hkept⟩ := ih (by omega)
        (fun offset ho => hstep offset (Nat.lt_succ_of_lt ho)) hbefore
      rw [shown, if_pos (Nat.lt_of_succ_le hcount)] at hlist
      obtain ⟨edits, hedits, rfl⟩ := outcome_visit_ok.mp hvisit
      have hseek := (Segmentation.toList_seek before count).trans hlist
      exact ⟨_, .step hreach hcount rfl hseek hedits,
        toList_lay ⟨⟨source, count⟩, before.seek count⟩ hreach.isSolid hreach.length_chars rfl hseek edits _,
        hstep count (Nat.lt_succ_self _) before middle edits state hbefore hedits ribbon hkept⟩

/-- A scan that has come to a character has read all before it. -/
theorem exists_reaches {count : Nat} {segments : Segmentation τ} {state : σ}
    (hcount : count ≤ source.length)
    (h : (tagger.scanTo source count).outcome initial = (.ok segments, state)) :
    ∃ ribbon, Reaches tagger source initial count ribbon state ∧
      segments.toList = (shown source count ribbon).boundaries := by
  obtain ⟨ribbon, hreach, hlist, -⟩ :=
    exists_reaches_keeping (fun _ => True) hcount trivial (fun _ _ _ _ _ _ _ _ _ _ => trivial) h
  exact ⟨ribbon, hreach, hlist⟩

theorem fails_of_scanTo {count : Nat} {failure : Failure} {state : σ} (hcount : count ≤ source.length)
    (h : (tagger.scanTo source count).outcome initial = (.error failure, state)) :
    Fails tagger source initial failure state := by
  induction count with
  | zero => simp [scanTo] at h
  | succ count ih =>
      rw [scanTo_succ, Action.outcome_bind_error] at h
      rcases h with h | ⟨before, middle, hbefore, hstep⟩
      · exact ih (by omega) h
      · obtain ⟨ribbon, hreach, hlist⟩ := exists_reaches (by omega) hbefore
        rw [shown, if_pos (Nat.lt_of_succ_le hcount)] at hlist
        obtain ⟨cause, hcause, rfl⟩ := outcome_visit_error.mp hstep
        exact .step hreach hcount rfl ((Segmentation.toList_seek before count).trans hlist) hcause

theorem scan_of_length_eq_zero (hlength : source.length = 0) :
    tagger.scan source = pure (.single tagger.start) := by
  simp [scan, hlength, scanTo]

theorem scan_of_length_pos (hlength : 0 < source.length) :
    tagger.scan source = tagger.scanTo source source.length >>= fun segments =>
      visit tagger.onEnd
        ⟨⟨source, source.length - 1⟩, segments.seek (source.length - 1)⟩ := by
  simp [scan, Nat.ne_of_gt hlength]

theorem toList_close (window : Window τ) {ribbon : Ribbon τ} {state : σ} {edits : List (Edit τ)}
    (hreach : Reaches tagger source initial source.length ribbon state) (hlength : 0 < source.length)
    (hcursor : window.toCursor = ⟨source, source.length - 1⟩)
    (hlist : window.segments.toList = ribbon.settle.boundaries) :
    (window.editAll edits).segments.toList = (ribbon.settle.close edits).boundaries := by
  have hchars : ribbon.settle.chars.length = source.length :=
    (congrArg List.length (Ribbon.chars_settle ribbon)).trans hreach.length_chars
  have hsome : ribbon.settle.chars ≠ [] := List.ne_nil_of_length_pos (hchars ▸ hlength)
  have hfull := hreach.isSolid.full_settle (Ribbon.chars_settle ribbon ▸ hsome)
  have hretake : ribbon.settle.retake.chars.length = source.length - 1 := by
    rw [Ribbon.chars_retake hfull, List.length_dropLast, hchars]
  have hlist' := hlist.trans (Ribbon.boundaries_retake _).symm
  rw [toList_lay window hreach.isSolid.settle.retake hretake hcursor hlist' edits
    (ribbon.settle.chars.getLast hsome), Ribbon.close, List.getLast?_eq_some_getLast hsome, shown,
    if_neg (by omega)]

/-- A scan that succeeds has completed, and what each of its steps and its end keep holds of what it
leaves. -/
theorem exists_completes_keeping (kept : Ribbon τ → Prop) {segments : Segmentation τ} {state : σ}
    (hstart : kept [{ tag := tagger.start }])
    (hstep : ∀ offset < source.length, ∀ before middle edits after,
      (tagger.scanTo source offset).outcome initial = (.ok before, middle) →
      (tagger.onChar ⟨⟨source, offset⟩, before.seek offset⟩).outcome middle = (.ok edits, after) →
      ∀ ribbon, kept ribbon → kept (ribbon.lay edits (Cursor.char ⟨source, offset⟩)))
    (hend : ∀ before middle edits after, 0 < source.length →
      (tagger.scanTo source source.length).outcome initial = (.ok before, middle) →
      (tagger.onEnd ⟨⟨source, source.length - 1⟩, before.seek (source.length - 1)⟩).outcome middle =
        (.ok edits, after) →
      ∀ ribbon, kept ribbon → kept (ribbon.settle.close edits))
    (h : (tagger.scan source).outcome initial = (.ok segments, state)) :
    ∃ ribbon, Completes tagger source initial ribbon state ∧
      segments.toList = ribbon.boundaries ∧ kept ribbon := by
  rcases Nat.eq_zero_or_pos source.length with hlength | hlength
  · rw [scan_of_length_eq_zero hlength] at h
    obtain ⟨rfl, rfl⟩ : Segmentation.single tagger.start = segments ∧ initial = state := by
      simpa using h
    exact ⟨_, .empty hlength, rfl, hstart⟩
  · rw [scan_of_length_pos hlength, Action.outcome_bind_ok] at h
    obtain ⟨before, middle, hbefore, hlast⟩ := h
    obtain ⟨ribbon, hreach, hlist, hkept⟩ :=
      exists_reaches_keeping kept (Nat.le_refl _) hstart hstep hbefore
    rw [shown, if_neg (Nat.lt_irrefl _)] at hlist
    obtain ⟨edits, hedits, rfl⟩ := outcome_visit_ok.mp hlast
    have hseek := (Segmentation.toList_seek before (source.length - 1)).trans hlist
    exact ⟨_, .ended hreach hlength rfl hseek hedits, toList_close _ hreach hlength rfl hseek,
      hend before middle edits state hlength hbefore hedits ribbon hkept⟩

/-- A scan that succeeds has completed. -/
theorem exists_completes {segments : Segmentation τ} {state : σ}
    (h : (tagger.scan source).outcome initial = (.ok segments, state)) :
    ∃ ribbon, Completes tagger source initial ribbon state ∧
      segments.toList = ribbon.boundaries := by
  obtain ⟨ribbon, hcompletes, hlist, -⟩ :=
    exists_completes_keeping (fun _ => True) trivial (fun _ _ _ _ _ _ _ _ _ _ => trivial)
      (fun _ _ _ _ _ _ _ _ _ => trivial) h
  exact ⟨ribbon, hcompletes, hlist⟩

/-- A scan that fails has failed at the character it had reached, or at the end. -/
theorem fails_of_scan {failure : Failure} {state : σ}
    (h : (tagger.scan source).outcome initial = (.error failure, state)) :
    Fails tagger source initial failure state := by
  rcases Nat.eq_zero_or_pos source.length with hlength | hlength
  · rw [scan_of_length_eq_zero hlength] at h
    simp at h
  · rw [scan_of_length_pos hlength, Action.outcome_bind_error] at h
    rcases h with h | ⟨before, middle, hbefore, hend⟩
    · exact fails_of_scanTo (Nat.le_refl _) h
    · obtain ⟨ribbon, hreach, hlist⟩ := exists_reaches (Nat.le_refl _) hbefore
      rw [shown, if_neg (Nat.lt_irrefl _)] at hlist
      obtain ⟨cause, hcause, rfl⟩ := outcome_visit_error.mp hend
      exact .ended hreach hlength rfl
        ((Segmentation.toList_seek before (source.length - 1)).trans hlist) hcause

section Completed
variable {ribbon : Ribbon τ} {state : σ}

/-- Behind the last character the settled ribbon is the text, and none of its segments is empty. -/
theorem Reaches.settled (h : Reaches tagger source initial source.length ribbon state)
    (hlength : 0 < source.length) :
    ribbon.settle.chars = source.chars.toList ∧
      ∀ stretch ∈ ribbon.settle, stretch.chars ≠ [] := by
  have hchars : ribbon.chars = source.chars.toList := h.chars.trans source.take_length
  constructor
  · exact (Ribbon.chars_settle ribbon).trans hchars
  · apply h.isSolid.full_settle
    exact List.ne_nil_of_length_pos (h.length_chars ▸ hlength)

/-- A completed scan has laid the whole text out in segments. -/
theorem Completes.chars (h : Completes tagger source initial ribbon state) :
    ribbon.chars = source.chars.toList := by
  cases h with
  | empty hlength => exact (List.eq_nil_of_length_eq_zero hlength).symm
  | ended before hlength hcursor hlist hedits =>
      obtain ⟨hchars, hfull⟩ := before.settled hlength
      have hsome : source.chars.toList ≠ [] := List.ne_nil_of_length_pos hlength
      have hsplit := (List.dropLast_append_getLast hsome).symm
      rw [Ribbon.close_eq (hchars.trans hsplit), Ribbon.chars_settle,
        Ribbon.chars_lay before.isSolid.settle.retake, Ribbon.chars_retake hfull, hchars, ← hsplit]

/-- A text without characters is one segment. -/
theorem Completes.eq_single (h : Completes tagger source initial ribbon state)
    (hlength : source.length = 0) : ribbon = [{ tag := tagger.start }] := by
  cases h with
  | empty => rfl
  | ended before hpos => omega

theorem Completes.full (h : Completes tagger source initial ribbon state)
    (hlength : 0 < source.length) : ∀ stretch ∈ ribbon, stretch.chars ≠ [] := by
  have hchars := h.chars
  have hsome : source.chars.toList ≠ [] := List.ne_nil_of_length_pos hlength
  cases h with
  | empty hzero => omega
  | ended before hlength hcursor hlist hedits =>
      obtain ⟨hsettled, hfull⟩ := before.settled hlength
      have hsplit := (List.dropLast_append_getLast hsome).symm
      rw [Ribbon.close_eq (hsettled.trans hsplit)] at hchars ⊢
      apply (before.isSolid.settle.retake.lay _ _).full_settle
      rwa [← Ribbon.chars_settle, hchars]

theorem Completes.isSolid (h : Completes tagger source initial ribbon state) : ribbon.IsSolid := by
  rcases Nat.eq_zero_or_pos source.length with hlength | hlength
  · cases h with
    | empty => exact ⟨by simp, by simp⟩
    | ended before hpos => omega
  · constructor
    · rintro rfl
      have hnil : ([] : List Char) = source.chars.toList := h.chars
      exact Nat.ne_of_gt hlength (congrArg List.length hnil).symm
    · intro stretch hs
      exact h.full hlength stretch (List.mem_of_mem_tail hs)

/-- A tagger all of whose edits are orderly. -/
structure IsOrderly (tagger : Tagger τ σ) : Prop where
  onChar : ∀ {window : Window τ} {state state' : σ} {edits : List (Edit τ)},
    (tagger.onChar window).outcome state = (.ok edits, state') → Edit.IsOrderly edits
  onEnd : ∀ {window : Window τ} {state state' : σ} {edits : List (Edit τ)},
    (tagger.onEnd window).outcome state = (.ok edits, state') → Edit.IsOrderly edits

theorem Reaches.isVaried (horderly : tagger.IsOrderly) {count : Nat}
    (h : Reaches tagger source initial count ribbon state) : ribbon.IsVaried := by
  induction h with
  | start => exact List.isChain_singleton _
  | step before hcount hcursor hlist hedits ih => exact ih.lay (horderly.onChar hedits) _

/-- An orderly tagger leaves no two neighbours with one tag. -/
theorem Completes.isVaried (horderly : tagger.IsOrderly)
    (h : Completes tagger source initial ribbon state) : ribbon.IsVaried := by
  cases h with
  | empty hlength => exact List.isChain_singleton _
  | ended before hlength hcursor hlist hedits =>
      exact (before.isVaried horderly).settle.close (horderly.onEnd hedits)

end Completed

/-- A tagger that looks at the text and never at the segments. -/
structure IsBlind (tagger : Tagger τ σ) : Prop where
  onChar : ∀ window window' : Window τ, window.toCursor = window'.toCursor →
    tagger.onChar window = tagger.onChar window'
  onEnd : ∀ window window' : Window τ, window.toCursor = window'.toCursor →
    tagger.onEnd window = tagger.onEnd window'

section Blind
variable (hblind : tagger.IsBlind) {ribbon : Ribbon τ} {state : σ}
include hblind

theorem Reaches.outcome_scanTo {count : Nat}
    (h : Reaches tagger source initial count ribbon state) :
    ∃ segments, (tagger.scanTo source count).outcome initial = (.ok segments, state) ∧
      segments.toList = (shown source count ribbon).boundaries := by
  induction h with
  | start =>
      refine ⟨.single tagger.start, rfl, ?_⟩
      rw [shown]
      split <;> rfl
  | @step count ribbon state state' window edits before hcount hcursor hlist hedits ih =>
      obtain ⟨segments, hsegments, hshown⟩ := ih
      rw [shown, if_pos hcount] at hshown
      have hseek := (Segmentation.toList_seek segments count).trans hshown
      rw [hblind.onChar _ ⟨⟨source, count⟩, segments.seek count⟩ hcursor] at hedits
      refine ⟨_, ?_, toList_lay ⟨⟨source, count⟩, segments.seek count⟩ before.isSolid
        before.length_chars rfl hseek edits _⟩
      rw [scanTo_succ, Action.outcome_bind_ok]
      exact ⟨segments, state, hsegments, outcome_visit_ok.mpr ⟨edits, hedits, rfl⟩⟩

/-- A blind tagger that can complete a scan does so. -/
theorem Completes.outcome_scan (h : Completes tagger source initial ribbon state) :
    ∃ segments, (tagger.scan source).outcome initial = (.ok segments, state) ∧
      segments.toList = ribbon.boundaries := by
  cases h with
  | empty hlength => exact ⟨.single tagger.start, by rw [scan_of_length_eq_zero hlength]; rfl, rfl⟩
  | @ended ribbon middle _ window edits before hlength hcursor hlist hedits =>
      obtain ⟨segments, hsegments, hshown⟩ := before.outcome_scanTo hblind
      rw [shown, if_neg (Nat.lt_irrefl _)] at hshown
      have hseek := (Segmentation.toList_seek segments (source.length - 1)).trans hshown
      rw [hblind.onEnd _ ⟨⟨source, source.length - 1⟩,
        segments.seek (source.length - 1)⟩ hcursor] at hedits
      refine ⟨_, ?_, toList_close ⟨⟨source, source.length - 1⟩,
        segments.seek (source.length - 1)⟩ before hlength rfl hseek⟩
      rw [scan_of_length_pos hlength, Action.outcome_bind_ok]
      exact ⟨segments, middle, hsegments, outcome_visit_ok.mpr ⟨edits, hedits, rfl⟩⟩

omit hblind in
theorem outcome_scanTo_error {count more : Nat} {failure : Failure} (hle : count ≤ more)
    (h : (tagger.scanTo source count).outcome initial = (.error failure, state)) :
    (tagger.scanTo source more).outcome initial = (.error failure, state) := by
  induction hle with
  | refl => exact h
  | step hle ih => rw [scanTo_succ, Action.outcome_bind_error]; exact .inl ih

/-- Where a handler fails the scan has failed from the next place on. -/
theorem Reaches.outcome_scanTo_error {count : Nat} {state' : σ} {window : Window τ} {cause : Failure}
    (before : Reaches tagger source initial count ribbon state)
    (hcursor : window.toCursor = ⟨source, count⟩)
    (hcause : (tagger.onChar window).outcome state = (.error cause, state')) :
    (tagger.scanTo source (count + 1)).outcome initial =
      (.error (.within (source.location count) cause), state') := by
  obtain ⟨segments, hsegments, -⟩ := before.outcome_scanTo hblind
  rw [hblind.onChar _ ⟨⟨source, count⟩, segments.seek count⟩ hcursor] at hcause
  rw [scanTo_succ, Action.outcome_bind_error]
  exact .inr ⟨segments, state, hsegments, outcome_visit_error.mpr ⟨cause, hcause, rfl⟩⟩

/-- A blind tagger that can fail does so. -/
theorem Fails.outcome_scan {failure : Failure} (h : Fails tagger source initial failure state) :
    (tagger.scan source).outcome initial = (.error failure, state) := by
  cases h with
  | @step count ribbon middle _ window cause before hcount hcursor hlist hcause =>
      rw [scan_of_length_pos (by omega), Action.outcome_bind_error]
      left
      apply outcome_scanTo_error (show count + 1 ≤ source.length from hcount)
      exact before.outcome_scanTo_error hblind hcursor hcause
  | @ended ribbon middle _ window cause before hlength hcursor hlist hcause =>
      obtain ⟨segments, hsegments, -⟩ := before.outcome_scanTo hblind
      rw [hblind.onEnd _ ⟨⟨source, source.length - 1⟩,
        segments.seek (source.length - 1)⟩ hcursor] at hcause
      rw [scan_of_length_pos hlength, Action.outcome_bind_error]
      exact .inr ⟨segments, middle, hsegments, outcome_visit_error.mpr ⟨cause, hcause, rfl⟩⟩

end Blind

end Tagger
end TexProse
