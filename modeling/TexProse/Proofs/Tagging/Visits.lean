import TexProse.Proofs.Tagging.Scan

/-!
# The visits of a scan

What a tagger sees and does at each character, in the order of the text, and once more at the end. The
visits are read off the scan itself: each begins with the segmentation and the state that the scan has come
to. A scan that gets to a character has visited every character before it once.
-/

namespace TexProse

/-- What a tagger did at a character. -/
structure Visit (τ σ : Type) where
  window : Window τ
  /-- The state that the tagger came with. -/
  state : σ
  edits : List (Edit τ)

namespace Tagger
variable {τ σ : Type} [DecidableEq τ] (tagger : Tagger τ σ) (source : Source) (initial : σ)

/-- What a handler does at an offset once the first `count` characters are read, unless the scan fails
before or with it. -/
def visit? (handler : Window τ → Action σ (List (Edit τ))) (count offset : Nat) : Option (Visit τ σ) :=
  match (tagger.scanTo source count).outcome initial with
  | (.ok segments, state) =>
    let window : Window τ := ⟨⟨source, offset⟩, segments.seek offset⟩
    match ((handler window).outcome state).1 with
    | .ok edits => some ⟨window, state, edits⟩
    | .error _ => none
  | (.error _, _) => none

/-- The visits of the first `count` characters. -/
def visitsTo (count : Nat) : List (Visit τ σ) :=
  (List.range count).filterMap fun offset => tagger.visit? source initial tagger.onChar offset offset

/-- The visits of all characters. -/
def visits : List (Visit τ σ) := tagger.visitsTo source initial source.length

/-- The visit at the end of the text, with the window on the last character again. -/
def lastVisit? : Option (Visit τ σ) :=
  if source.length = 0 then none
  else tagger.visit? source initial tagger.onEnd source.length (source.length - 1)

variable {tagger source initial}

theorem visitsTo_succ (count : Nat) :
    tagger.visitsTo source initial (count + 1) =
      tagger.visitsTo source initial count ++
        (tagger.visit? source initial tagger.onChar count count).toList := by
  rw [visitsTo, List.range_succ, List.filterMap_append, ← visitsTo]
  cases hvisit : tagger.visit? source initial tagger.onChar count count <;> simp [hvisit]

/-- What a handler does where the scan has come to is a visit. -/
theorem visit?_eq_some {handler : Window τ → Action σ (List (Edit τ))} {count offset : Nat}
    {segments : Segmentation τ} {state state' : σ} {edits : List (Edit τ)}
    (hscan : (tagger.scanTo source count).outcome initial = (.ok segments, state))
    (hedits : (handler ⟨⟨source, offset⟩, segments.seek offset⟩).outcome state = (.ok edits, state')) :
    tagger.visit? source initial handler count offset =
      some ⟨⟨⟨source, offset⟩, segments.seek offset⟩, state, edits⟩ := by
  simp [visit?, hscan, hedits]

/-- A visit is what a handler does where the scan has come to. -/
theorem exists_of_visit? {handler : Window τ → Action σ (List (Edit τ))} {count offset : Nat}
    {visit : Visit τ σ} (h : tagger.visit? source initial handler count offset = some visit) :
    ∃ segments after, (tagger.scanTo source count).outcome initial = (.ok segments, visit.state) ∧
      visit.window.toCursor = ⟨source, offset⟩ ∧
      (handler visit.window).outcome visit.state = (.ok visit.edits, after) := by
  rw [visit?] at h
  rcases hscan : (tagger.scanTo source count).outcome initial with ⟨failure | segments, state⟩
  · simp [hscan] at h
  · rcases hedits : (handler ⟨⟨source, offset⟩, segments.seek offset⟩).outcome state with
      ⟨failure | edits, after⟩
    · simp [hscan, hedits] at h
    · simp only [hscan, hedits, Option.some.injEq] at h
      subst h
      exact ⟨segments, after, rfl, rfl, hedits⟩

theorem lastVisit?_eq_some_iff {visit : Visit τ σ} :
    tagger.lastVisit? source initial = some visit ↔ source.length ≠ 0 ∧
      tagger.visit? source initial tagger.onEnd source.length (source.length - 1) = some visit := by
  rw [lastVisit?]
  split
  next hlength => simp [hlength]
  next hlength => exact (and_iff_right hlength).symm

variable (hblind : tagger.IsBlind)
variable {count : Nat} {ribbon : Ribbon τ} {state state' : σ} {window : Window τ} {edits : List (Edit τ)}
include hblind

/-- A scan that goes on at a character visits it. -/
theorem Reaches.exists_visitsTo (before : Reaches tagger source initial count ribbon state)
    (hcount : count < source.length) (hcursor : window.toCursor = ⟨source, count⟩)
    (hedits : (tagger.onChar window).outcome state = (.ok edits, state')) :
    ∃ window' : Window τ, window'.toCursor = ⟨source, count⟩ ∧
      window'.segments.toList = ribbon.boundaries ∧
      tagger.visitsTo source initial (count + 1) =
        tagger.visitsTo source initial count ++ [⟨window', state, edits⟩] := by
  obtain ⟨segments, hscan, hshown⟩ := before.outcome_scanTo hblind
  rw [shown, if_pos hcount] at hshown
  rw [hblind.onChar _ ⟨⟨source, count⟩, segments.seek count⟩ hcursor] at hedits
  refine ⟨⟨⟨source, count⟩, segments.seek count⟩, rfl, ?_, ?_⟩
  · exact (Segmentation.toList_seek segments count).trans hshown
  · rw [visitsTo_succ, visit?_eq_some hscan hedits, Option.toList_some]

/-- A scan that completes visits the end of the text. -/
theorem Reaches.exists_lastVisit? (before : Reaches tagger source initial source.length ribbon state)
    (hlength : 0 < source.length) (hcursor : window.toCursor = ⟨source, source.length - 1⟩)
    (hedits : (tagger.onEnd window).outcome state = (.ok edits, state')) :
    ∃ window' : Window τ, window'.toCursor = ⟨source, source.length - 1⟩ ∧
      window'.segments.toList = ribbon.settle.boundaries ∧
      tagger.lastVisit? source initial = some ⟨window', state, edits⟩ := by
  obtain ⟨segments, hscan, hshown⟩ := before.outcome_scanTo hblind
  rw [shown, if_neg (Nat.lt_irrefl _)] at hshown
  rw [hblind.onEnd _ ⟨⟨source, source.length - 1⟩, segments.seek (source.length - 1)⟩ hcursor] at hedits
  refine ⟨⟨⟨source, source.length - 1⟩, segments.seek (source.length - 1)⟩, rfl, ?_, ?_⟩
  · exact (Segmentation.toList_seek segments _).trans hshown
  · exact lastVisit?_eq_some_iff.mpr ⟨Nat.ne_of_gt hlength, visit?_eq_some hscan hedits⟩

end Tagger

end TexProse
