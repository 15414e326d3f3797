import TexProse.Proofs.Tagging.Scan

/-!
# Relabelled failures

Two actions that differ in their failures alone, as a function says: they end in the same states, and where
the one returns a value the other returns it too. Taggers that differ so have scans that differ so, if the
function leaves the places of a failure as they are.
-/

namespace TexProse

namespace Action
variable {σ α β : Type} {relabel : Failure → Failure}

/-- The second action does what the first does, and fails as the first fails but for the label. -/
def Relabels (relabel : Failure → Failure) (first second : Action σ α) : Prop :=
  ∀ state, second.outcome state =
    ((first.outcome state).1.mapError relabel, (first.outcome state).2)

namespace Relabels
variable {first second : Action σ α} {next next' : α → Action σ β}

theorem pure (a : α) : Relabels relabel (Pure.pure a : Action σ α) (Pure.pure a) := fun _ => rfl

theorem throw (failure : Failure) :
    Relabels relabel (throw failure : Action σ α) (MonadExcept.throw (relabel failure)) := fun _ => rfl

/-- An action that never fails has nothing to relabel. -/
theorem of_ok {action : Action σ α} (h : ∀ state, ∃ a, (action.outcome state).1 = .ok a) :
    Relabels relabel action action := by
  intro state
  obtain ⟨a, ha⟩ := h state
  rw [ha]
  exact Prod.ext ha rfl

theorem bind (h : Relabels relabel first second) (hnext : ∀ a, Relabels relabel (next a) (next' a)) :
    Relabels relabel (first >>= next) (second >>= next') := by
  intro state
  rw [outcome_bind, outcome_bind, h state]
  rcases first.outcome state with ⟨failure | a, middle⟩
  · rfl
  · exact hnext a middle

end Relabels

end Action

namespace Tagger
variable {τ σ : Type} [DecidableEq τ] {relabel : Failure → Failure}

/-- Taggers whose rules differ in the labels of their failures. -/
structure Relabels (relabel : Failure → Failure) (first second : Tagger τ σ) : Prop where
  start : first.start = second.start
  onChar : ∀ window, Action.Relabels relabel (first.onChar window) (second.onChar window)
  onEnd : ∀ window, Action.Relabels relabel (first.onEnd window) (second.onEnd window)

variable {first second : Tagger τ σ} (h : Relabels relabel first second)
variable (hwithin : ∀ location cause,
  relabel (.within location cause) = .within location (relabel cause))
include hwithin

theorem relabels_visit {handler handler' : Window τ → Action σ (List (Edit τ))} {window : Window τ}
    (h : Action.Relabels relabel (handler window) (handler' window)) :
    Action.Relabels relabel (visit handler window) (visit handler' window) := by
  intro state
  rw [outcome_visit, outcome_visit, h state]
  rcases (handler window).outcome state with ⟨failure | edits, state'⟩
  · simp only [Except.mapError, hwithin]
  · rfl

include h

theorem Relabels.scanTo (source : Source) (count : Nat) :
    Action.Relabels relabel (first.scanTo source count) (second.scanTo source count) := by
  induction count with
  | zero =>
      rw [Tagger.scanTo, Tagger.scanTo, h.start]
      exact Action.Relabels.pure _
  | succ count ih =>
      rw [scanTo_succ, scanTo_succ]
      exact ih.bind fun segments => relabels_visit hwithin (h.onChar _)

theorem Relabels.scan (source : Source) :
    Action.Relabels relabel (first.scan source) (second.scan source) := by
  unfold Tagger.scan
  apply (h.scanTo hwithin source source.length).bind
  intro segments
  split
  · exact Action.Relabels.pure segments
  · exact relabels_visit hwithin (h.onEnd _)

end Tagger

end TexProse
