import TexProse.Proofs.Tagging.Scan

/-!
# Extended actions

One action extends another if it comes to the same wherever the other does not fail in a way that is
counted as bad. A bad failure may be a want of means, such as levels or time, and then the one who has more
of them extends the one who has less. Taggers whose rules extend one another have scans that do.
-/

namespace TexProse

namespace Action
variable {σ α β : Type} {bad : Failure → Prop}

/-- From the state the action does not fail in a bad way. -/
def Avoids (bad : Failure → Prop) (action : Action σ α) (state : σ) : Prop :=
  ∀ failure, (action.outcome state).1 = .error failure → ¬ bad failure

/-- The second action does what the first does, wherever the first does not fail in a bad way. -/
def Extends (bad : Failure → Prop) (first second : Action σ α) : Prop :=
  ∀ state, first.Avoids bad state → second.outcome state = first.outcome state

namespace Avoids
variable {action : Action σ α} {rest : α → Action σ β} {state middle : σ} {a : α}

theorem of_ok (h : action.outcome state = (.ok a, middle)) : action.Avoids bad state := by
  intro failure hfailure
  rw [h] at hfailure
  cases hfailure

theorem first (h : (action >>= rest).Avoids bad state) : action.Avoids bad state := by
  intro failure hfailure
  apply h failure
  rw [outcome_bind, show action.outcome state = (.error failure, (action.outcome state).2) from
    Prod.ext hfailure rfl]

theorem next (h : (action >>= rest).Avoids bad state) (hfirst : action.outcome state = (.ok a, middle)) :
    (rest a).Avoids bad middle := by
  intro failure hfailure
  apply h failure
  rw [outcome_bind, hfirst]
  exact hfailure

end Avoids

namespace Extends
variable {first second : Action σ α} {next next' : α → Action σ β}

theorem refl (action : Action σ α) : Extends bad action action := fun _ _ => rfl

theorem bind (h : Extends bad first second) (hnext : ∀ a, Extends bad (next a) (next' a)) :
    Extends bad (first >>= next) (second >>= next') := by
  intro state havoids
  rw [outcome_bind, outcome_bind, h state havoids.first]
  rcases hfirst : first.outcome state with ⟨failure | a, middle⟩
  · rfl
  · exact hnext a middle (havoids.next hfirst)

end Extends

end Action

namespace Tagger
variable {τ σ : Type} [DecidableEq τ] {bad : Failure → Prop}

/-- Taggers whose rules extend one another. -/
structure Extends (bad : Failure → Prop) (first second : Tagger τ σ) : Prop where
  start : first.start = second.start
  onChar : ∀ window, Action.Extends bad (first.onChar window) (second.onChar window)
  onEnd : ∀ window, Action.Extends bad (first.onEnd window) (second.onEnd window)

variable {first second : Tagger τ σ} (h : Extends bad first second)
variable (hwithin : ∀ location cause, bad cause → bad (.within location cause))
include hwithin

/-- A handler that fails in a bad way makes its visit do so. -/
theorem avoids_of_visit {handler : Window τ → Action σ (List (Edit τ))} {window : Window τ} {state : σ}
    (h : (visit handler window).Avoids bad state) : (handler window).Avoids bad state := by
  intro cause hcause hbad
  apply h (.within window.location cause) _ (hwithin _ _ hbad)
  rw [outcome_visit, show (handler window).outcome state = (.error cause, _) from Prod.ext hcause rfl]

theorem extends_visit {handler handler' : Window τ → Action σ (List (Edit τ))} {window : Window τ}
    (h : Action.Extends bad (handler window) (handler' window)) :
    Action.Extends bad (visit handler window) (visit handler' window) := by
  intro state havoids
  rw [outcome_visit, outcome_visit, h state (avoids_of_visit hwithin havoids)]

include h

theorem Extends.scanTo (source : Source) (count : Nat) :
    Action.Extends bad (first.scanTo source count) (second.scanTo source count) := by
  induction count with
  | zero =>
      rw [Tagger.scanTo, Tagger.scanTo, h.start]
      exact .refl _
  | succ count ih =>
      rw [scanTo_succ, scanTo_succ]
      exact ih.bind fun segments => extends_visit hwithin (h.onChar _)

theorem Extends.scan (source : Source) :
    Action.Extends bad (first.scan source) (second.scan source) := by
  unfold Tagger.scan
  apply (h.scanTo hwithin source source.length).bind
  intro segments
  split
  · exact .refl _
  · exact extends_visit hwithin (h.onEnd _)

end Tagger

end TexProse
