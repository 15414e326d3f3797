import TexProse.Tagging.TagMap

/-!
# Passes

A pass holds a source, a tagger with its state, and what is known of the result. It can be run once; what
is asked of the result before that, or after a failure, is refused.
-/

namespace TexProse

/-- How far a pass has come. -/
inductive Phase (τ : Type) where
  | waiting
  | failed
  | finished (map : TagMap τ)

structure Pass (τ σ : Type) where
  source : Source
  tagger : Tagger τ σ
  state : σ
  phase : Phase τ := .waiting

namespace Pass
variable {τ σ : Type}

/-- Runs the tagger over the source. A pass that was run before, with success or without, stays as it
is. -/
def run [DecidableEq τ] (pass : Pass τ σ) : Except Failure Unit × Pass τ σ :=
  match pass.phase with
  | .waiting =>
    match pass.tagger.scan pass.source pass.state with
    | (.ok segments, state) =>
      (.ok (), { pass with state := state, phase := .finished ⟨pass.source, segments⟩ })
    | (.error failure, state) => (.error failure, { pass with state := state, phase := .failed })
  | _ => (.error .alreadyRead, pass)

/-- The tagged text of a pass that succeeded. -/
def map (pass : Pass τ σ) : Except Failure (TagMap τ) :=
  match pass.phase with
  | .finished map => .ok map
  | _ => .error .notRead

def isFinished (pass : Pass τ σ) : Bool :=
  match pass.phase with
  | .finished _ => true
  | _ => false

end Pass

end TexProse
