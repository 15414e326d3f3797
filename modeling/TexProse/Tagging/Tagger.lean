import TexProse.Failure
import TexProse.Tagging.Window

/-!
# Taggers

A tagger decides, character by character, to which kind of segment the text belongs. The scan visits
every offset once, from left to right, and then the last one again. Whatever state the tagger keeps is
kept when it fails, too.
-/

namespace TexProse

/-- A computation on a state that may fail; the state outlives the failure. -/
abbrev Action (σ : Type) := ExceptT Failure (StateM σ)

/-- What a kind of segment means for the prose. -/
class SegmentTag (τ : Type) where
  /-- A plain segment stands for itself, any other for its rendering. -/
  isPlain : τ → Bool
  label : τ → String

/-- Rules that tag a text. -/
structure Tagger (τ σ : Type) where
  /-- The tag of the whole text before the scan. -/
  start : τ
  onChar : Window τ → Action σ (List (Edit τ))
  /-- Asked once behind the last character, with the window still on it. -/
  onEnd : Window τ → Action σ (List (Edit τ)) := fun _ => pure []

namespace Tagger
variable {τ σ : Type} [DecidableEq τ]

/-- Lets a handler answer and carries out its edits. Its failure gets the place of the window. -/
def visit (handler : Window τ → Action σ (List (Edit τ))) (window : Window τ) :
    Action σ (Segmentation τ) :=
  ExceptT.adapt (fun failure => .within window.location failure) do
    let edits ← handler window
    return (window.editAll edits).segments

/-- The segmentation after the character at the offset. -/
def step (tagger : Tagger τ σ) (source : Source) (segments : Segmentation τ) (offset : Nat) :
    Action σ (Segmentation τ) :=
  visit tagger.onChar ⟨⟨source, offset⟩, segments.seek offset⟩

/-- The segmentation after the first `count` characters. -/
def scanTo (tagger : Tagger τ σ) (source : Source) (count : Nat) : Action σ (Segmentation τ) :=
  (List.range count).foldlM (tagger.step source) (.single tagger.start)

/-- The segmentation of a whole text. -/
def scan (tagger : Tagger τ σ) (source : Source) : Action σ (Segmentation τ) := do
  let segments ← tagger.scanTo source source.length
  if source.length = 0 then return segments
  else visit tagger.onEnd ⟨⟨source, source.length - 1⟩, segments.seek (source.length - 1)⟩

end Tagger

end TexProse
