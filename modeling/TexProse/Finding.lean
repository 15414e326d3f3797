import TexProse.Tagging.TagMap

/-!
# Findings

Whoever checks the prose reports a finding by its place in the prose. A report shows it by its place in the
source and quotes the segments it touches.
-/

namespace TexProse

/-- Something to say about a part of the prose. -/
structure Finding where
  first : Nat
  stop : Nat
  message : String
  suggestions : List String := []
  deriving DecidableEq, Repr, Inhabited

structure Report where
  /-- The prose of the segments that the finding touches. -/
  excerpt : String
  first : String
  stop : String
  message : String
  suggestions : List String
  deriving DecidableEq, Repr, Inhabited

namespace Report
variable {τ : Type} [DecidableEq τ] [SegmentTag τ]

/-- Reports a finding in the prose of a transcript. The excerpt has at least one character of the source. -/
def ofFinding (map : TagMap τ) (transcript : Transcript) (finding : Finding) : Except Failure Report := do
  let first := transcript.origin finding.first
  let stop := max (transcript.origin finding.stop) first
  let excerpt ← map.proseIn first (max stop (first + 1))
  return { excerpt := excerpt
           first := map.source.location first
           stop := map.source.location stop
           message := trim finding.message
           suggestions := finding.suggestions }

def text (report : Report) : String :=
  "> " ++ report.excerpt ++ "\nPotential error at characters " ++ report.first ++ " - " ++ report.stop ++
    ": " ++ report.message ++ "\nSuggested correction(s): [" ++ ", ".intercalate report.suggestions ++ "]"

end Report

end TexProse
