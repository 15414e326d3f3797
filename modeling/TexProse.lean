import TexProse.CommandLine.Run
import TexProse.Finding
import TexProse.Latex.Document
import TexProse.Latex.Highlight
import TexProse.Main
import TexProse.Package.Plugin
import TexProse.Proofs.File.Document
import TexProse.Proofs.Latex.Acceptance
import TexProse.Proofs.Latex.Acronyms
import TexProse.Proofs.Latex.Balance
import TexProse.Proofs.Latex.Blanks
import TexProse.Proofs.Latex.Calls
import TexProse.Proofs.Latex.Classes
import TexProse.Proofs.Latex.Emission
import TexProse.Proofs.Latex.Enclosure
import TexProse.Proofs.Latex.Escapes
import TexProse.Proofs.Latex.Findings
import TexProse.Proofs.Latex.Levels
import TexProse.Proofs.Latex.Locality
import TexProse.Proofs.Latex.Meaning
import TexProse.Proofs.Latex.Origin
import TexProse.Proofs.Latex.Places
import TexProse.Proofs.Latex.Portions
import TexProse.Proofs.Latex.Questions
import TexProse.Proofs.Latex.Quotations
import TexProse.Proofs.Latex.Spacing
import TexProse.Proofs.Latex.Trail
import TexProse.Proofs.Latex.Transparency
import TexProse.Proofs.Package.Interview
import TexProse.Proofs.Package.Nesting
import TexProse.Proofs.Segmentation.Refinement
import TexProse.Proofs.Tagging.Agreement
import TexProse.Proofs.Tagging.Covering
import TexProse.Proofs.Tagging.Locality
import TexProse.Proofs.Tagging.Origin
import TexProse.Proofs.Tagging.Past
import TexProse.Proofs.Tagging.Scan
import TexProse.Proofs.Tagging.Spans
import TexProse.Proofs.Text.Lines
import TexProse.Proofs.Transcript.Order
import TexProse.Tagging.RuleTable
