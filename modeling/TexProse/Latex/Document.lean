import TexProse.Latex.Rules
import TexProse.Package.Bundled
import TexProse.Tagging.Pass

/-!
# LaTeX documents

A document is a text to be read once, with its packages. The contents of an argument or of a group are
read as a text of their own, one level further down, as soon as the bracket closes.
-/

namespace TexProse.Latex
variable {π : Type}

/-- The prose of a text, read by the given tagger. -/
def proseBy (tagger : Tagger Tag (Reading π)) (text : String) : Action (Session π) String :=
  ExceptT.mk do
    let session ← get
    let source := Source.ofString text
    let (result, reading) := (tagger.scan source).run.run { session := session }
    set reading.session
    return result.bind fun segments => TagMap.prose ⟨source, segments⟩

/-- The prose of a nested text with the number of levels still permitted. -/
def nestedProse [Package π] (settings : Settings) : Nat → Nested π
  | 0, _ => throw (.tooDeep settings.maxNesting)
  | levels + 1, text => proseBy (tagger settings (nestedProse settings levels)) text

/-- The tagger of a document with all its levels. -/
def documentTagger [Package π] (settings : Settings) : Tagger Tag (Reading π) :=
  tagger settings (nestedProse settings settings.maxNesting)

/-- A document, read or not. -/
structure Document (π : Type) where
  pass : Pass Tag (Reading π)

namespace Document

/-- A document with packages of one's own. -/
def withPackages [Package π] (settings : Settings) (packages : Chain π) (text : String) : Document π where
  pass :=
    { source := .ofString text
      tagger := documentTagger settings
      state := { session := { packages := packages } } }

/-- A document with the bundled packages. -/
def ofString (settings : Settings) (text : String) : Document Bundled :=
  withPackages settings (.bundled settings) text

/-- Reads the document. -/
def read (document : Document π) : Except Failure Unit × Document π :=
  let (result, pass) := document.pass.run
  (result, ⟨pass⟩)

def source (document : Document π) : Source := document.pass.source

/-- The tagged text, once the document is read. -/
def map (document : Document π) : Except Failure (TagMap Tag) := document.pass.map

def session (document : Document π) : Session π := document.pass.state.session

/-- What was noticed so far. -/
def notices (document : Document π) : Array Notice := document.session.notices

end Document

end TexProse.Latex
