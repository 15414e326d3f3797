/-!
# Settings of a document
-/

namespace TexProse

/-- What the reader of a document may choose. -/
structure Settings where
  /-- Stands for an opening quotation mark. -/
  openingQuote : String := "„"
  /-- Stands for a closing quotation mark. -/
  closingQuote : String := "“"
  /-- How many levels of arguments and groups may lie inside each other. -/
  maxNesting : Nat := 64
  deriving DecidableEq, Repr, Inhabited

namespace Settings

/-- Both quotation marks from a text of two characters; any other text changes nothing. -/
def withQuotes (settings : Settings) (pair : String) : Settings :=
  match pair.toList with
  | [opening, closing] =>
    { settings with openingQuote := opening.toString, closingQuote := closing.toString }
  | _ => settings

/-- A text between the chosen quotation marks. -/
def quote (settings : Settings) (text : String) : String :=
  settings.openingQuote ++ text ++ settings.closingQuote

end Settings

end TexProse
