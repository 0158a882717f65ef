import Folio.Frontmatter
import Folio.Log

/-!
# Errors and warnings

The causes that end the transformation of a document, the conditions that it only reports, and their texts.
-/

namespace Folio

/-- A place in a source document; lines and columns count from 1. -/
structure Location where
  file : Option String
  line : Nat
  column : Nat
deriving DecidableEq, Repr

namespace Location

def text (l : Location) : String :=
  let place := toString l.line ++ ":" ++ toString l.column
  match l.file with
  | some f => f ++ ":" ++ place
  | none => place

/-- A location as the end of a phrase, if there is one. -/
def phrase (l : Option Location) : String :=
  match l with
  | some l => " at " ++ l.text
  | none => ""

end Location

/-- A cause that ends the transformation of a document. -/
inductive PipelineError where
  | io (reason : String)
  | parse (document reason : String) (location : Location)
  | missingFrontmatter (document : String)
  | frontmatter (document : String) (source : FrontmatterError)
  | invalidMeta (document metaText reason : String) (location : Option Location)
  | missingInclude (path metaText document : String) (location : Option Location)
  | includeOutsideRoot (path root metaText document : String)
  | includeRead (path reason : String)
  | highlight (language document reason : String)
  | highlightTimeout (language document : String) (milliseconds : Nat)
  | passOrder (pass requires : String)
  | internal (reason : String)
deriving DecidableEq, Repr

def PipelineError.message : PipelineError → String
  | .io reason => "IO error: " ++ reason
  | .parse doc reason loc => "Parse error in " ++ doc ++ " at " ++ loc.text ++ ": " ++ reason
  | .missingFrontmatter doc => "Missing frontmatter in " ++ doc
  | .frontmatter doc source => "Invalid frontmatter in " ++ doc ++ ": " ++ source.message
  | .invalidMeta doc m reason loc =>
    "Invalid code block meta `" ++ m ++ "` in " ++ doc ++ Location.phrase loc ++ ": " ++ reason
  | .missingInclude path m doc loc =>
    "Included file " ++ path ++ " does not exist (from `" ++ m ++ "` in " ++ doc ++ Location.phrase loc ++ ")"
  | .includeOutsideRoot path root m doc =>
    "Included file " ++ path ++ " escapes " ++ root ++ " (from `" ++ m ++ "` in " ++ doc ++ ")"
  | .includeRead path reason => "Failed to read included file " ++ path ++ ": " ++ reason
  | .highlight language doc reason => "Highlighter failed for `" ++ language ++ "` in " ++ doc ++ ": " ++ reason
  | .highlightTimeout language doc ms =>
    "Highlighter timed out after " ++ toString ms ++ "ms for `" ++ language ++ "` in " ++ doc
  | .passOrder pass requires => "Pass `" ++ pass ++ "` requires `" ++ requires ++ "` to run first"
  | .internal reason => "Internal error: " ++ reason

/-- A condition that is reported and does not end the transformation. -/
inductive Warning where
  | levelOneHeading (text : String) (location : Option Location)
  | unsupportedLanguage (language : String)
deriving DecidableEq, Repr

def Warning.message : Warning → String
  | .levelOneHeading text loc =>
    "Level 1 heading: " ++ text ++
      match loc with
      | some l => " @ " ++ l.text
      | none => ""
  | .unsupportedLanguage language => "No highlighting available for `" ++ language ++ "`"

/-- The word that a report names the condition by. -/
def Warning.type : Warning → String
  | .levelOneHeading .. => "level-one-heading"
  | .unsupportedLanguage _ => "unsupported-language"

/-- The line that a report names, in 32 bits. -/
def Warning.line? : Warning → Option Nat
  | .levelOneHeading _ loc => loc.map fun l => l.line % UInt32.size
  | .unsupportedLanguage _ => none

/-- Every warning is written to the log when it is recorded. -/
def Warning.report (w : Warning) : Logged Unit := Logged.warn w.message

end Folio
