import Folio.CodeMeta
import Folio.Storage
import Folio.Failure

/-!
# Included files

A code block whose meta string names a file includes the text of that file. The file is looked up from the
directory of the document, and must lie below the include root if there is one.
-/

namespace Folio

/-- Which document asks for an include, and how far its includes may reach. -/
structure IncludeContext where
  document : String
  root : Option String

namespace Include

/-- The path of a reference that stands in a document. -/
def resolve (document : Path) (reference : Path) : Path :=
  ((document.parent?.getD .empty).join reference).normalize

/-- The include root in its normal form, if the path does not lie below it. -/
def violatedRoot? (root : Option String) (p : Path) : Option Path :=
  match root with
  | none => none
  | some r =>
    let r := (Path.ofString r).normalize
    if p.startsWith r then none else some r

/-- Reads the file that a meta string names, without the white space at its end. -/
def read (files : Storage) (metaText : String) (ctx : IncludeContext) (location : Option Location) :
    Logged (Except PipelineError (Option String)) := do
  match ← CodeMeta.parse metaText with
  | .error e => pure (.error (.invalidMeta ctx.document metaText e.message location))
  | .ok m =>
    match m.file? with
    | none => pure (.ok none)
    | some reference =>
      let p := resolve (.ofString ctx.document) (.ofString reference)
      match violatedRoot? ctx.root p with
      | some r => pure (.error (.includeOutsideRoot p.text r.text metaText ctx.document))
      | none =>
        match files.look p with
        | .missing => pure (.error (.missingInclude p.text metaText ctx.document location))
        | .unreadable why => do
          Logged.debug ("including " ++ p.text ++ " into " ++ ctx.document)
          pure (.error (.includeRead p.text why.message))
        | .file text => do
          Logged.debug ("including " ++ p.text ++ " into " ++ ctx.document)
          pure (.ok (some (String.ofList (Text.trimEnd text.toList))))

/-- Puts an included text behind the text of a block, on a line of its own. -/
def append (value included : String) : String :=
  if value.isEmpty then included else value ++ "\n" ++ included

end Include

end Folio
