import Folio.Pipeline

/-!
# Documents of a batch

A document is transformed on its own and leaves an entry. How many documents have succeeded and failed so far is
counted in numbers of 32 bits.
-/

namespace Folio.Batch

/-- A document of a batch. Its path is its name unless another one is given. -/
structure Input where
  id : String
  source : String
  filepath : Option String := none
deriving DecidableEq, Repr

def Input.path (i : Input) : String := i.filepath.getD i.id

/-- The entry of a document: the calls of the highlighter, and the output or the text of the failure. -/
structure Entry where
  id : String
  calls : List HighlightCall
  result : Option Pipeline.Output
  error : Option String

def Entry.failed (e : Entry) : Bool := e.error.isSome

/-- The numbers of documents that have succeeded and failed. -/
structure Tally where
  succeeded : UInt32 := 0
  failed : UInt32 := 0
deriving DecidableEq, Repr

/-- Counts one more entry. -/
def Tally.count (t : Tally) (e : Entry) : Tally :=
  if e.failed then { t with failed := t.failed + 1 } else { t with succeeded := t.succeeded + 1 }

/-- Transforms a document; a failure is given by its text. -/
def transformOne (files : Storage) (options : Pipeline.Options) (highlighter : Option Highlighter)
    (source path : String) : Course (List HighlightCall × Except String Pipeline.Output) := do
  let pipeline := Pipeline.ofOptions options
  let pipeline := match highlighter with
    | some h => pipeline.withHighlighter h
    | none => pipeline
  let r ← pipeline.transform files source path
  pure (r.calls, r.outcome.mapError PipelineError.message)

/-- Transforms a document of a batch. -/
def entry (files : Storage) (options : Pipeline.Options) (highlighter : Option Highlighter) (i : Input) :
    Course Entry := do
  let (calls, outcome) ← transformOne files options highlighter i.source i.path
  match outcome with
  | .ok output => pure ⟨i.id, calls, some output, none⟩
  | .error message => pure ⟨i.id, calls, none, some message⟩

end Folio.Batch
