import Folio.Batch.Entry

/-!
# Workers

Documents that are transformed side by side. A worker takes up a document, transforms it, counts its entry and stores
it in the place of the document. At most as many documents are under way as there are threads; apart from that the
workers may go on in any order, which a schedule gives as the places of the documents that make a step. A document
whose transformation does not come to an end makes no step any more.
-/

namespace Folio.Batch

/-- How far the workers are with a document. -/
inductive Stage where
  | waiting (input : Input)
  | running (input : Input)
  | counted (entry : Entry)
  | stored (entry : Entry)

namespace Stage

/-- Is a worker busy with the document? -/
def isUnderWay : Stage → Bool
  | running _ | counted _ => true
  | _ => false

/-- The entry that has been stored. -/
def stored? : Stage → Option Entry
  | stored e => some e
  | _ => none

end Stage

/-- The documents in the order in which they are given, and what has been counted and written so far. -/
structure Workers where
  stages : List Stage
  tally : Tally := {}
  log : List LogLine := []

namespace Workers

/-- The workers before any document is taken up. -/
def start (inputs : List Input) : Workers := { stages := inputs.map .waiting }

/-- The workers after a document has come to a stage. -/
def put (w : Workers) (place : Nat) (s : Stage) : Workers := { w with stages := w.stages.set place s }

/-- Takes the document of a place one step further. No document is taken up when all threads are busy. -/
def step? (threads : Nat) (transform : Input → Course Entry) (w : Workers) (place : Nat) : Option Workers :=
  match w.stages[place]? with
  | some (.waiting i) => if w.stages.countP Stage.isUnderWay < threads then some (w.put place (.running i)) else none
  | some (.running i) =>
    (transform i).value?.map fun e =>
      { w.put place (.counted e) with tally := w.tally.count e, log := w.log ++ (transform i).log }
  | some (.counted e) => some (w.put place (.stored e))
  | some (.stored _) | none => none

/-- Lets the workers make the steps of a schedule, if they can. -/
def run? (threads : Nat) (transform : Input → Course Entry) (schedule : List Nat) (w : Workers) : Option Workers :=
  schedule.foldlM (step? threads transform) w

/-- The entries in the order of the documents, if all of them have been stored. -/
def entries? (w : Workers) : Option (List Entry) := w.stages.mapM Stage.stored?

end Workers

/-- The schedule of one document after the other. -/
def inOrder (count : Nat) : List Nat := (List.range count).flatMap (List.replicate 3)

end Folio.Batch
