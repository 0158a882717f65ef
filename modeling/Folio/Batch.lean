import Folio.Batch.Workers

/-!
# Batches

Documents that are transformed with the same options. A batch that goes on after a document that fails transforms its
documents side by side; one that ends with such a document transforms them one after the other. The time that a batch
takes is left out.
-/

namespace Folio.Batch

/-- How a batch is processed. -/
structure Options where
  maxThreads : Option UInt32 := none
  continueOnError : Option Bool := none
  config : Pipeline.Config := {}

/-- The threads of a machine: how many all batches share, and whether a batch may have its own. -/
structure Machine where
  shared : Nat
  shared_pos : 0 < shared
  ownThreads : Bool := true

/-- The number of threads of a batch. Zero asks for no number. -/
def Machine.threads (m : Machine) : Option UInt32 → Nat
  | some n => if n ≠ 0 ∧ m.ownThreads then n.toNat else m.shared
  | none => m.shared

/-- The number of documents given, and of those that succeeded and failed. -/
structure Stats where
  total : UInt32
  succeeded : UInt32
  failed : UInt32
deriving DecidableEq, Repr

structure Results where
  entries : List Entry
  stats : Stats

def Results.ofTally (inputs : List Input) (entries : List Entry) (t : Tally) : Results :=
  ⟨entries, ⟨.ofNat inputs.length, t.succeeded, t.failed⟩⟩

/-- The entries of documents up to the first that fails, counted. -/
def entriesToFailure (transform : Input → Course Entry) (t : Tally) : List Input → Course (List Entry × Tally)
  | [] => pure ([], t)
  | i :: is => do
    let e ← transform i
    if e.failed then pure ([e], t.count e)
    else do
      let (es, t) ← entriesToFailure transform (t.count e) is
      pure (e :: es, t)

/-- Transforms a batch, with the schedule that its workers keep to if there are any: nothing if they cannot keep to it,
if it leaves documents behind, or if a document does not come to an end. All documents share the highlighter, which
remembers nothing. -/
def process (m : Machine) (files : Storage) (options : Options) (highlighter : Option (String → String → Answer))
    (schedule : List Nat) (inputs : List Input) : Option (Logged Results) :=
  let transform := entry files options.config.toOptions (highlighter.map .ofFunction)
  if options.continueOnError.getD true then do
    let w ← Workers.run? (m.threads options.maxThreads) transform schedule (.start inputs)
    let es ← w.entries?
    some ⟨.ofTally inputs es w.tally, w.log⟩
  else
    let done := entriesToFailure transform {} inputs
    done.value?.map fun (es, t) => ⟨.ofTally inputs es t, done.log⟩

end Folio.Batch
