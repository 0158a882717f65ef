import Folio.Batch.Workers
import Mathlib.Algebra.GroupWithZero.Nat
import Mathlib.Data.Set.List

/-!
# Workers in any order

A step takes one document one step further (`step?_cases`). What each document comes to does not change on the way and
the tally is that of the entries counted so far (`Inv`), so in the end the entries are those of the documents, whatever
the schedule (`entries_of_run?`). The workers do not get stuck before that if each document comes to an end
(`exists_step`), and a schedule has three steps for each document at most (`length_of_run?`).
-/

namespace Folio.Batch

/-! ### Tallies -/

/-- The numbers of entries that succeeded and failed. -/
def Tally.of (es : List Entry) : Tally where
  succeeded := .ofNat (es.countP fun e => !e.failed)
  failed := .ofNat (es.countP Entry.failed)

/-- It does not matter when an entry is counted. -/
theorem Tally.of_append_cons (es : List Entry) (e : Entry) (es' : List Entry) :
    Tally.of (es ++ e :: es') = (Tally.of (es ++ es')).count e := by
  cases h : e.failed <;>
    simp [Tally.of, Tally.count, h, List.countP_append, ← Nat.add_assoc, UInt32.ofNat_add]

theorem Tally.of_concat (es : List Entry) (e : Entry) : Tally.of (es ++ [e]) = (Tally.of es).count e := by
  rw [Tally.of_append_cons, List.append_nil]

/-! ### Stages -/

namespace Stage

def counted? : Stage → Option Entry
  | counted e | stored e => some e
  | _ => none

def left : Stage → Nat
  | waiting _ => 3
  | running _ => 2
  | counted _ => 1
  | stored _ => 0

/-- What the document of a stage comes to, if there is an end. -/
def final? (transform : Input → Course Entry) : Stage → Option Entry
  | waiting i | running i => (transform i).value?
  | counted e | stored e => some e

end Stage

namespace Workers

variable {threads : Nat} {transform : Input → Course Entry} {schedule : List Nat} {inputs : List Input}
  {w w' : Workers} {place : Nat}

/-! ### Steps -/

/-- A step takes one document up, or transforms and counts it, or stores its entry. -/
theorem step?_cases (h : step? threads transform w place = some w') : ∃ before s s' behind,
    w.stages = before ++ s :: behind ∧ w'.stages = before ++ s' :: behind ∧
      ((∃ i, s = .waiting i ∧ s' = .running i ∧ w'.tally = w.tally) ∨
        (∃ i e, s = .running i ∧ s' = .counted e ∧ (transform i).value? = some e ∧ w'.tally = w.tally.count e) ∨
        (∃ e, s = .counted e ∧ s' = .stored e ∧ w'.tally = w.tally)) := by
  have split {s : Stage} (there : w.stages[place]? = some s) (s' : Stage) :
      ∃ before behind, w.stages = before ++ s :: behind ∧ w.stages.set place s' = before ++ s' :: behind := by
    obtain ⟨lt, rfl⟩ := List.getElem?_eq_some_iff.1 there
    obtain ⟨before, behind, eq, -, set⟩ := List.exists_of_set lt
    exact ⟨before, behind, eq, set⟩
  rw [step?] at h
  cases there : w.stages[place]? with
  | none =>
    rw [there] at h
    cases h
  | some s =>
    rw [there] at h
    cases s with
    | waiting i =>
      obtain ⟨-, h⟩ := Option.ite_none_right_eq_some.1 h
      obtain rfl := Option.some.inj h
      obtain ⟨before, behind, eq, set⟩ := split there (.running i)
      exact ⟨before, _, _, behind, eq, set, .inl ⟨i, rfl, rfl, rfl⟩⟩
    | running i =>
      obtain ⟨e, ended, rfl⟩ := Option.map_eq_some_iff.1 h
      obtain ⟨before, behind, eq, set⟩ := split there (.counted e)
      exact ⟨before, _, _, behind, eq, set, .inr (.inl ⟨i, e, rfl, rfl, ended, rfl⟩)⟩
    | counted e =>
      obtain rfl := Option.some.inj h
      obtain ⟨before, behind, eq, set⟩ := split there (.stored e)
      exact ⟨before, _, _, behind, eq, set, .inr (.inr ⟨e, rfl, rfl, rfl⟩)⟩
    | stored e => cases h

theorem map_final?_step (h : step? threads transform w place = some w') :
    w'.stages.map (Stage.final? transform) = w.stages.map (Stage.final? transform) := by
  obtain ⟨before, s, s', behind, eq, eq', step⟩ := step?_cases h
  have same : s'.final? transform = s.final? transform := by
    rcases step with ⟨i, rfl, rfl, -⟩ | ⟨i, e, rfl, rfl, ended, -⟩ | ⟨e, rfl, rfl, -⟩
    · rfl
    · exact ended.symm
    · rfl
  rw [eq, eq', List.map_append, List.map_append, List.map_cons, List.map_cons, same]

/-- What each document comes to is what its transformation gives, and the tally is that of the entries counted so
far. -/
structure Inv (transform : Input → Course Entry) (inputs : List Input) (w : Workers) : Prop where
  final : w.stages.map (Stage.final? transform) = inputs.map fun i => (transform i).value?
  tally : w.tally = .of (w.stages.filterMap Stage.counted?)

theorem inv_start (transform : Input → Course Entry) (inputs : List Input) : Inv transform inputs (start inputs) where
  final := by
    rw [start, List.map_map]
    rfl
  tally := by
    rw [start, List.filterMap_map]
    exact congrArg Tally.of (List.filterMap_eq_nil_iff.2 fun _ _ => rfl).symm

theorem inv_step (h : step? threads transform w place = some w') (inv : Inv transform inputs w) :
    Inv transform inputs w' := by
  refine ⟨(map_final?_step h).trans inv.final, ?_⟩
  have tally := inv.tally
  obtain ⟨before, s, s', behind, eq, eq', step⟩ := step?_cases h
  rw [eq] at tally
  rcases step with ⟨i, rfl, rfl, same⟩ | ⟨i, e, rfl, rfl, -, counted⟩ | ⟨e, rfl, rfl, same⟩
  · rw [same, tally, eq']
    simp [Stage.counted?, List.filterMap_cons]
  · rw [counted, tally, eq']
    simp [Stage.counted?, List.filterMap_cons, Tally.of_append_cons]
  · rw [same, tally, eq']
    simp [Stage.counted?]

def left (w : Workers) : Nat := (w.stages.map Stage.left).sum

theorem left_start (inputs : List Input) : (start inputs).left = 3 * inputs.length := by
  have each : Stage.left ∘ Stage.waiting = fun _ => 3 := rfl
  rw [left, start, List.map_map, each, List.map_const', List.sum_replicate_nat, Nat.mul_comm]

theorem left_step (h : step? threads transform w place = some w') : w.left = w'.left + 1 := by
  obtain ⟨before, s, s', behind, eq, eq', step⟩ := step?_cases h
  rw [left, left, eq, eq']
  rcases step with ⟨i, rfl, rfl, -⟩ | ⟨i, e, rfl, rfl, -⟩ | ⟨e, rfl, rfl, -⟩ <;>
    simp only [List.map_append, List.map_cons, List.sum_append, List.sum_cons, Stage.left] <;> omega

/-! ### Runs -/

theorem run?_cons (place : Nat) (schedule : List Nat) (w : Workers) :
    run? threads transform (place :: schedule) w =
      (step? threads transform w place).bind (run? threads transform schedule) := List.foldlM_cons

theorem run?_append (first rest : List Nat) (w : Workers) :
    run? threads transform (first ++ rest) w =
      (run? threads transform first w).bind (run? threads transform rest) := List.foldlM_append

theorem inv_run (h : run? threads transform schedule w = some w') (inv : Inv transform inputs w) :
    Inv transform inputs w' := by
  induction schedule generalizing w with
  | nil =>
    obtain rfl := Option.some.inj h
    exact inv
  | cons place schedule ih =>
    rw [run?_cons] at h
    obtain ⟨v, step, rest⟩ := Option.bind_eq_some_iff.1 h
    exact ih rest (inv_step step inv)

/-- Every step of a schedule is one less that is left. -/
theorem length_of_run? (h : run? threads transform schedule w = some w') : schedule.length + w'.left = w.left := by
  induction schedule generalizing w with
  | nil =>
    obtain rfl := Option.some.inj h
    exact Nat.zero_add _
  | cons place schedule ih =>
    rw [run?_cons] at h
    obtain ⟨v, step, rest⟩ := Option.bind_eq_some_iff.1 h
    have after := ih rest
    have one := left_step step
    rw [List.length_cons]
    omega

/-! ### The end -/

theorem entries?_eq_some_iff {es : List Entry} : w.entries? = some es ↔ w.stages = es.map .stored := by
  obtain ⟨stages, tally, log⟩ := w
  change stages.mapM Stage.stored? = some es ↔ stages = es.map .stored
  induction stages generalizing es with
  | nil => simp [eq_comm]
  | cons s stages ih =>
    rw [List.mapM_cons, Option.bind_eq_bind, Option.bind_eq_some_iff]
    cases s with
    | stored e => cases es <;> simp [Stage.stored?, Option.bind_eq_some_iff, ih, and_comm]
    | _ => cases es <;> simp [Stage.stored?]

/-- At the end the entries are those of the documents in their order, and the tally is theirs. -/
theorem entries_of_run? {es : List Entry} (h : run? threads transform schedule (start inputs) = some w)
    (stored : w.entries? = some es) :
    es.map some = (inputs.map fun i => (transform i).value?) ∧ w.tally = .of es := by
  obtain ⟨final, tally⟩ := inv_run h (inv_start transform inputs)
  rw [entries?_eq_some_iff.1 stored] at final tally
  have entry : Stage.final? transform ∘ Stage.stored = some := rfl
  have counted : Stage.counted? ∘ Stage.stored = some := rfl
  rw [List.map_map, entry] at final
  rw [List.filterMap_map, counted, List.filterMap_some] at tally
  exact ⟨final, tally⟩

/-- Each document that the workers have not stored yet comes to an end. -/
def Ends (transform : Input → Course Entry) (w : Workers) : Prop :=
  ∀ r ∈ w.stages.map (Stage.final? transform), r.isSome

theorem Ends.step (h : step? threads transform w place = some w') (ends : Ends transform w) : Ends transform w' := by
  rwa [Ends, map_final?_step h]

theorem Ends.of_inv (inv : Inv transform inputs w) (ends : ∀ i ∈ inputs, (transform i).value?.isSome) :
    Ends transform w := by
  rw [Ends, inv.final]
  exact List.forall_mem_map.2 ends

/-- The workers have stored all entries or can make a step. -/
theorem exists_step (pos : 0 < threads) (ends : Ends transform w) :
    (∃ es, w.entries? = some es) ∨ ∃ place w', step? threads transform w place = some w' := by
  by_cases busy : ∃ s ∈ w.stages, s.isUnderWay
  · -- a document that is under way can always go on
    obtain ⟨s, hs, underWay⟩ := busy
    obtain ⟨place, there⟩ := List.mem_iff_getElem?.1 hs
    refine .inr ⟨place, ?_⟩
    rw [step?, there]
    cases s with
    | running i =>
      obtain ⟨e, ended⟩ := Option.isSome_iff_exists.1 (ends _ (List.mem_map_of_mem hs))
      exact ⟨_, congrArg (Option.map _) ended⟩
    | counted e => exact ⟨_, rfl⟩
    | _ => cases underWay
  · have idle : w.stages.countP Stage.isUnderWay = 0 :=
      List.countP_eq_zero.2 fun s hs underWay => busy ⟨s, hs, underWay⟩
    by_cases waits : ∃ i, Stage.waiting i ∈ w.stages
    · -- all threads are free
      obtain ⟨i, hi⟩ := waits
      obtain ⟨place, there⟩ := List.mem_iff_getElem?.1 hi
      refine .inr ⟨place, ?_⟩
      rw [step?, there]
      exact ⟨_, if_pos (idle ▸ pos)⟩
    · have stored : ∀ s ∈ w.stages, ∃ e, Stage.stored e = s := by
        intro s hs
        cases s with
        | stored e => exact ⟨e, rfl⟩
        | waiting i => exact absurd ⟨i, hs⟩ waits
        | running i => exact absurd ⟨_, hs, rfl⟩ busy
        | counted e => exact absurd ⟨_, hs, rfl⟩ busy
      obtain ⟨es, eq⟩ : w.stages ∈ Set.range (List.map Stage.stored) := by
        rw [Set.range_list_map]
        exact stored
      exact .inl ⟨es, entries?_eq_some_iff.2 eq.symm⟩

/-- If each document comes to an end, then there is a schedule to the end. -/
theorem exists_run (pos : 0 < threads) (ends : Ends transform w) :
    ∃ schedule w' es, run? threads transform schedule w = some w' ∧ w'.entries? = some es := by
  induction left : w.left generalizing w with
  | zero =>
    rcases exists_step pos ends with ⟨es, stored⟩ | ⟨place, w', step⟩
    · exact ⟨[], w, es, rfl, stored⟩
    · have one := left_step step
      omega
  | succ n ih =>
    rcases exists_step pos ends with ⟨es, stored⟩ | ⟨place, w', step⟩
    · exact ⟨[], w, es, rfl, stored⟩
    · have one := left_step step
      obtain ⟨schedule, v, es, run, stored⟩ := ih (ends.step step) (by omega)
      refine ⟨place :: schedule, v, es, ?_, stored⟩
      rw [run?_cons, step]
      exact run

/-- A document that is the only one under way is taken through all its steps. -/
theorem run?_replicate (pos : 0 < threads) {i : Input} {e : Entry} (ended : (transform i).value? = some e)
    (done : List Entry) (rest : List Input) (tally : Tally) (log : List LogLine) :
    run? threads transform (List.replicate 3 done.length)
        ⟨done.map .stored ++ .waiting i :: rest.map .waiting, tally, log⟩ =
      some ⟨(done ++ [e]).map .stored ++ rest.map .waiting, tally.count e, log ++ (transform i).log⟩ := by
  have idle :
      (done.map Stage.stored ++ Stage.waiting i :: rest.map Stage.waiting).countP Stage.isUnderWay < threads := by
    have none : (done.map Stage.stored ++ Stage.waiting i :: rest.map Stage.waiting).countP Stage.isUnderWay = 0 := by
      rw [List.countP_eq_zero]
      simp [or_imp, forall_and, Stage.isUnderWay]
    rwa [none]
  have there : (done.map Stage.stored ++ Stage.waiting i :: rest.map Stage.waiting)[done.length]? =
      some (.waiting i) := by simp
  rw [List.replicate_succ, run?_cons, step?]
  dsimp only
  rw [there]
  dsimp only
  rw [if_pos idle, Option.bind_some]
  simp [run?, step?, put, List.replicate, ended]

theorem run?_inOrder (pos : 0 < threads) (ends : ∀ i ∈ inputs, (transform i).value?.isSome) :
    ∃ w es, run? threads transform (inOrder inputs.length) (start inputs) = some w ∧ w.entries? = some es := by
  have from_place (rest : List Input) (ends : ∀ i ∈ rest, (transform i).value?.isSome) (done : List Entry)
      (tally : Tally) (log : List LogLine) :
      ∃ w es, run? threads transform ((List.range' done.length rest.length).flatMap (List.replicate 3))
        ⟨done.map .stored ++ rest.map .waiting, tally, log⟩ = some w ∧ w.entries? = some es := by
    induction rest generalizing done tally log with
    | nil => exact ⟨_, done, rfl, entries?_eq_some_iff.2 (List.append_nil _)⟩
    | cons i rest ih =>
      obtain ⟨first, ends⟩ := List.forall_mem_cons.1 ends
      obtain ⟨e, ended⟩ := Option.isSome_iff_exists.1 first
      obtain ⟨w, es, run, stored⟩ := ih ends (done ++ [e]) (tally.count e) (log ++ (transform i).log)
      refine ⟨w, es, ?_, stored⟩
      rw [List.length_cons, List.range'_succ, List.flatMap_cons, run?_append, List.map_cons,
        run?_replicate pos ended, Option.bind_some, ← run, List.length_append, List.length_singleton]
  rw [inOrder, List.range_eq_range']
  exact from_place inputs ends [] {} []

end Workers

end Folio.Batch
