import Folio.Batch
import Folio.Proofs.Batch.Workers
import Folio.Proofs.Highlighting.Runs

/-!
# The results of a batch

A batch leaves the entries that its documents leave on their own, in their order: all of them, or those up to the first
that fails. Neither the threads nor the schedule make a difference, and the numbers are those of the entries
(`process_eq_alone`).
-/

namespace Folio.Batch

/-! ### Entries -/

/-- The entry of a document that is transformed on its own, if that comes to an end. Its path is its name unless another
one is given. -/
def alone? (files : Storage) (options : Pipeline.Options) (highlighter : Option Highlighter) (i : Input) :
    Option Entry :=
  (transformOne files options highlighter i.source (i.filepath.getD i.id)).value?.map fun (calls, outcome) =>
    { id := i.id
      calls
      result := outcome.toOption
      error := match outcome with
        | .ok _ => none
        | .error message => some message }

theorem value?_entry (files : Storage) (options : Pipeline.Options) (highlighter : Option Highlighter) (i : Input) :
    (entry files options highlighter i).value? = alone? files options highlighter i := by
  rw [entry, alone?, Course.value?_bind, Input.path]
  cases (transformOne files options highlighter i.source (i.filepath.getD i.id)).value? with
  | none => rfl
  | some r =>
    obtain ⟨calls, outcome⟩ := r
    cases outcome <;> rfl

theorem isSome_result_of_alone? {files : Storage} {options : Pipeline.Options} {highlighter : Option Highlighter}
    {i : Input} {e : Entry} (h : alone? files options highlighter i = some e) : e.result.isSome = !e.failed := by
  obtain ⟨⟨calls, outcome⟩, -, rfl⟩ := Option.map_eq_some_iff.1 h
  cases outcome <;> rfl

/-! ### Up to the first failure -/

/-- The entries up to and including the first one of a failure. -/
def upToFailure (es : List (Option Entry)) : List (Option Entry) := es.take (es.findIdx (·.any Entry.failed) + 1)

theorem upToFailure_cons (e : Option Entry) (es : List (Option Entry)) :
    upToFailure (e :: es) = e :: if e.any Entry.failed then [] else upToFailure es := by
  rw [upToFailure, List.findIdx_cons, List.take_succ_cons]
  cases e.any Entry.failed <;> rfl

theorem upToFailure_sublist (es : List (Option Entry)) : (upToFailure es).Sublist es := List.take_sublist _ _

section

variable (transform : Input → Course Entry) (before : List Entry) (inputs : List Input)

/-- One document after the other gives the entries up to the first failure, and counts them. -/
theorem entries_of_entriesToFailure {es : List Entry} {t : Tally}
    (h : (entriesToFailure transform (.of before) inputs).value? = some (es, t)) :
    es.map some = upToFailure (inputs.map fun i => (transform i).value?) ∧ t = .of (before ++ es) := by
  induction inputs generalizing before es t with
  | nil =>
    cases h
    rw [List.append_nil]
    exact ⟨rfl, rfl⟩
  | cons i is ih =>
    rw [entriesToFailure, Course.value?_bind] at h
    obtain ⟨e, ended, h⟩ := Option.bind_eq_some_iff.1 h
    rw [← Tally.of_concat] at h
    rw [List.map_cons, ended, upToFailure_cons, Option.any_some]
    cases fails : e.failed with
    | true =>
      rw [fails, if_pos rfl] at h
      cases h
      exact ⟨rfl, rfl⟩
    | false =>
      rw [fails, if_neg Bool.false_ne_true, Course.value?_bind] at h
      obtain ⟨⟨rest, t⟩, behind, h⟩ := Option.bind_eq_some_iff.1 h
      cases h
      obtain ⟨entries, tally⟩ := ih _ behind
      rw [List.append_assoc] at tally
      exact ⟨congrArg (some e :: ·) entries, tally⟩

/-- If the documents up to the first failure come to an end, so do these one after the other. -/
theorem isSome_entriesToFailure (t : Tally)
    (ends : ∀ r ∈ upToFailure (inputs.map fun i => (transform i).value?), r.isSome) :
    (entriesToFailure transform t inputs).value?.isSome := by
  induction inputs generalizing t with
  | nil => rfl
  | cons i is ih =>
    rw [List.map_cons, upToFailure_cons] at ends
    obtain ⟨first, rest⟩ := List.forall_mem_cons.1 ends
    obtain ⟨e, ended⟩ := Option.isSome_iff_exists.1 first
    rw [entriesToFailure, Course.value?_bind, ended, Option.bind_some]
    rw [ended, Option.any_some] at rest
    cases fails : e.failed with
    | true => rfl
    | false =>
      rw [fails, if_neg Bool.false_ne_true] at rest
      obtain ⟨r, behind⟩ := Option.isSome_iff_exists.1 (ih (t.count e) rest)
      rw [if_neg Bool.false_ne_true, Course.value?_bind, behind]
      rfl

end

/-! ### Numbers -/

/-- The numbers of a batch are those of its documents and of its entries, and each entry has a result or an error but
not both. -/
structure Results.Matches (inputs : List Input) (r : Results) : Prop where
  total : r.stats.total.toNat = inputs.length
  succeeded : r.stats.succeeded.toNat = r.entries.countP (·.result.isSome)
  failed : r.stats.failed.toNat = r.entries.countP (·.error.isSome)
  sum : r.stats.succeeded.toNat + r.stats.failed.toNat = r.entries.length
  either : ∀ e ∈ r.entries, e.result.isSome = !e.error.isSome

theorem matches_ofTally {inputs : List Input} {es : List Entry} (few : inputs.length < UInt32.size)
    (le : es.length ≤ inputs.length) (either : ∀ e ∈ es, e.result.isSome = !e.failed) :
    (Results.ofTally inputs es (.of es)).Matches inputs := by
  have small {n : Nat} (h : n ≤ inputs.length) : (UInt32.ofNat n).toNat = n :=
    UInt32.toNat_ofNat_of_lt' (Nat.lt_of_le_of_lt h few)
  have bound (p : Entry → Bool) : es.countP p ≤ inputs.length := Nat.le_trans List.countP_le_length le
  have succeeded : (UInt32.ofNat (es.countP fun e => !e.failed)).toNat = es.countP fun e => !e.failed := small (bound _)
  have failed : (UInt32.ofNat (es.countP Entry.failed)).toNat = es.countP Entry.failed := small (bound _)
  refine ⟨small (Nat.le_refl _), succeeded.trans ?_, failed, ?_, either⟩
  · exact List.countP_congr fun e he => by rw [either e he]
  · change (UInt32.ofNat _).toNat + (UInt32.ofNat _).toNat = es.length
    rw [succeeded, failed, List.length_eq_countP_add_countP Entry.failed, Nat.add_comm]
    simp

/-! ### The batch -/

theorem Machine.threads_pos (m : Machine) (asked : Option UInt32) : 0 < m.threads asked := by
  have shared := m.shared_pos
  cases asked with
  | none => exact shared
  | some n =>
    rw [threads]
    split
    · rename_i own
      exact Nat.pos_of_ne_zero fun zero => own.1 (UInt32.toNat_inj.1 zero)
    · exact shared

section

variable (m : Machine) (files : Storage) (options : Options) (highlighter : Option (String → String → Answer))

/-- What a batch does on the way, whichever schedule its workers keep to. -/
abbrev workers? (schedule : List Nat) (inputs : List Input) : Option Workers :=
  Workers.run? (m.threads options.maxThreads)
    (entry files options.config.toOptions (highlighter.map .ofFunction)) schedule (.start inputs)

/-- What the documents of a batch come to on their own, up to the first failure if the batch ends with it. -/
def wanted (inputs : List Input) : List (Option Entry) :=
  let all := inputs.map (alone? files options.config.toOptions (highlighter.map .ofFunction))
  if options.continueOnError.getD true then all else upToFailure all

variable {m files options highlighter}

theorem map_value?_entry (files : Storage) (options : Pipeline.Options) (highlighter : Option Highlighter)
    (inputs : List Input) :
    (inputs.map fun i => (entry files options highlighter i).value?) = inputs.map (alone? files options highlighter) :=
  List.map_congr_left fun i _ => value?_entry files options highlighter i

/-- Entries that documents of a batch come to on their own, with their numbers. -/
theorem matches_of_sublist {inputs : List Input} {es : List Entry} (few : inputs.length < UInt32.size)
    {options : Pipeline.Options} {highlighter : Option Highlighter}
    (sub : (es.map some).Sublist (inputs.map (alone? files options highlighter))) :
    (Results.ofTally inputs es (.of es)).Matches inputs := by
  have length := sub.length_le
  rw [List.length_map, List.length_map] at length
  refine matches_ofTally few length fun e he => ?_
  obtain ⟨i, -, ended⟩ := List.mem_map.1 (sub.subset (List.mem_map_of_mem he))
  exact isSome_result_of_alone? ended

/-- What a batch returns are the entries that are wanted, and their numbers. -/
theorem wanted_of_process {schedule : List Nat} {inputs : List Input} {r : Logged Results}
    (few : inputs.length < UInt32.size) (h : process m files options highlighter schedule inputs = some r) :
    r.value.entries.map some = wanted files options highlighter inputs ∧ r.value.Matches inputs := by
  rw [process] at h
  rw [wanted]
  split at h <;> rename_i goesOn
  · -- side by side
    obtain ⟨w, run, h⟩ := Option.bind_eq_some_iff.1 h
    obtain ⟨es, stored, h⟩ := Option.bind_eq_some_iff.1 h
    obtain rfl := Option.some.inj h
    obtain ⟨entries, tally⟩ := Workers.entries_of_run? run stored
    rw [map_value?_entry] at entries
    rw [if_pos goesOn, tally]
    exact ⟨entries, matches_of_sublist few (by rw [entries])⟩
  · -- one after the other
    obtain ⟨⟨es, t⟩, ended, rfl⟩ := Option.map_eq_some_iff.1 h
    obtain ⟨entries, rfl⟩ := entries_of_entriesToFailure _ [] inputs ended
    rw [map_value?_entry] at entries
    have sub := upToFailure_sublist (inputs.map (alone? files options.config.toOptions (highlighter.map .ofFunction)))
    rw [← entries] at sub
    rw [if_neg goesOn]
    exact ⟨entries, matches_of_sublist few sub⟩

section

variable (m : Machine) {schedule : List Nat} {inputs : List Input}
  (ends : ∀ x ∈ wanted files options highlighter inputs, x.isSome)

include ends

/-- If the documents that are wanted come to an end, then so does the batch, once its workers have stored the entries if
there are any. -/
theorem isSome_process (stored : options.continueOnError.getD true →
      ∃ w es, workers? m files options highlighter schedule inputs = some w ∧ w.entries? = some es) :
    (process m files options highlighter schedule inputs).isSome := by
  simp only [process]
  rw [wanted] at ends
  split <;> rename_i goesOn
  · obtain ⟨w, es, run, stored⟩ := stored goesOn
    simp [run, stored]
  · rw [if_neg goesOn, ← map_value?_entry] at ends
    rw [Option.isSome_map]
    exact isSome_entriesToFailure _ inputs {} ends

theorem isSome_value?_entry (goesOn : options.continueOnError.getD true) : ∀ i ∈ inputs,
    (entry files options.config.toOptions (highlighter.map .ofFunction) i).value?.isSome := by
  rw [wanted, if_pos goesOn, ← map_value?_entry] at ends
  exact List.forall_mem_map.1 ends

/-- One document after the other is a schedule with which the batch comes to an end. -/
theorem isSome_process_inOrder : (process m files options highlighter (inOrder inputs.length) inputs).isSome :=
  isSome_process m ends fun goesOn =>
    Workers.run?_inOrder (m.threads_pos options.maxThreads) (isSome_value?_entry ends goesOn)

/-- Every schedule that the workers of a batch can keep to goes on to one with which the batch comes to an end. -/
theorem exists_process {w : Workers} (run : workers? m files options highlighter schedule inputs = some w) :
    ∃ more, (process m files options highlighter (schedule ++ more) inputs).isSome := by
  by_cases goesOn : options.continueOnError.getD true
  · obtain ⟨more, v, es, rest, stored⟩ := Workers.exists_run (m.threads_pos options.maxThreads)
      (.of_inv (Workers.inv_run run (Workers.inv_start ..)) (isSome_value?_entry ends goesOn))
    have whole : workers? m files options highlighter (schedule ++ more) inputs = some v :=
      (Workers.run?_append ..).trans (Option.bind_eq_some_iff.2 ⟨w, run, rest⟩)
    exact ⟨more, isSome_process m ends fun _ => ⟨v, es, whole, stored⟩⟩
  · exact ⟨[], isSome_process m ends fun goesOn' => absurd goesOn' goesOn⟩

end

/-- A document comes to an end without a highlighter, and with one if no answer holds a block. -/
theorem isSome_alone? {highlighter : Option Highlighter} (blockless : ∀ h ∈ highlighter, CodeBlock.IsBlockless h)
    (files : Storage) (options : Pipeline.Options) (i : Input) : (alone? files options highlighter i).isSome := by
  have ends (p : Pipeline) (blockless : ∀ a ∈ p.adapter, CodeBlock.IsBlockless a.highlighter) :
      ∃ r, (p.transform files i.source (i.filepath.getD i.id)).value? = some r :=
    Pipeline.exists_value?_transform blockless files _ _
  simp only [alone?, transformOne, Option.isSome_map, Course.value?_bind, Course.value?_pure]
  cases highlighter with
  | none =>
    obtain ⟨r, ended⟩ := ends (.ofOptions options) (fun _ h => nomatch h)
    rw [ended]
    rfl
  | some h =>
    obtain ⟨r, ended⟩ := ends ((Pipeline.ofOptions options).withHighlighter h) (by
      rintro _ ⟨⟩
      exact blockless h rfl)
    rw [ended]
    rfl

/-- A batch leaves the entries that its documents come to on their own, all of them or those up to the first failure, in
any schedule, and nothing if one of these documents does not come to an end. If they do, every schedule that its workers
can keep to goes on to one that comes to an end; they do if there is no highlighter, or if no answer holds a block. -/
theorem process_eq_alone (m : Machine) (files : Storage) (options : Options)
    (highlighter : Option (String → String → Answer)) (inputs : List Input) (few : inputs.length < UInt32.size) :
    let memoryless := highlighter.map .ofFunction
    let all := inputs.map (alone? files options.config.toOptions memoryless)
    let wanted := if options.continueOnError.getD true then all else upToFailure all
    (∀ schedule r, process m files options highlighter schedule inputs = some r →
      r.value.entries.map some = wanted ∧ r.value.Matches inputs) ∧
    (∀ schedule w, workers? m files options highlighter schedule inputs = some w →
      schedule.length ≤ 3 * inputs.length ∧ ((∀ e ∈ wanted, e.isSome) →
        ∃ more, (process m files options highlighter (schedule ++ more) inputs).isSome)) ∧
    ((∀ h ∈ memoryless, CodeBlock.IsBlockless h) → ∀ e ∈ all, e.isSome) := by
  intro memoryless all wanted
  refine ⟨fun schedule r h => wanted_of_process few h, fun schedule w run => ⟨?_, fun ends => exists_process m ends run⟩,
    fun blockless => ?_⟩
  · have steps := Workers.length_of_run? run
    rw [Workers.left_start] at steps
    omega
  · exact List.forall_mem_map.2 fun i _ => isSome_alone? blockless files options.config.toOptions i

end

/-- A document that fails, and one that does not. -/
def twoPosts : List Input :=
  [⟨"a.md", "no metadata", some "/site/a.md"⟩,
    ⟨"b.md", "---\ntitle: Test\npubDate: 2024-01-01\nsummary: s\n---\n", none⟩]

/-- The second document is taken up first. A batch that stops has the first one only. -/
theorem process_twoPosts :
    let m : Machine := ⟨2, by decide, true⟩
    let all := twoPosts.map (alone? .nothing {} none)
    twoPosts.length < UInt32.size ∧ all.map (Option.map Entry.failed) = [some true, some false] ∧
      (∃ r, process m .nothing {} none [1, 0, 0, 1, 1, 0] twoPosts = some r ∧ r.value.entries.map some = all ∧
        r.value.Matches twoPosts) ∧
      ∃ r, process m .nothing { continueOnError := some false } none [] twoPosts = some r ∧
        r.value.entries.map some = all.take 1 ∧ r.value.Matches twoPosts := by
  intro m all
  have few : twoPosts.length < UInt32.size := by decide
  have failed : all.map (Option.map Entry.failed) = [some true, some false] := by decide +kernel
  have first : upToFailure all = all.take 1 := by
    obtain ⟨e, ended, fails⟩ := Option.map_eq_some_iff.1 (List.cons_eq_cons.1 failed).1
    refine (upToFailure_cons _ _).trans ?_
    rw [if_pos]
    · rfl
    · rw [ended]
      exact fails
  refine ⟨few, failed, ?_, ?_⟩
  · obtain ⟨r, h⟩ := Option.isSome_iff_exists.1 (show (process m .nothing {} none [1, 0, 0, 1, 1, 0] twoPosts).isSome by
      decide +kernel)
    exact ⟨r, h, (process_eq_alone m .nothing {} none twoPosts few).1 _ r h⟩
  · obtain ⟨r, h⟩ := Option.isSome_iff_exists.1
      (show (process m .nothing { continueOnError := some false } none [] twoPosts).isSome by decide +kernel)
    obtain ⟨entries, numbers⟩ :=
      (process_eq_alone m .nothing { continueOnError := some false } none twoPosts few).1 [] r h
    exact ⟨r, h, entries.trans first, numbers⟩

/-- A document with a block of code. -/
def fencedPost : Input :=
  ⟨"a.md", "---\ntitle: Test\npubDate: 2024-01-01\nsummary: s\n---\n```a\nx\n```\n", none⟩

/-- A highlighter that always answers with the same block. -/
def echoing : String → String → Answer := fun _ _ => .markup "<pre><code class=\"language-a\">x</code></pre>"

theorem isEchoing_echoing : CodeBlock.IsEchoing (.ofFunction echoing) :=
  fun _ _ => ⟨_, rfl, by decide +kernel⟩

theorem alone?_fencedPost : alone? .nothing {} (some (.ofFunction echoing)) fencedPost = none := by
  have blocks : Pipeline.blocks? .nothing {} fencedPost.source (fencedPost.filepath.getD fencedPost.id) =
      some [⟨"x\n", "a"⟩] := by decide +kernel
  have endless := Pipeline.transform_eq_none isEchoing_echoing blocks
  simp only [alone?, transformOne, Course.value?_bind, endless, Option.bind_none, Option.map_none]

/-- A batch with a document that does not come to an end returns nothing, whichever schedule its workers keep to. -/
theorem process_fencedPost :
    let m : Machine := ⟨2, by decide, true⟩
    alone? .nothing {} (some (.ofFunction echoing)) fencedPost = none ∧
      ∀ schedule, process m .nothing {} (some echoing) schedule [fencedPost] = none := by
  intro m
  refine ⟨alone?_fencedPost, fun schedule => Option.eq_none_iff_forall_ne_some.2 fun r h => ?_⟩
  obtain ⟨entries, -⟩ := wanted_of_process (by decide) h
  have none : wanted .nothing {} (some echoing) [fencedPost] = [none] := congrArg ([·]) alone?_fencedPost
  rw [none] at entries
  cases entries' : r.value.entries <;> rw [entries'] at entries <;> cases entries

end Folio.Batch
