import Folio.Html.Properties
import Mathlib.Data.List.Induction
import Mathlib.Data.List.Nodup
import Mathlib.Data.Set.Card

/-!
# Properties and their history

Properties are a plain list of entries, and a lookup stops at the first one of a name. That is enough because no
operation makes a name occur twice (`nodup_names_run`). Properties that have gone through operations are therefore a
matter of the history alone: `LastSet` says which value a name has, and `AbsentUntil` since when it is there
(`run_represents`).
-/

namespace Folio.Html.Properties

/-- What can be done with properties. -/
inductive Operation where
  | set (name : String) (v : PropertyValue)
  | get (name : String)
  | remove (name : String)
deriving DecidableEq, Repr

/-- The operation sets the name or removes it. -/
def Operation.Concerns (name : String) : Operation → Prop
  | .set n _ => n = name
  | .get _ => False
  | .remove n => n = name

/-- The answer to an operation, and the properties behind it. -/
def serve (p : Properties) : Operation → Option PropertyValue × Properties
  | .set n v => (none, p.set n v)
  | .get n => (p.get? n, p)
  | .remove n => p.take n

/-- What operations make of no properties. -/
def run (ops : List Operation) : Properties := ops.foldl (fun p op => (p.serve op).2) empty

/-- The last operation that concerns a name sets it to a value. -/
def LastSet (name : String) (v : PropertyValue) (ops : List Operation) : Prop :=
  ∃ past rest, ops = past ++ .set name v :: rest ∧ ∀ op ∈ rest, ¬ op.Concerns name

/-- Operations leave a value to a name. -/
def IsPresent (name : String) (ops : List Operation) : Prop := ∃ v, LastSet name v ops

/-- A name is absent behind so many operations and present ever after. -/
def AbsentUntil (name : String) (ops : List Operation) (i : Nat) : Prop :=
  ¬ IsPresent name (ops.take i) ∧ ∀ j, i < j → IsPresent name (ops.take j)

variable {p : Properties} {ops : List Operation} {op : Operation} {name n : String} {v w : PropertyValue}

/-! ### What histories say -/

theorem not_lastSet_nil : ¬ LastSet name v [] := by
  rintro ⟨past, rest, h, -⟩
  simp at h

theorem lastSet_concat :
    LastSet name v (ops ++ [op]) ↔ op = .set name v ∨ ¬ op.Concerns name ∧ LastSet name v ops := by
  constructor
  · rintro ⟨past, rest, h, later⟩
    rcases List.eq_nil_or_concat rest with rfl | ⟨rest, last, rfl⟩
    · obtain ⟨-, h⟩ := List.append_inj' h rfl
      exact .inl (List.singleton_inj.1 h)
    · rw [List.concat_eq_append] at h later
      rw [← List.cons_append, ← List.append_assoc] at h
      obtain ⟨rfl, same⟩ := List.append_inj' h rfl
      obtain rfl := List.singleton_inj.1 same
      exact .inr ⟨later op (by simp), past, rest, rfl, fun o ho => later o (List.mem_append_left _ ho)⟩
  · rintro (rfl | ⟨other, past, rest, rfl, later⟩)
    · exact ⟨ops, [], rfl, by simp⟩
    · refine ⟨past, rest ++ [op], by simp, fun o ho => ?_⟩
      rcases List.mem_append.1 ho with ho | ho
      · exact later o ho
      · rwa [List.mem_singleton.1 ho]

theorem not_isPresent_nil : ¬ IsPresent name [] := fun ⟨_, h⟩ => not_lastSet_nil h

/-- A name that operations leave present was absent for the last time before all of them were done. -/
theorem AbsentUntil.lt_length {i : Nat} (h : AbsentUntil name ops i) : i < ops.length := by
  by_contra late
  have whole : ops.take i = ops.take (i + 1) := by
    rw [List.take_of_length_le (Nat.le_of_not_lt late), List.take_of_length_le (by omega)]
  exact h.1 (whole ▸ h.2 (i + 1) (Nat.lt_succ_self i))

theorem AbsentUntil.concat {i : Nat} (h : AbsentUntil name ops i) (stays : IsPresent name (ops ++ [op])) :
    AbsentUntil name (ops ++ [op]) i := by
  have inside := h.lt_length
  refine ⟨?_, fun j hj => ?_⟩
  · rw [List.take_append_of_le_length (Nat.le_of_lt inside)]
    exact h.1
  · by_cases hj' : j ≤ ops.length
    · rw [List.take_append_of_le_length hj']
      exact h.2 j hj
    · rwa [List.take_of_length_le (by rw [List.length_append, List.length_singleton]; omega)]

theorem absentUntil_concat (new : ¬ IsPresent name ops) (now : IsPresent name (ops ++ [op])) :
    AbsentUntil name (ops ++ [op]) ops.length := by
  refine ⟨?_, fun j hj => ?_⟩
  · rwa [List.take_left]
  · rwa [List.take_of_length_le (by rw [List.length_append, List.length_singleton]; omega)]

/-- Every name that is present has come to stay at some time. -/
theorem exists_absentUntil (h : IsPresent name ops) : ∃ i, AbsentUntil name ops i := by
  induction ops using List.reverseRecOn with
  | nil => exact absurd h not_isPresent_nil
  | append_singleton ops op ih =>
    by_cases before : IsPresent name ops
    · obtain ⟨i, hi⟩ := ih before
      exact ⟨i, hi.concat h⟩
    · exact ⟨_, absentUntil_concat before h⟩

/-! ### Single operations -/

theorem mem_names_iff : name ∈ p.names ↔ ∃ v, (name, v) ∈ p.entries := by
  rw [names, List.mem_map]
  constructor
  · rintro ⟨⟨n, v⟩, h, rfl⟩
    exact ⟨v, h⟩
  · rintro ⟨v, h⟩
    exact ⟨_, h, rfl⟩

/-- A name that occurs once has the value of its entry. -/
theorem get?_eq_some_iff (nodup : p.names.Nodup) : p.get? name = some v ↔ (name, v) ∈ p.entries := by
  obtain ⟨es⟩ := p
  rw [get?]
  change (es.map (·.1)).Nodup at nodup
  change es.lookup name = some v ↔ (name, v) ∈ es
  induction es with
  | nil => simp
  | cons e es ih =>
    obtain ⟨m, w⟩ := e
    obtain ⟨new, nodup⟩ := List.nodup_cons.1 nodup
    rw [List.lookup_cons, List.mem_cons, Prod.mk.injEq]
    by_cases h : name = m
    · subst h
      have absent : (name, v) ∉ es := fun hv => new (List.mem_map_of_mem (f := (·.1)) hv)
      simp [absent, eq_comm]
    · rw [beq_false_of_ne h]
      simpa [h] using ih nodup

theorem get?_eq_find? (p : Properties) (name : String) :
    p.get? name = (p.entries.find? (·.1 = name)).map (·.2) := by
  obtain ⟨es⟩ := p
  change es.lookup name = _
  induction es with
  | nil => rfl
  | cons e es ih =>
    obtain ⟨m, w⟩ := e
    rw [List.lookup_cons, List.find?_cons]
    by_cases h : m = name
    · rw [h, beq_self_eq_true, decide_eq_true rfl]
      rfl
    · rw [beq_false_of_ne (Ne.symm h), decide_eq_false h]
      exact ih

theorem take_eq_eraseP (p : Properties) (name : String) :
    p.take name = (p.get? name, ⟨p.entries.eraseP (·.1 = name)⟩) := by
  rw [take, get?_eq_find?, List.find?_eq_bind_findIdx?_getElem?, List.eraseP_eq_eraseIdx]
  cases p.entries.findIdx? (·.1 = name) <;> rfl

/-- What is taken out is the value that a lookup finds, and all entries of other names stay. -/
theorem take_eq (nodup : p.names.Nodup) (name : String) :
    p.take name = (p.get? name, ⟨p.entries.filter (·.1 ≠ name)⟩) := by
  rw [take_eq_eraseP, Prod.mk.injEq, Properties.mk.injEq]
  refine ⟨rfl, ?_⟩
  obtain ⟨es⟩ := p
  change (es.map (·.1)).Nodup at nodup
  induction es with
  | nil => rfl
  | cons e es ih =>
    obtain ⟨new, nodup⟩ := List.nodup_cons.1 nodup
    by_cases h : e.1 = name
    · have others : ∀ d ∈ es, decide (d.1 ≠ name) = true := by
        rintro d hd
        have differs : d.1 ≠ e.1 := ne_of_mem_of_not_mem (List.mem_map_of_mem hd) new
        rwa [decide_eq_true_iff, ← h]
      rw [List.eraseP_cons_of_pos (by simpa using h), List.filter_cons_of_neg (by simpa using h),
        List.filter_eq_self.2 others]
    · rw [List.eraseP_cons_of_neg (by simpa using h), List.filter_cons_of_pos (by simpa using h), ih nodup]

theorem names_take (nodup : p.names.Nodup) (name : String) : (p.take name).2.names = p.names.filter (· ≠ name) := by
  rw [take_eq nodup, names, names, List.filter_map]
  rfl

/-- The names behind an operation. -/
theorem names_serve (nodup : p.names.Nodup) (op : Operation) :
    (p.serve op).2.names = p.names ∨ (∃ n, (p.serve op).2.names = p.names.filter (· ≠ n)) ∨
      ∃ n, n ∉ p.names ∧ (p.serve op).2.names = p.names ++ [n] := by
  cases op with
  | set n v =>
    rw [serve, names_set]
    split
    · exact .inl rfl
    · rename_i new
      exact .inr (.inr ⟨n, new, rfl⟩)
  | get n => exact .inl rfl
  | remove n => exact .inr (.inl ⟨n, names_take nodup n⟩)

theorem nodup_names_serve (nodup : p.names.Nodup) (op : Operation) : (p.serve op).2.names.Nodup := by
  rcases names_serve nodup op with same | ⟨n, fewer⟩ | ⟨n, new, more⟩
  · rwa [same]
  · rw [fewer]
    exact nodup.filter _
  · rw [more, ← List.concat_eq_append]
    exact .concat new nodup

/-- The value of a name behind an operation. -/
theorem get?_serve (nodup : p.names.Nodup) (op : Operation) :
    (p.serve op).2.get? name = some v ↔ op = .set name v ∨ ¬ op.Concerns name ∧ p.get? name = some v := by
  cases op with
  | set n w =>
    rw [serve, get?_set, Operation.Concerns, Operation.set.injEq]
    by_cases h : name = n
    · simp [h]
    · simp [h, Ne.symm h]
  | get n => simp [serve, Operation.Concerns]
  | remove n =>
    have after : (p.take n).2.names.Nodup := nodup_names_serve nodup (.remove n)
    rw [serve, get?_eq_some_iff after, get?_eq_some_iff nodup, take_eq nodup, List.mem_filter, decide_eq_true_iff,
      Operation.Concerns, and_comm, or_iff_right nofun, ne_comm]

/-! ### Operations one after the other -/

theorem run_concat (ops : List Operation) (op : Operation) : run (ops ++ [op]) = ((run ops).serve op).2 := by
  rw [run, List.foldl_concat]
  rfl

theorem nodup_names_run (ops : List Operation) : (run ops).names.Nodup := by
  induction ops using List.reverseRecOn with
  | nil => exact List.nodup_nil
  | append_singleton ops op ih =>
    rw [run_concat]
    exact nodup_names_serve ih op

theorem get?_run : (run ops).get? name = some v ↔ LastSet name v ops := by
  induction ops using List.reverseRecOn with
  | nil => exact iff_of_false nofun not_lastSet_nil
  | append_singleton ops op ih => rw [run_concat, get?_serve (nodup_names_run ops), ih, lastSet_concat]

theorem mem_names_run : name ∈ (run ops).names ↔ IsPresent name ops := by
  rw [mem_names_iff]
  exact exists_congr fun v => (get?_eq_some_iff (nodup_names_run ops)).symm.trans get?_run

/-- The names stand in the order in which they have come to stay. -/
theorem pairwise_names_run (ops : List Operation) :
    (run ops).names.Pairwise fun m n => ∃ i j, i < j ∧ AbsentUntil m ops i ∧ AbsentUntil n ops j := by
  induction ops using List.reverseRecOn with
  | nil => exact .nil
  | append_singleton ops op ih =>
    -- what has been said of two names before the operation holds behind it if both are still there
    have kept : ∀ ns : List String, ns.Sublist (run ops).names → (∀ n ∈ ns, IsPresent n (ops ++ [op])) →
        ns.Pairwise fun m n => ∃ i j, i < j ∧ AbsentUntil m (ops ++ [op]) i ∧ AbsentUntil n (ops ++ [op]) j := by
      intro ns sub present
      refine (ih.sublist sub).imp_of_mem fun hm hn => ?_
      rintro ⟨i, j, before, first, second⟩
      exact ⟨i, j, before, first.concat (present _ hm), second.concat (present _ hn)⟩
    have present : ∀ n ∈ (run (ops ++ [op])).names, IsPresent n (ops ++ [op]) := fun n hn => mem_names_run.1 hn
    rw [run_concat] at present ⊢
    rcases names_serve (nodup_names_run ops) op with same | ⟨n, fewer⟩ | ⟨n, new, more⟩
    · rw [same] at present ⊢
      exact kept _ (List.Sublist.refl _) present
    · rw [fewer] at present ⊢
      exact kept _ List.filter_sublist present
    · rw [more] at present ⊢
      rw [List.forall_mem_append] at present
      refine List.pairwise_append.2 ⟨kept _ (List.Sublist.refl _) present.1, List.pairwise_singleton _ _, ?_⟩
      intro m hm n' hn'
      obtain rfl := List.mem_singleton.1 hn'
      have last := absentUntil_concat (mt mem_names_run.2 new) (present.2 n' hn')
      obtain ⟨i, first⟩ := exists_absentUntil (mem_names_run.1 hm)
      exact ⟨i, ops.length, first.lt_length, first.concat (present.1 m hm), last⟩

/-! ### Properties written out -/

theorem insert_of_not_mem {value : Value} {es : List (String × Value)} (h : name ∉ es.map (·.1)) :
    Value.insert name value es = es ++ [(name, value)] := by
  induction es with
  | nil => rfl
  | cons e es ih =>
    obtain ⟨m, w⟩ := e
    rw [Value.insert, if_neg (List.ne_of_not_mem_cons h).symm, ih (List.not_mem_of_not_mem_cons h), List.cons_append]

/-- Properties whose names differ are written out as they are. -/
theorem toValue_eq (nodup : p.names.Nodup) : p.toValue = .map (p.entries.map fun e => (e.1, e.2.toValue)) := by
  obtain ⟨es⟩ := p
  change (es.map (·.1)).Nodup at nodup
  rw [toValue]
  congr 1
  dsimp only
  induction es using List.reverseRecOn with
  | nil => rfl
  | append_singleton es e ih =>
    rw [List.map_append] at nodup
    have new : e.1 ∉ es.map (·.1) := fun he => (List.disjoint_of_nodup_append nodup) he (by simp)
    have names : (es.map fun e => (e.1, e.2.toValue)).map (·.1) = es.map (·.1) := by
      rw [List.map_map]
      rfl
    rw [List.foldl_concat, ih nodup.of_append_left, insert_of_not_mem (names ▸ new), List.map_append]
    rfl

/-- Properties that have gone through operations are a map in the order of insertion: names differ; a name has the value
that it was set to last unless it was removed since; names stand in the order in which they came to stay; taking a name
out gives its value and leaves all others in place; as many entries are counted as names are present; and in the map
that is written out no property is missing. -/
theorem run_represents (ops : List Operation) :
    (run ops).names.Nodup ∧
      (∀ name v, (run ops).get? name = some v ↔ LastSet name v ops) ∧
      (∀ name v, (name, v) ∈ (run ops).entries ↔ LastSet name v ops) ∧
      ((run ops).names.Pairwise fun m n => ∃ i j, i < j ∧ AbsentUntil m ops i ∧ AbsentUntil n ops j) ∧
      (∀ name, (run ops).take name = ((run ops).get? name, ⟨(run ops).entries.filter (·.1 ≠ name)⟩)) ∧
      Set.encard {name | IsPresent name ops} = (run ops).size ∧
      ((run ops).isEmpty = true ↔ ∀ name, ¬ IsPresent name ops) ∧
      (run ops).toValue = .map ((run ops).entries.map fun e => (e.1, e.2.toValue)) := by
  have nodup := nodup_names_run ops
  have present : {name | IsPresent name ops} = ((run ops).names.toFinset : Set String) := by
    ext name
    rw [Set.mem_ofPred_eq, List.coe_toFinset, Set.mem_ofPred_eq, mem_names_run]
  have size : (run ops).names.length = (run ops).size := List.length_map _
  refine ⟨nodup, fun name v => get?_run, fun name v => ?_, pairwise_names_run ops, take_eq nodup, ?_, ?_,
    toValue_eq nodup⟩
  · rw [← get?_eq_some_iff nodup, get?_run]
  · rw [present, Set.encard_coe_eq_coe_finsetCard, List.toFinset_card_of_nodup nodup, size]
  · rw [isEmpty, List.isEmpty_iff, ← List.map_eq_nil_iff (f := (·.1)), List.eq_nil_iff_forall_not_mem]
    exact forall_congr' fun name => not_congr mem_names_run

end Folio.Html.Properties
