import Folio.Rendering
import Mathlib.Data.List.Basic
import Mathlib.Data.List.Induction
import Mathlib.Data.List.Nodup

/-!
# Counting references to footnotes

`referenceAll` counts a list of references one after the other and keeps the numbers that they get; `tally` keeps the
links that stand for them. From a state that has counted nothing, the order lists the distinct identifiers, the counts
are theirs, and each reference gets the place of its identifier in the final order (`getElem?_referenceAll`). The
footnotes that are taken then are those of the order (`takeFootnotes_of_counted`).
-/

namespace Folio.Rendering

open Html

/-- The link of a reference to the footnote of a folded identifier. -/
def referenceLink (key : String) (ordinal occurrence : Nat) : Element :=
  { tag := "a"
    properties := Properties.ofList [("href", .text ("#" ++ noteId (footnoteId key))),
      ("id", .text (referenceId (footnoteId key) occurrence)), ("data-footnote-ref", .flag true),
      ("aria-describedby", .text "footnote-label")]
    children := [.text (toString ordinal)] }

theorem footnoteLink_eq (identifier : String) (ordinal occurrence : Nat) :
    footnoteLink identifier ordinal occurrence =
      element "sup" [] [(referenceLink (foldCase identifier) ordinal occurrence).toNode] := rfl

/-- What is left without repetitions has none. -/
theorem nodup_eraseDups (keys : List String) : keys.eraseDups.Nodup := by
  induction keys using List.reverseRecOn with
  | nil => exact List.nodup_nil
  | append_singleton keys key ih =>
    rw [List.eraseDups_append]
    by_cases h : key ∈ keys
    · simpa [List.removeAll, h] using ih
    · have new : ([key].removeAll keys).eraseDups = [key] := by simp [List.removeAll, h, List.eraseDups_cons]
      rw [new, ← List.concat_eq_append]
      exact ih.concat fun mem => h (List.mem_eraseDups.1 mem)

namespace Context
variable {c : Context} {ids : List String}

/-- Counts references from left to right: the numbers that they get, and the state behind them. -/
def referenceAll (c : Context) : List String → List (Nat × Nat) × Context
  | [] => ([], c)
  | id :: ids =>
    let (numbers, c') := c.reference id
    let (rest, c'') := c'.referenceAll ids
    (numbers :: rest, c'')

theorem referenceAll_cons (c : Context) (id : String) (ids : List String) :
    c.referenceAll (id :: ids) =
      ((c.reference id).1 :: ((c.reference id).2.referenceAll ids).1, ((c.reference id).2.referenceAll ids).2) := rfl

theorem referenceAll_append (c : Context) (ids ids' : List String) :
    c.referenceAll (ids ++ ids') = ((c.referenceAll ids).1 ++ ((c.referenceAll ids).2.referenceAll ids').1,
      ((c.referenceAll ids).2.referenceAll ids').2) := by
  induction ids generalizing c with
  | nil => rfl
  | cons id ids ih => simp only [List.cons_append, referenceAll_cons, ih]

@[simp] theorem length_referenceAll (c : Context) (ids : List String) :
    (c.referenceAll ids).1.length = ids.length := by
  induction ids generalizing c with
  | nil => rfl
  | cons id ids ih => simp only [referenceAll_cons, List.length_cons, ih]

@[simp] theorem footnotes_referenceAll (c : Context) (ids : List String) :
    (c.referenceAll ids).2.footnotes = c.footnotes := by
  induction ids generalizing c with
  | nil => rfl
  | cons id ids ih => rw [referenceAll_cons, ih]; rfl

/-- Counts references from left to right: their links, and the state behind them. -/
def tally (c : Context) : List String → List Element × Context
  | [] => ([], c)
  | id :: ids =>
    let ((ordinal, occurrence), c') := c.reference id
    let (links, c'') := c'.tally ids
    (referenceLink (foldCase id) ordinal occurrence :: links, c'')

@[simp] theorem tally_nil (c : Context) : c.tally [] = ([], c) := rfl

theorem tally_cons (c : Context) (id : String) (ids : List String) :
    c.tally (id :: ids) = (referenceLink (foldCase id) (c.reference id).1.1 (c.reference id).1.2 ::
      ((c.reference id).2.tally ids).1, ((c.reference id).2.tally ids).2) := rfl

/-- The links of a tally show the numbers of the references. -/
theorem tally_eq (c : Context) (ids : List String) :
    c.tally ids = (List.zipWith (fun id number => referenceLink (foldCase id) number.1 number.2) ids
      (c.referenceAll ids).1, (c.referenceAll ids).2) := by
  induction ids generalizing c with
  | nil => rfl
  | cons id ids ih => rw [tally_cons, referenceAll_cons, ih]; rfl

theorem tally_append (c : Context) (ids ids' : List String) :
    c.tally (ids ++ ids') = ((c.tally ids).1 ++ ((c.tally ids).2.tally ids').1, ((c.tally ids).2.tally ids').2) := by
  induction ids generalizing c with
  | nil => rfl
  | cons id ids ih => simp only [List.cons_append, tally_cons, ih]

@[simp] theorem length_tally (c : Context) (ids : List String) : (c.tally ids).1.length = ids.length := by
  induction ids generalizing c with
  | nil => rfl
  | cons id ids ih => simp only [tally_cons, List.length_cons, ih]

/-- Whatever was counted before, a link is one of a counted identifier. -/
theorem mem_tally {e : Element} (h : e ∈ (c.tally ids).1) :
    ∃ id ∈ ids, ∃ ordinal occurrence, e = referenceLink (foldCase id) ordinal occurrence := by
  induction ids generalizing c with
  | nil => simp at h
  | cons id ids ih =>
    rw [tally_cons] at h
    rcases List.mem_cons.1 h with rfl | h
    · exact ⟨id, List.mem_cons_self, _, _, rfl⟩
    · obtain ⟨id', h', rest⟩ := ih h
      exact ⟨id', List.mem_cons_of_mem _ h', rest⟩

/-! ### What counting leaves alone -/

theorem reference_enter (s : Scope) (c : Context) (id : String) :
    (c.enter s).reference id = ((c.reference id).1, (c.reference id).2.enter s) := rfl

theorem tally_enter (s : Scope) (c : Context) (ids : List String) :
    (c.enter s).tally ids = ((c.tally ids).1, (c.tally ids).2.enter s) := by
  induction ids generalizing c with
  | nil => rfl
  | cons id ids ih => simp only [tally_cons, reference_enter, ih]

@[simp] theorem exit_enter (s : Scope) (c : Context) : (c.enter s).exit.2 = c := rfl

@[simp] theorem footnotes_tally (c : Context) (ids : List String) : (c.tally ids).2.footnotes = c.footnotes := by
  rw [tally_eq, footnotes_referenceAll]

/-! ### What counting has counted -/

/-- How often an identifier was referenced. -/
def count (c : Context) (key : String) : Nat := (c.references.lookup key).getD 0

/-- The state has counted the references to some folded identifiers and to nothing else. -/
structure Counted (c : Context) (keys : List String) : Prop where
  order_eq : c.order = keys.eraseDups
  count_eq : ∀ k, c.count k = keys.count k

theorem lookup_filter_ne {α : Type} (es : List (String × α)) {k k' : String} (h : k' ≠ k) :
    (es.filter fun e => e.1 ≠ k).lookup k' = es.lookup k' := by
  induction es with
  | nil => rfl
  | cons e es ih =>
    obtain ⟨k'', v⟩ := e
    by_cases h' : k'' = k
    · subst h'
      rw [List.filter_cons_of_neg (by simp), ih, List.lookup_cons, beq_false_of_ne h]
    · rw [List.filter_cons_of_pos (by simpa using h'), List.lookup_cons, List.lookup_cons, ih]

theorem count_reference (c : Context) (id k : String) :
    (c.reference id).2.count k = c.count k + if k = foldCase id then 1 else 0 := by
  by_cases h : k = foldCase id
  · subst h
    simp [reference, count]
  · simp only [reference, count, List.lookup_cons, beq_false_of_ne h, lookup_filter_ne _ h, if_neg h, Nat.add_zero]

theorem order_reference (c : Context) (id : String) :
    (c.reference id).2.order = if c.order.contains (foldCase id) then c.order else c.order ++ [foldCase id] := rfl

theorem ordinal_reference (c : Context) (id : String) :
    (c.reference id).1 = ((c.reference id).2.order.idxOf (foldCase id) + 1, c.count (foldCase id) + 1) := rfl

theorem Counted.reference {keys : List String} (h : c.Counted keys) (id : String) :
    (c.reference id).2.Counted (keys ++ [foldCase id]) := by
  refine ⟨?_, fun k => ?_⟩
  · rw [order_reference, h.order_eq, List.eraseDups_append]
    by_cases hk : foldCase id ∈ keys
    · simp [List.removeAll, hk, List.mem_eraseDups]
    · simp [List.removeAll, hk, List.mem_eraseDups, List.eraseDups_cons]
  · rw [count_reference, h.count_eq, List.count_append]
    by_cases hk : k = foldCase id
    · rw [if_pos hk, hk, List.count_singleton_self]
    · rw [if_neg hk, List.count_singleton, if_neg (by simpa using Ne.symm hk)]

/-- The state before anything is counted. -/
theorem Counted.of_fresh (ho : c.order = []) (hr : c.references = []) : c.Counted [] := by
  exact ⟨by simp [ho], by simp [count, hr]⟩

theorem Counted.referenceAll (h : c.Counted []) (ids : List String) :
    (c.referenceAll ids).2.Counted (ids.map foldCase) := by
  induction ids using List.reverseRecOn with
  | nil => exact h
  | append_singleton ids id ih =>
    rw [referenceAll_append, List.map_append]
    exact ih.reference id

theorem Counted.tally (h : c.Counted []) (ids : List String) : (c.tally ids).2.Counted (ids.map foldCase) := by
  rw [tally_eq]
  exact h.referenceAll ids

/-- Each reference gets the place of its identifier among the distinct ones, and how many references to it there are
so far. -/
theorem getElem?_referenceAll (h : c.Counted []) (ids : List String) {i : Nat} {id : String}
    (hi : ids[i]? = some id) :
    (c.referenceAll ids).1[i]? = some ((ids.map foldCase).eraseDups.idxOf (foldCase id) + 1,
      ((ids.take (i + 1)).map foldCase).count (foldCase id)) := by
  induction ids using List.reverseRecOn with
  | nil => simp at hi
  | append_singleton ids x ih =>
    have counted := h.referenceAll ids
    rw [referenceAll_append, List.map_append, List.eraseDups_append]
    rcases Nat.lt_or_ge i ids.length with hlt | hge
    · -- A place in the order stays when more is counted.
      rw [List.getElem?_append_left hlt] at hi
      have mem : foldCase id ∈ (ids.map foldCase).eraseDups :=
        List.mem_eraseDups.2 (List.mem_map_of_mem (List.mem_of_getElem? hi))
      rw [List.getElem?_append_left (by rwa [length_referenceAll]), ih hi, List.take_append_of_le_length hlt,
        List.idxOf_append_of_mem mem]
    · have last : i = ids.length := by
        have := (List.getElem?_eq_some_iff.1 hi).1
        simp only [List.length_append, List.length_singleton] at this
        omega
      subst last
      obtain rfl : x = id := by simpa using hi
      have order := (counted.reference x).order_eq
      rw [List.eraseDups_append] at order
      have number : ((c.referenceAll ids).2.referenceAll [x]).1 = [((c.referenceAll ids).2.reference x).1] := rfl
      rw [List.getElem?_append_right (by simp), length_referenceAll, Nat.sub_self, List.take_of_length_le (by simp)]
      simp only [number, List.getElem?_cons_zero, ordinal_reference, counted.count_eq, order, List.map_append,
        List.count_append, List.map_cons, List.map_nil, List.count_singleton_self]

/-- Each link shows the numbers of its reference. -/
theorem getElem?_tally (h : c.Counted []) (ids : List String) {i : Nat} {id : String} (hi : ids[i]? = some id) :
    (c.tally ids).1[i]? = some (referenceLink (foldCase id) ((ids.map foldCase).eraseDups.idxOf (foldCase id) + 1)
      (((ids.take (i + 1)).map foldCase).count (foldCase id))) := by
  rw [tally_eq, List.getElem?_zipWith, hi, getElem?_referenceAll h ids hi]

/-- What is taken are the counted footnotes that are defined, in the order in which they were first referenced. -/
theorem takeFootnotes_of_counted {keys : List String} (h : c.Counted keys) :
    c.takeFootnotes.1 = keys.eraseDups.filterMap fun key =>
      (c.footnotes.lookup key).map fun children => ⟨key, keys.count key, children⟩ := by
  rw [← h.order_eq]
  refine List.filterMap_congr fun key hkey => ?_
  have counted : 0 < keys.count key := by
    rw [h.order_eq, List.mem_eraseDups] at hkey
    exact List.count_pos_iff.2 hkey
  rw [← h.count_eq, count] at counted ⊢
  cases hr : c.references.lookup key with
  | none => rw [hr] at counted; exact absurd counted (Nat.lt_irrefl 0)
  | some n => rfl

end Context

end Folio.Rendering
