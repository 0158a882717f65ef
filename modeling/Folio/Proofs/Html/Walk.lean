import Folio.Html.Walk
import Mathlib.Data.List.Pairwise

/-!
# What walks visit and change

A place in a forest is given by the numbers of the nodes on the way down to it, so document order is the lexicographic
order of places. `placesAll` are the places of the elements that are reached through elements. A walk over a forest makes
the same visits as a plain run over the list of these elements (`visits`), and gives the properties that come of them to
the elements in turn (`changeAll_eq`, `changed_endowAll`). From this follows what is left of a walk that fails
(`walks_visit_in_order`).
-/

namespace Folio.Html.Node

variable {σ ε : Type}

/-! ### Places -/

/-- The node at a place below a node. -/
def at? (n : Node) : List Nat → Option Node
  | [] => some n
  | i :: is => n.children[i]?.bind fun m => at? m is

/-- The node at a place of a forest. -/
def atAll? (ns : List Node) : List Nat → Option Node
  | [] => none
  | i :: is => ns[i]?.bind fun m => at? m is

/-- The element at a place below a node, if there are only elements on the way. -/
def reach? : Node → List Nat → Option Element
  | .element t p cs, [] => some ⟨t, p, cs⟩
  | .element _ _ cs, i :: is => cs[i]?.bind fun m => reach? m is
  | _, _ => none

/-- The element at a place of a forest, if it is reached through elements. -/
def reachAll? (ns : List Node) : List Nat → Option Element
  | [] => none
  | i :: is => ns[i]?.bind fun m => reach? m is

/-- The place of the same number below the next node. -/
def next : List Nat → List Nat
  | [] => []
  | i :: is => (i + 1) :: is

mutual

/-- The places below a node of the elements that are reached through elements, in document order. -/
def places : Node → List (List Nat)
  | .element _ _ cs => [] :: placesAll cs
  | _ => []

/-- The places in a forest of the elements that are reached through elements. -/
def placesAll : List Node → List (List Nat)
  | [] => []
  | n :: ns => (places n).map (0 :: ·) ++ (placesAll ns).map next

end

theorem exists_cons_of_mem_placesAll {ns : List Node} {place : List Nat} (h : place ∈ placesAll ns) :
    ∃ i is, place = i :: is := by
  induction ns generalizing place with
  | nil => cases h
  | cons n ns ih =>
    rcases List.mem_append.1 h with h | h
    · obtain ⟨is, -, rfl⟩ := List.mem_map.1 h
      exact ⟨0, is, rfl⟩
    · obtain ⟨place, h', rfl⟩ := List.mem_map.1 h
      obtain ⟨i, is, rfl⟩ := ih h'
      exact ⟨i + 1, is, rfl⟩

theorem reachAll?_next (n : Node) (ns : List Node) {place : List Nat} (h : place ∈ placesAll ns) :
    reachAll? (n :: ns) (next place) = reachAll? ns place := by
  obtain ⟨i, is, rfl⟩ := exists_cons_of_mem_placesAll h
  rfl

mutual

theorem map_reach?_places : (n : Node) → (places n).map (reach? n) = (elements n).map some
  | .root _ => rfl
  | .text _ => rfl
  | .element t p cs => by
    have below : (placesAll cs).map (reach? (.element t p cs)) = (placesAll cs).map (reachAll? cs) := by
      refine List.map_congr_left fun place h => ?_
      obtain ⟨i, is, rfl⟩ := exists_cons_of_mem_placesAll h
      rfl
    rw [places, elements, List.map_cons, List.map_cons, below, map_reachAll?_placesAll cs]
    rfl

/-- The elements at the places are those of the forest in order. -/
theorem map_reachAll?_placesAll : (ns : List Node) →
    (placesAll ns).map (reachAll? ns) = (elementsAll ns).map some
  | [] => rfl
  | n :: ns => by
    have rest : ((placesAll ns).map next).map (reachAll? (n :: ns)) = (placesAll ns).map (reachAll? ns) := by
      rw [List.map_map]
      exact List.map_congr_left fun place h => reachAll?_next n ns h
    rw [placesAll, elementsAll, List.map_append, List.map_append, rest, map_reachAll?_placesAll ns,
      ← map_reach?_places n, List.map_map]
    rfl

end

mutual

theorem mem_places_of_reach? : (n : Node) → (place : List Nat) → (reach? n place).isSome → place ∈ places n
  | .root _, _, h | .text _, _, h => by simp [reach?] at h
  | .element t p cs, [], _ => List.mem_cons_self
  | .element t p cs, i :: is, h => List.mem_cons_of_mem _ (mem_placesAll_of_reachAll? cs (i :: is) h)

theorem mem_placesAll_of_reachAll? : (ns : List Node) → (place : List Nat) → (reachAll? ns place).isSome →
    place ∈ placesAll ns
  | _, [], h => by simp [reachAll?] at h
  | [], _ :: _, h => by simp [reachAll?] at h
  | n :: ns, 0 :: is, h => List.mem_append_left _ (List.mem_map_of_mem (mem_places_of_reach? n is h))
  | n :: ns, (i + 1) :: is, h =>
    List.mem_append_right _ (List.mem_map_of_mem (f := next) (mem_placesAll_of_reachAll? ns (i :: is) h))

end

/-- The places are those at which elements are reached. -/
theorem mem_placesAll_iff {ns : List Node} {place : List Nat} :
    place ∈ placesAll ns ↔ (reachAll? ns place).isSome := by
  refine ⟨fun h => ?_, mem_placesAll_of_reachAll? ns _⟩
  have found : reachAll? ns place ∈ (elementsAll ns).map some := by
    rw [← map_reachAll?_placesAll]
    exact List.mem_map_of_mem h
  obtain ⟨e, -, he⟩ := List.mem_map.1 found
  rw [← he]
  rfl

mutual

theorem pairwise_places : (n : Node) → (places n).Pairwise (· < ·)
  | .root _ => .nil
  | .text _ => .nil
  | .element t p cs => by
    refine List.pairwise_cons.2 ⟨fun place h => ?_, pairwise_placesAll cs⟩
    obtain ⟨i, is, rfl⟩ := exists_cons_of_mem_placesAll h
    exact List.nil_lt_cons i is

/-- The places stand in lexicographic order. -/
theorem pairwise_placesAll : (ns : List Node) → (placesAll ns).Pairwise (· < ·)
  | [] => .nil
  | n :: ns => by
    refine List.pairwise_append.2 ⟨?_, ?_, ?_⟩
    · refine List.pairwise_map.2 ((pairwise_places n).imp fun h => ?_)
      exact List.cons_lt_cons_iff.2 (.inr ⟨rfl, h⟩)
    · refine List.pairwise_map.2 ((pairwise_placesAll ns).imp_of_mem fun ha hb h => ?_)
      obtain ⟨i, is, rfl⟩ := exists_cons_of_mem_placesAll ha
      obtain ⟨j, js, rfl⟩ := exists_cons_of_mem_placesAll hb
      rcases List.cons_lt_cons_iff.1 h with less | ⟨rfl, less⟩
      · exact List.cons_lt_cons_iff.2 (.inl (Nat.succ_lt_succ less))
      · exact List.cons_lt_cons_iff.2 (.inr ⟨rfl, less⟩)
    · intro a ha b hb
      obtain ⟨is, -, rfl⟩ := List.mem_map.1 ha
      obtain ⟨place, h, rfl⟩ := List.mem_map.1 hb
      obtain ⟨j, js, rfl⟩ := exists_cons_of_mem_placesAll h
      exact List.cons_lt_cons_iff.2 (.inl (Nat.succ_pos j))

end

theorem length_places (n : Node) : (places n).length = (elements n).length := by
  have := congrArg List.length (map_reach?_places n)
  rwa [List.length_map, List.length_map] at this

/-! ### Visits to a list of elements -/

/-- Visits elements one after the other until the visitor fails: the properties that come of the visits. -/
def visits (visit : σ → Element → Visit σ ε) (s : σ) : List Element → Walked (List Properties) σ ε
  | [] => ⟨[], s, none⟩
  | e :: es =>
    let v := visit s e
    match v.failure with
    | some err => ⟨[v.properties], v.memory, some err⟩
    | none =>
      let rest := visits visit v.memory es
      ⟨v.properties :: rest.result, rest.memory, rest.failure⟩

section

variable {visit : σ → Element → Visit σ ε} {s : σ} {e : Element} {es : List Element} {err : ε}

theorem visits_cons_of_failure (h : (visit s e).failure = some err) (es : List Element) :
    visits visit s (e :: es) = ⟨[(visit s e).properties], (visit s e).memory, some err⟩ := by
  rw [visits]
  simp only [h]

theorem visits_cons (h : (visit s e).failure = none) (es : List Element) :
    visits visit s (e :: es) =
      ⟨(visit s e).properties :: (visits visit (visit s e).memory es).result,
        (visits visit (visit s e).memory es).memory, (visits visit (visit s e).memory es).failure⟩ := by
  rw [visits]
  simp only [h]

/-- Behind a failure there are no more visits. -/
theorem visits_append_of_failure (h : (visits visit s es).failure = some err) (fs : List Element) :
    visits visit s (es ++ fs) = visits visit s es := by
  induction es generalizing s with
  | nil => cases h
  | cons e es ih =>
    rw [List.cons_append]
    cases goes : (visit s e).failure with
    | some _ => rw [visits_cons_of_failure goes, visits_cons_of_failure goes]
    | none =>
      rw [visits_cons goes] at h
      rw [visits_cons goes, visits_cons goes, ih h]

theorem visits_append (h : (visits visit s es).failure = none) (fs : List Element) :
    visits visit s (es ++ fs) =
      let rest := visits visit (visits visit s es).memory fs
      ⟨(visits visit s es).result ++ rest.result, rest.memory, rest.failure⟩ := by
  induction es generalizing s with
  | nil => rfl
  | cons e es ih =>
    rw [List.cons_append]
    cases goes : (visit s e).failure with
    | some _ =>
      rw [visits_cons_of_failure goes] at h
      cases h
    | none =>
      rw [visits_cons goes] at h
      rw [visits_cons goes, visits_cons goes, ih h]
      rfl

/-- As long as nothing fails, every element is visited. -/
theorem length_visits (h : (visits visit s es).failure = none) : (visits visit s es).result.length = es.length := by
  induction es generalizing s with
  | nil => rfl
  | cons e es ih =>
    cases goes : (visit s e).failure with
    | some _ =>
      rw [visits_cons_of_failure goes] at h
      cases h
    | none =>
      rw [visits_cons goes] at h ⊢
      exact congrArg (· + 1) (ih h)

theorem length_visits_le (visit : σ → Element → Visit σ ε) (s : σ) (es : List Element) :
    (visits visit s es).result.length ≤ es.length := by
  induction es generalizing s with
  | nil => exact Nat.le_refl 0
  | cons e es ih =>
    cases goes : (visit s e).failure with
    | some _ =>
      rw [visits_cons_of_failure goes]
      exact Nat.succ_le_succ (Nat.zero_le _)
    | none =>
      rw [visits_cons goes]
      exact Nat.succ_le_succ (ih _)

end

/-! ### New properties for some elements -/

mutual

/-- Gives new properties to the elements of a tree in document order, as far as there are some. -/
def endow (ps : List Properties) : Node → Node
  | .element t p cs => .element t (ps.head?.getD p) (endowAll ps.tail cs)
  | n => n

/-- Gives new properties to the elements of a forest in document order, as far as there are some. -/
def endowAll (ps : List Properties) : List Node → List Node
  | [] => []
  | n :: ns => endow ps n :: endowAll (ps.drop (elements n).length) ns

end

mutual

theorem endow_nil : (n : Node) → endow [] n = n
  | .root _ => rfl
  | .text _ => rfl
  | .element t p cs => by rw [endow, List.tail_nil, endowAll_nil cs]; rfl

theorem endowAll_nil : (ns : List Node) → endowAll [] ns = ns
  | [] => rfl
  | n :: ns => by rw [endowAll, List.drop_nil, endow_nil n, endowAll_nil ns]

end

mutual

/-- Properties for which there are no elements are left over. -/
theorem endow_append : (n : Node) → {ps : List Properties} → (elements n).length ≤ ps.length → (qs : List Properties) →
    endow (ps ++ qs) n = endow ps n
  | .root _, _, _, _ => rfl
  | .text _, _, _, _ => rfl
  | .element t p cs, [], h, _ => by simp [elements] at h
  | .element t p cs, q :: ps, h, qs => by
    have enough : (elementsAll cs).length ≤ ps.length := Nat.le_of_succ_le_succ h
    have below := endowAll_append cs enough qs
    rw [endow, endow, List.cons_append, List.tail_cons, List.tail_cons, below]
    rfl

theorem endowAll_append : (ns : List Node) → {ps : List Properties} → (elementsAll ns).length ≤ ps.length →
    (qs : List Properties) → endowAll (ps ++ qs) ns = endowAll ps ns
  | [], _, _, _ => rfl
  | n :: ns, ps, h, qs => by
    rw [elementsAll, List.length_append] at h
    have first : (elements n).length ≤ ps.length := by omega
    have rest : (elementsAll ns).length ≤ (ps.drop (elements n).length).length := by
      rw [List.length_drop]
      omega
    rw [endowAll, endowAll, endow_append n first, List.drop_append_of_le_length first, endowAll_append ns rest]

end

/-! ### Walks as visits to a list -/

mutual

theorem inspect_eq (look : σ → Element → σ) : (n : Node) → (s : σ) → inspect look s n = (elements n).foldl look s
  | .root _, _ => rfl
  | .text _, _ => rfl
  | .element t p cs, s => inspectAll_eq look cs (look s ⟨t, p, cs⟩)

/-- A visitor that only looks sees the elements one after the other. -/
theorem inspectAll_eq (look : σ → Element → σ) : (ns : List Node) → (s : σ) →
    inspectAll look s ns = (elementsAll ns).foldl look s
  | [], _ => rfl
  | n :: ns, s => by rw [inspectAll, elementsAll, List.foldl_append, inspect_eq look n, inspectAll_eq look ns]

end

mutual

theorem change_eq (visit : σ → Element → Visit σ ε) : (n : Node) → (s : σ) →
    change visit s n =
      ⟨endow (visits visit s (elements n)).result n, (visits visit s (elements n)).memory,
        (visits visit s (elements n)).failure⟩
  | .root _, _ => rfl
  | .text _, _ => rfl
  | .element t p cs, s => by
    rw [change, elements]
    cases goes : (visit s ⟨t, p, cs⟩).failure with
    | some err =>
      rw [visits_cons_of_failure goes, endow, List.tail_cons, endowAll_nil]
      simp only [List.head?_cons, Option.getD_some]
    | none =>
      rw [visits_cons goes, endow, List.tail_cons]
      simp only [List.head?_cons, Option.getD_some, changeAll_eq visit cs]

/-- A walk makes the visits to the elements of the forest, and gives them the properties that come of these visits. -/
theorem changeAll_eq (visit : σ → Element → Visit σ ε) : (ns : List Node) → (s : σ) →
    changeAll visit s ns =
      ⟨endowAll (visits visit s (elementsAll ns)).result ns, (visits visit s (elementsAll ns)).memory,
        (visits visit s (elementsAll ns)).failure⟩
  | [], _ => rfl
  | n :: ns, s => by
    have fits := length_visits_le visit s (elements n)
    rw [changeAll, elementsAll, change_eq visit n s]
    cases goes : (visits visit s (elements n)).failure with
    | some err =>
      have none : (visits visit s (elements n)).result.drop (elements n).length = [] := List.drop_of_length_le fits
      simp only [goes, visits_append_of_failure goes, endowAll, none, endowAll_nil]
    | none =>
      have all := length_visits goes
      have first := endow_append n (Nat.le_of_eq all.symm)
      simp only [visits_append goes, endowAll, first, ← all, List.drop_left, changeAll_eq visit ns]

end

/-! ### What is found at the places -/

/-- A node without what is below it. -/
inductive Label where
  | root
  | element (tag : String) (properties : Properties)
  | text (value : String)
deriving DecidableEq, Repr

def label : Node → Label
  | .root _ => .root
  | .element t p _ => .element t p
  | .text s => .text s

/-- What is found at a place of a forest. -/
def labelAt? (ns : List Node) (place : List Nat) : Option Label := (atAll? ns place).map label

mutual

theorem label_endow_of_notMem (ps : List Properties) : (n : Node) → (place : List Nat) → place ∉ places n →
    (at? (endow ps n) place).map label = (at? n place).map label
  | .root _, _, _ => rfl
  | .text _, _, _ => rfl
  | .element .., [], h => absurd List.mem_cons_self h
  | .element _ _ cs, i :: is, h =>
    labelAt?_endowAll_of_notMem ps.tail cs (i :: is) (List.not_mem_of_not_mem_cons h)

/-- Where no element is reached, everything is as before. -/
theorem labelAt?_endowAll_of_notMem (ps : List Properties) : (ns : List Node) → (place : List Nat) →
    place ∉ placesAll ns → labelAt? (endowAll ps ns) place = labelAt? ns place
  | [], _, _ => rfl
  | _ :: _, [], _ => rfl
  | n :: _, 0 :: _, h =>
    label_endow_of_notMem ps n _ fun h' => h (List.mem_append_left _ (List.mem_map_of_mem h'))
  | _ :: ns, (i + 1) :: is, h =>
    labelAt?_endowAll_of_notMem _ ns (i :: is) fun h' =>
      h (List.mem_append_right _ (List.mem_map_of_mem (f := next) h'))

end

mutual

theorem label_endow (ps : List Properties) : (n : Node) → {i : Nat} → {place : List Nat} → {e : Element} →
    (places n)[i]? = some place → reach? n place = some e →
    (at? (endow ps n) place).map label = some (.element e.tag (ps[i]?.getD e.properties))
  | .root _, _, _, _, h, _ | .text _, _, _, _, h, _ => by simp [places] at h
  | .element t p cs, 0, place, e, h, he => by
    obtain rfl : [] = place := Option.some.inj h
    obtain rfl := Option.some.inj he
    rw [← List.head?_eq_getElem?]
    rfl
  | .element t p cs, i + 1, place, e, h, he => by
    rw [places, List.getElem?_cons_succ] at h
    obtain ⟨j, js, rfl⟩ := exists_cons_of_mem_placesAll (List.mem_of_getElem? h)
    rw [← List.getElem?_tail]
    exact labelAt?_endowAll ps.tail cs h he

/-- The element at a place of a number has the properties of that number, if there are so many. -/
theorem labelAt?_endowAll (ps : List Properties) : (ns : List Node) → {i : Nat} → {place : List Nat} → {e : Element} →
    (placesAll ns)[i]? = some place → reachAll? ns place = some e →
    labelAt? (endowAll ps ns) place = some (.element e.tag (ps[i]?.getD e.properties))
  | [], _, _, _, h, _ => by simp [placesAll] at h
  | n :: ns, i, place, e, h, he => by
    rw [placesAll, List.getElem?_append, List.length_map, length_places, List.getElem?_map, List.getElem?_map] at h
    split at h
    · obtain ⟨is, first, rfl⟩ := Option.map_eq_some_iff.1 h
      exact label_endow ps n first he
    · rename_i later
      obtain ⟨place, behind, rfl⟩ := Option.map_eq_some_iff.1 h
      have found := List.mem_of_getElem? behind
      rw [reachAll?_next n ns found] at he
      have rest := labelAt?_endowAll (ps.drop (elements n).length) ns behind he
      rw [List.getElem?_drop, Nat.add_sub_cancel' (Nat.le_of_not_lt later)] at rest
      obtain ⟨j, js, rfl⟩ := exists_cons_of_mem_placesAll found
      exact rest

end

/-! ### Visits by number -/

/-- What the visitor keeps in mind when it comes to an element. -/
def memoryAt (visit : σ → Element → Visit σ ε) (s : σ) (es : List Element) (i : Nat) : σ :=
  (es.take i).foldl (fun s e => (visit s e).memory) s

/-- What comes of the visit to the element of a number. -/
def visitAt? (visit : σ → Element → Visit σ ε) (s : σ) (es : List Element) (i : Nat) : Option (Visit σ ε) :=
  es[i]?.map (visit (memoryAt visit s es i))

/-- The first elements have the properties that come of the visits to them, and everything else is as before. -/
structure Changed (visit : σ → Element → Visit σ ε) (s : σ) (forest nodes : List Node) (count : Nat) : Prop where
  changed : ∀ i < count, ∀ place e v, (placesAll forest)[i]? = some place → reachAll? forest place = some e →
    visitAt? visit s (elementsAll forest) i = some v → labelAt? nodes place = some (.element e.tag v.properties)
  kept : ∀ place, place ∉ (placesAll forest).take count → labelAt? nodes place = labelAt? forest place

section

variable {visit : σ → Element → Visit σ ε} {s : σ} {es : List Element} {k : Nat} {v : Visit σ ε} {err : ε}

theorem visits_of_forall (h : ∀ i v, visitAt? visit s es i = some v → v.failure = none) :
    (visits visit s es).failure = none ∧ (visits visit s es).memory = memoryAt visit s es es.length ∧
      ∀ i, (visits visit s es).result[i]? = (visitAt? visit s es i).map (·.properties) := by
  induction es generalizing s with
  | nil => exact ⟨rfl, rfl, fun i => rfl⟩
  | cons e es ih =>
    have goes : (visit s e).failure = none := h 0 _ rfl
    obtain ⟨failure, memory, result⟩ := ih fun i => h (i + 1)
    rw [visits_cons goes]
    refine ⟨failure, memory, fun i => ?_⟩
    cases i with
    | zero => rfl
    | succ i => exact result i

theorem visits_of_failure (hv : visitAt? visit s es k = some v) (fails : v.failure = some err)
    (before : ∀ i < k, ∀ u, visitAt? visit s es i = some u → u.failure = none) :
    (visits visit s es).failure = some err ∧ (visits visit s es).memory = v.memory ∧
      (visits visit s es).result.length = k + 1 ∧
      ∀ i < k + 1, (visits visit s es).result[i]? = (visitAt? visit s es i).map (·.properties) := by
  induction es generalizing s k with
  | nil => cases hv
  | cons e es ih =>
    cases k with
    | zero =>
      obtain rfl : visit s e = v := Option.some.inj hv
      rw [visits_cons_of_failure fails]
      refine ⟨rfl, rfl, rfl, fun i hi => ?_⟩
      obtain rfl := Nat.lt_one_iff.1 hi
      rfl
    | succ k =>
      have goes : (visit s e).failure = none := before 0 (Nat.succ_pos k) _ rfl
      obtain ⟨failure, memory, length, result⟩ := ih hv fun i hi => before (i + 1) (Nat.succ_lt_succ hi)
      rw [visits_cons goes]
      refine ⟨failure, memory, congrArg (· + 1) length, fun i hi => ?_⟩
      cases i with
      | zero => rfl
      | succ i => exact result i (Nat.lt_of_succ_lt_succ hi)

end

theorem changed_endowAll {visit : σ → Element → Visit σ ε} {s : σ} {forest : List Node} {ps : List Properties}
    {count : Nat} (length : ps.length = count)
    (h : ∀ i < count, ps[i]? = (visitAt? visit s (elementsAll forest) i).map (·.properties)) :
    Changed visit s forest (endowAll ps forest) count where
  changed i hi place e v hp he hv := by
    rw [labelAt?_endowAll ps forest hp he, h i hi, hv]
    rfl
  kept place hp := by
    by_cases reached : place ∈ placesAll forest
    · obtain ⟨i, hi⟩ := List.mem_iff_getElem?.1 reached
      obtain ⟨e, he⟩ := Option.isSome_iff_exists.1 (mem_placesAll_iff.1 reached)
      -- the element is behind all that get new properties
      have late : ps[i]? = none := by
        rw [List.getElem?_eq_none_iff, length]
        by_contra early
        exact hp (List.mem_of_getElem? (i := i) (by rw [List.getElem?_take_of_lt (Nat.lt_of_not_le early), hi]))
      have before := labelAt?_endowAll [] forest hi he
      rw [endowAll_nil] at before
      rw [labelAt?_endowAll ps forest hi he, late, before]
      rfl
    · exact labelAt?_endowAll_of_notMem ps forest place reached

/-- Both walks visit the elements that are reached through elements in document order, each of them once. A walk without
a failure leaves the properties that come of all visits. A walk that fails at an element gives back the failure; the
elements up to this one have the properties that come of the visits to them, and all other elements, all texts and roots,
and the children of every node are as before. -/
theorem walks_visit_in_order (forest : List Node) :
    (placesAll forest).Pairwise (· < ·) ∧
      (∀ place, place ∈ placesAll forest ↔ (reachAll? forest place).isSome) ∧
      (placesAll forest).map (reachAll? forest) = (elementsAll forest).map some ∧
      (∀ (σ : Type) (look : σ → Element → σ) (s : σ),
        inspectAll look s forest = (elementsAll forest).foldl look s) ∧
      ∀ (σ ε : Type) (visit : σ → Element → Visit σ ε) (s : σ),
        let es := elementsAll forest
        let w := changeAll visit s forest
        ((∀ i v, visitAt? visit s es i = some v → v.failure = none) →
          w.failure = none ∧ w.memory = memoryAt visit s es es.length ∧
            Changed visit s forest w.result es.length) ∧
        ∀ k v err, visitAt? visit s es k = some v → v.failure = some err →
          (∀ i < k, ∀ u, visitAt? visit s es i = some u → u.failure = none) →
          w.failure = some err ∧ w.memory = v.memory ∧ Changed visit s forest w.result (k + 1) := by
  refine ⟨pairwise_placesAll forest, fun _ => mem_placesAll_iff, map_reachAll?_placesAll forest,
    fun σ look s => inspectAll_eq look forest s, fun σ ε visit s => ?_⟩
  dsimp only
  rw [changeAll_eq]
  refine ⟨fun goes => ?_, fun k v err hv fails before => ?_⟩
  · obtain ⟨failure, memory, result⟩ := visits_of_forall goes
    exact ⟨failure, memory, changed_endowAll (length_visits failure) fun i _ => result i⟩
  · obtain ⟨failure, memory, length, result⟩ := visits_of_failure hv fails before
    exact ⟨failure, memory, changed_endowAll length result⟩

/-- A visitor that counts, and that fails at a heading within a section. -/
theorem walks_visit_in_order_failingInside :
    let text := Node.text "a"
    let forest : List Node :=
      [.element "section" .empty [.element "h2" .empty [text], .root [.element "p" .empty []]],
        .element "pre" .empty []]
    let seen : Properties := ⟨[("seen", .flag true)]⟩
    let visit (count : Nat) (e : Element) : Visit Nat String :=
      ⟨e.properties.set "seen" (.flag true), count + 1, if count = 1 then some e.tag else none⟩
    let w := changeAll visit 0 forest
    visitAt? visit 0 (elementsAll forest) 1 = some ⟨seen, 2, some "h2"⟩ ∧ w.failure = some "h2" ∧ w.memory = 2 ∧
      Changed visit 0 forest w.result 2 ∧
      w.result = [.element "section" seen [.element "h2" seen [text], .root [.element "p" .empty []]],
        .element "pre" .empty []] := by
  intro text forest seen visit w
  have second : visitAt? visit 0 (elementsAll forest) 1 = some ⟨seen, 2, some "h2"⟩ := rfl
  have before : ∀ i < 1, ∀ u, visitAt? visit 0 (elementsAll forest) i = some u → u.failure = none := by
    intro i hi u hu
    obtain rfl := Nat.lt_one_iff.1 hi
    obtain rfl := Option.some.inj hu
    rfl
  obtain ⟨failure, memory, changed⟩ := ((walks_visit_in_order forest).2.2.2.2 Nat String visit 0).2 1 _ _ second rfl before
  exact ⟨second, failure, memory, changed, rfl⟩

end Folio.Html.Node
