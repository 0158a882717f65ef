import Folio.Outline
import Mathlib.Data.List.TakeWhile

/-!
# The outline of a top level

`outline` says without a stack which sections a top level has: a heading takes what follows it up to the next heading of
its own or a higher rank, and within what it takes the same goes on. The obvious invariant, that the growing sections
hold what has been read, says nothing about where a section ends. So `settled_section` follows one growing section to
its end, whatever stands around it, and from there the nesting comes to the outline (`nestAll_eq`).
-/

namespace Folio.Outline

open Html

/-- A part of a nested top level: a node as it was, or a section made around such parts. -/
inductive Part where
  | kept (n : Node)
  | made (properties : Properties) (parts : List Part)

/-- What a section spans: its properties, and the nodes it holds when the sections in it are opened up. -/
structure Extent where
  properties : Properties
  nodes : List Node

namespace Part

mutual

def toNode : Part → Node
  | .kept n => n
  | .made p ps => .element "section" p (toNodes ps)

def toNodes : List Part → List Node
  | [] => []
  | p :: ps => toNode p :: toNodes ps

end

mutual

/-- The nodes of a part when the sections that were made are opened up. -/
def flat : Part → List Node
  | .kept n => [n]
  | .made _ ps => flatAll ps

def flatAll : List Part → List Node
  | [] => []
  | p :: ps => flat p ++ flatAll ps

end

mutual

/-- The sections that were made, in document order. -/
def extents : Part → List Extent
  | .kept _ => []
  | .made p ps => ⟨p, flatAll ps⟩ :: extentsAll ps

def extentsAll : List Part → List Extent
  | [] => []
  | p :: ps => extents p ++ extentsAll ps

end

def isMade : Part → Bool
  | .kept _ => false
  | .made _ _ => true

end Part

/-- The properties of the section that a heading starts. -/
def tagged (heading : Node) : Properties :=
  .ofList ((heading.element?.bind Element.id?).map fun id => ("data-heading-id", PropertyValue.text id)).toList

/-- A heading ends the sections of its own level and of deeper ones. -/
def ends (level : Nat) (n : Node) : Bool := (level? n).any (· ≤ level)

/-- What does not end a section belongs to it. -/
def belongs (level : Nat) (n : Node) : Bool := !ends level n

/-- The parts of a top level. -/
def outline : List Node → List Part
  | [] => []
  | n :: ns =>
    match level? n with
    | none => .kept n :: outline ns
    | some level =>
      .made (tagged n) (.kept n :: outline (ns.takeWhile (belongs level))) ::
        outline (ns.dropWhile (belongs level))
termination_by ns => ns.length
decreasing_by
  · exact Nat.lt_succ_self _
  · exact Nat.lt_succ_of_le (List.takeWhile_sublist _).length_le
  · exact Nat.lt_succ_of_le (List.dropWhile_sublist _).length_le

/-- The first place behind a place where a heading ends a section of a level; the end if there is none. -/
def stop (ns : List Node) (i level : Nat) : Nat := i + 1 + (ns.drop (i + 1)).findIdx (ends level)

/-- What the sections of a top level have to span: one for each heading, in order. -/
def due (ns : List Node) : List Extent :=
  (List.range ns.length).filterMap fun i => do
    let heading ← ns[i]?
    let level ← level? heading
    some ⟨tagged heading, (ns.take (stop ns i level)).drop i⟩

variable {n : Node} {ns : List Node} {level : Nat}

theorem outline_kept (plain : level? n = none) (ns : List Node) : outline (n :: ns) = .kept n :: outline ns := by
  rw [outline, plain]

theorem outline_heading (heading : level? n = some level) (ns : List Node) :
    outline (n :: ns) =
      .made (tagged n) (.kept n :: outline (ns.takeWhile (belongs level))) ::
        outline (ns.dropWhile (belongs level)) := by
  rw [outline, heading]

/-! ### The stack and the outline -/

theorem start_eq (level : Nat) (heading : Node) :
    Section.start level heading = ⟨level, tagged heading, [heading]⟩ := rfl

/-- The top level once all sections have ended. -/
def Growing.settled (g : Growing) : List Node := (closeFrom 0 g.done g.sections).done.reverse

/-- A section with more nodes at its end. -/
def Section.filled (s : Section) (ns : List Node) : Section := { s with content := ns.reverse ++ s.content }

/-- A section without room for a level becomes a node of what stands around it. -/
theorem closeFrom_cons {s : Section} (h : level ≤ s.level) (ss : List Section) (done : List Node) :
    closeFrom level done (s :: ss) =
      closeFrom level (Growing.add s.toNode ⟨ss, done⟩).done (Growing.add s.toNode ⟨ss, done⟩).sections := by
  cases ss with
  | nil =>
    rw [closeFrom, if_pos h]
    simp only [Growing.add, closeFrom]
  | cons outer rest =>
    rw [closeFrom, if_pos h]
    rfl

theorem closeFrom_of_lt {s : Section} (h : s.level < level) (ss : List Section) (done : List Node) :
    closeFrom level done (s :: ss) = ⟨s :: ss, done⟩ := by
  cases ss <;> rw [closeFrom, if_neg (Nat.not_le.2 h)]

theorem settled_cons (s : Section) (ss : List Section) (done : List Node) :
    Growing.settled ⟨s :: ss, done⟩ = (Growing.add s.toNode ⟨ss, done⟩).settled := by
  rw [Growing.settled, closeFrom_cons (Nat.zero_le _)]
  rfl

theorem next_heading (heading : level? n = some level) (g : Growing) :
    g.next n = ⟨.start level n :: (closeFrom level g.done g.sections).sections,
      (closeFrom level g.done g.sections).done⟩ := by
  rw [Growing.next, heading]

theorem next_plain (plain : level? n = none) (g : Growing) : g.next n = g.add n := by
  rw [Growing.next, plain]

/-- For the next heading it makes no difference whether a section without room for it has ended. -/
theorem next_cons (heading : level? n = some level) {s : Section} (h : level ≤ s.level) (ss : List Section)
    (done : List Node) : Growing.next ⟨s :: ss, done⟩ n = (Growing.add s.toNode ⟨ss, done⟩).next n := by
  rw [next_heading heading, next_heading heading, closeFrom_cons h]

theorem belongs_heading (heading : level? n = some level) (outer : Nat) : belongs outer n = decide (outer < level) := by
  rw [belongs, ends, heading, Option.any_some, ← decide_not, decide_eq_decide, Nat.not_le]

theorem belongs_kept (plain : level? n = none) (outer : Nat) : belongs outer n = true := by
  rw [belongs, ends, plain, Option.any_none, Bool.not_false]

theorem belongs_of_lt {outer : Nat} (h : outer < level) (n : Node) (inner : belongs level n) : belongs outer n := by
  cases heading : level? n with
  | none => exact belongs_kept heading outer
  | some k =>
    rw [belongs_heading heading] at inner ⊢
    exact decide_eq_true (Nat.lt_trans h (of_decide_eq_true inner))

section

variable {α : Type} {p q : α → Bool} (h : ∀ a, p a → q a)
include h

theorem takeWhile_takeWhile_of_imp (as : List α) : (as.takeWhile q).takeWhile p = as.takeWhile p := by
  induction as with
  | nil => rfl
  | cons a as ih =>
    by_cases ha : p a
    · simp [ha, h a ha, ih]
    · by_cases hq : q a <;> simp [ha, hq]

theorem dropWhile_takeWhile_of_imp (as : List α) : (as.takeWhile q).dropWhile p = (as.dropWhile p).takeWhile q := by
  induction as with
  | nil => rfl
  | cons a as ih =>
    by_cases ha : p a
    · simp [ha, h a ha, ih]
    · by_cases hq : q a <;> simp [ha, hq]

theorem dropWhile_dropWhile_of_imp (as : List α) : (as.dropWhile p).dropWhile q = as.dropWhile q := by
  induction as with
  | nil => rfl
  | cons a as ih =>
    by_cases ha : p a
    · simp [ha, h a ha, ih]
    · simp [ha]

end

theorem filled_cons (s : Section) (n : Node) (ns : List Node) :
    Section.filled { s with content := n :: s.content } ns = s.filled (n :: ns) := by
  rw [Section.filled, Section.filled, List.reverse_cons, List.append_assoc, List.singleton_append]

theorem filled_toNode (level : Nat) (heading : Node) (ns : List Node) :
    (Section.filled ⟨level, tagged heading, [heading]⟩ ns).toNode = .element "section" (tagged heading) (heading :: ns) := by
  rw [Section.filled, Section.toNode, List.reverse_append, List.reverse_reverse, List.reverse_singleton,
    List.singleton_append]

/-- What a growing section takes, whatever stands around it: the nodes up to the next heading that ends it. -/
theorem settled_section (s : Section) (ss : List Section) (done ns : List Node) :
    (ns.foldl Growing.next ⟨s :: ss, done⟩).settled =
      ((ns.dropWhile (belongs s.level)).foldl Growing.next
        (Growing.add (s.filled (Part.toNodes (outline (ns.takeWhile (belongs s.level))))).toNode ⟨ss, done⟩)).settled := by
  -- a heading within the section is followed to its end first, and then what is left of the section
  induction hl : ns.length using Nat.strong_induction_on generalizing s ss ns with
  | _ l ih =>
    subst hl
    cases ns with
    | nil => rw [List.takeWhile_nil, outline]; exact settled_cons s ss done
    | cons n ns =>
      cases heading : level? n with
      | none =>
        have stays : belongs s.level n := belongs_kept heading s.level
        have rest := ih ns.length (Nat.lt_succ_self _) { s with content := n :: s.content } ss ns rfl
        rw [filled_cons] at rest
        rw [List.foldl_cons, next_plain heading, List.takeWhile_cons_of_pos stays, List.dropWhile_cons_of_pos stays,
          outline_kept heading]
        exact rest
      | some level =>
        by_cases h : s.level < level
        · have stays : belongs s.level n := by rw [belongs_heading heading]; exact decide_eq_true h
          have inner := belongs_of_lt h
          have first := ih ns.length (Nat.lt_succ_self _) (.start level n) (s :: ss) ns rfl
          rw [start_eq, filled_toNode] at first
          have shorter : (ns.dropWhile (belongs level)).length < (n :: ns).length :=
            Nat.lt_succ_of_le (List.dropWhile_sublist _).length_le
          have rest := ih _ shorter
            { s with content := .element "section" (tagged n) (n :: Part.toNodes (outline (ns.takeWhile (belongs level))))
                :: s.content } ss _ rfl
          rw [filled_cons] at rest
          rw [List.foldl_cons, next_heading heading, closeFrom_of_lt h, List.takeWhile_cons_of_pos stays,
            List.dropWhile_cons_of_pos stays, outline_heading heading, takeWhile_takeWhile_of_imp inner,
            dropWhile_takeWhile_of_imp inner, ← dropWhile_dropWhile_of_imp inner]
          exact first.trans rest
        · have leaves : ¬ belongs s.level n := by rw [belongs_heading heading, decide_eq_true_eq]; exact h
          rw [List.takeWhile_cons_of_neg leaves, List.dropWhile_cons_of_neg leaves, outline, List.foldl_cons,
            next_cons heading (Nat.not_lt.1 h)]
          rfl

/-- What is read where no section grows comes to its outline. -/
theorem settled_top (done ns : List Node) :
    (ns.foldl Growing.next ⟨[], done⟩).settled = done.reverse ++ Part.toNodes (outline ns) := by
  induction ns using outline.induct generalizing done with
  | case1 => simp [Growing.settled, closeFrom, outline, Part.toNodes]
  | case2 n ns plain ih =>
    rw [List.foldl_cons, next_plain plain, outline_kept plain]
    simp [Growing.add, ih, Part.toNodes, Part.toNode]
  | case3 n ns level heading _ ih =>
    rw [List.foldl_cons, next_heading heading, closeFrom, start_eq, settled_section, filled_toNode,
      outline_heading heading]
    simp [Growing.add, ih, Part.toNodes, Part.toNode]

/-- The nesting comes to the outline. -/
theorem nestAll_eq (ns : List Node) : nestAll ns = Part.toNodes (outline ns) := settled_top [] ns

/-! ### What the sections span -/

theorem flatAll_outline (ns : List Node) : Part.flatAll (outline ns) = ns := by
  induction ns using outline.induct with
  | case1 => rw [outline, Part.flatAll]
  | case2 n ns plain ih => rw [outline_kept plain, Part.flatAll, Part.flat, ih, List.singleton_append]
  | case3 n ns level heading ih₁ ih₂ =>
    rw [outline_heading heading, Part.flatAll, Part.flat, Part.flatAll, Part.flat, ih₁, ih₂, List.singleton_append,
      List.cons_append, List.takeWhile_append_dropWhile]

theorem stop_succ (n : Node) (ns : List Node) (i level : Nat) : stop (n :: ns) (i + 1) level = stop ns i level + 1 := by
  rw [stop, stop, List.drop_succ_cons]
  omega

theorem take_stop_zero (n : Node) (ns : List Node) (level : Nat) :
    (n :: ns).take (stop (n :: ns) 0 level) = n :: ns.takeWhile (belongs level) := by
  have first : stop (n :: ns) 0 level = ns.findIdx (ends level) + 1 := Nat.add_comm _ _
  have all : belongs level = fun m => !ends level m := rfl
  rw [first, List.take_succ_cons, List.takeWhile_eq_take_findIdx_not, all]
  simp only [Bool.not_not]

theorem due_cons (n : Node) (ns : List Node) :
    due (n :: ns) =
      ((level? n).map fun level => ⟨tagged n, n :: ns.takeWhile (belongs level)⟩).toList ++ due ns := by
  have rest : (List.range ns.length).filterMap ((fun i => do
      let heading ← (n :: ns)[i]?
      let level ← level? heading
      some (⟨tagged heading, ((n :: ns).take (stop (n :: ns) i level)).drop i⟩ : Extent)) ∘ Nat.succ) = due ns := by
    simp only [due, Function.comp_def, List.getElem?_cons_succ, stop_succ, List.take_succ_cons, List.drop_succ_cons]
  rw [due, List.length_cons, List.range_succ_eq_map, List.filterMap_cons, List.filterMap_map, rest]
  simp only [List.getElem?_cons_zero, Option.bind_eq_bind, Option.bind_some, take_stop_zero, List.drop_zero]
  cases level? n <;> rfl

theorem due_nil : due [] = [] := rfl

theorem due_kept (plain : level? n = none) (ns : List Node) : due (n :: ns) = due ns := by
  rw [due_cons, plain]
  rfl

theorem due_heading (heading : level? n = some level) (ns : List Node) :
    due (n :: ns) = ⟨tagged n, n :: ns.takeWhile (belongs level)⟩ :: due ns := by
  rw [due_cons, heading]
  rfl

theorem belongs_head_dropWhile (level : Nat) (ns : List Node) :
    ∀ n ∈ (ns.dropWhile (belongs level)).head?, belongs level n = false := by
  intro n hn
  have first := List.head?_dropWhile_not (belongs level) ns
  rw [Option.mem_def.1 hn] at first
  exact first

/-- Among what belongs to a heading no section goes beyond the section of the heading. -/
theorem due_append {as bs : List Node} (inner : ∀ n ∈ as, belongs level n)
    (outer : ∀ n ∈ bs.head?, belongs level n = false) : due (as ++ bs) = due as ++ due bs := by
  induction as with
  | nil => rfl
  | cons n as ih =>
    obtain ⟨first, inner⟩ := List.forall_mem_cons.1 inner
    cases heading : level? n with
    | none => rw [List.cons_append, due_kept heading, due_kept heading, ih inner]
    | some k =>
      have deeper : level < k := by
        rw [belongs_heading heading] at first
        exact of_decide_eq_true first
      have nothing : bs.takeWhile (belongs k) = [] := by
        cases bs with
        | nil => rfl
        | cons b bs =>
          refine List.takeWhile_cons_of_neg fun stays => ?_
          have ended : belongs level b = false := outer b rfl
          rw [belongs_of_lt deeper b stays] at ended
          cases ended
      have own : (as ++ bs).takeWhile (belongs k) = as.takeWhile (belongs k) := by
        rw [List.takeWhile_append]
        split
        case isTrue all => rw [nothing, List.append_nil, (List.takeWhile_prefix _).eq_of_length all]
        case isFalse => rfl
      rw [List.cons_append, due_heading heading, due_heading heading, own, ih inner, List.cons_append]

/-- The sections of the outline span what they have to. -/
theorem extentsAll_outline (ns : List Node) : Part.extentsAll (outline ns) = due ns := by
  induction ns using outline.induct with
  | case1 => rw [outline, Part.extentsAll, due_nil]
  | case2 n ns plain ih => rw [outline_kept plain, Part.extentsAll, Part.extents, ih, due_kept plain, List.nil_append]
  | case3 n ns level heading ih₁ ih₂ =>
    have apart : due ns = due (ns.takeWhile (belongs level)) ++ due (ns.dropWhile (belongs level)) := by
      rw [← due_append (fun n => List.mem_takeWhile_imp) (belongs_head_dropWhile level ns),
        List.takeWhile_append_dropWhile]
    rw [outline_heading heading, due_heading heading, apart, ← ih₁, ← ih₂]
    simp only [Part.extentsAll, Part.extents, Part.flatAll, Part.flat, flatAll_outline, List.nil_append,
      List.cons_append]

theorem length_due (ns : List Node) : (due ns).length = ns.countP fun n => (level? n).isSome := by
  induction ns with
  | nil => rfl
  | cons n ns ih =>
    cases heading : level? n with
    | none => rw [due_kept heading, ih, List.countP_cons_of_neg (by rw [heading]; exact Bool.false_ne_true)]
    | some level => rw [due_heading heading, List.length_cons, ih, List.countP_cons_of_pos (by rw [heading]; rfl)]

/-! ### The top level -/

/-- From a heading on, all that stands in the open is sections. -/
theorem isMade_of_mem_outline (ns : List Node) (starts : ∀ n ∈ ns.head?, (level? n).isSome) :
    ∀ p ∈ outline ns, p.isMade := by
  induction ns using outline.induct with
  | case1 => rw [outline]; exact List.forall_mem_nil _
  | case2 n ns plain ih =>
    have first := starts n rfl
    rw [plain] at first
    cases first
  | case3 n ns level heading _ ih =>
    rw [outline_heading heading]
    refine List.forall_mem_cons.2 ⟨rfl, ih fun m hm => ?_⟩
    have ended := belongs_head_dropWhile level ns m hm
    cases plain : level? m with
    | none =>
      rw [belongs_kept plain] at ended
      cases ended
    | some _ => rfl

theorem outline_eq_append (ns : List Node) :
    outline ns = (ns.takeWhile fun n => (level? n).isNone).map .kept ++
      outline (ns.dropWhile fun n => (level? n).isNone) := by
  induction ns with
  | nil => rw [List.dropWhile_nil, outline]; rfl
  | cons n ns ih =>
    cases heading : level? n with
    | none => simp [heading, outline_kept heading, ih]
    | some level => simp [heading]

theorem get?_tagged (heading : Node) :
    (tagged heading).get? "data-heading-id" = (heading.element?.bind Element.id?).map .text := by
  rw [tagged]
  cases heading.element?.bind Element.id? <;> rfl

/-- The nesting computes the outline of a document: one section for each heading of the top level, which spans the nodes
from the heading up to the first one behind it that is a heading of its own or a higher rank. -/
theorem nest_eq_outline (cs : List Node) :
    nest (.root cs) = .root (Part.toNodes (outline cs)) ∧
    Part.flatAll (outline cs) = cs ∧
    Part.extentsAll (outline cs) = due cs ∧
    (Part.extentsAll (outline cs)).length = cs.countP (fun n => (level? n).isSome) ∧
    (∀ heading, (tagged heading).get? "data-heading-id" = (heading.element?.bind Element.id?).map .text) ∧
    ∃ sections, outline cs = (cs.takeWhile fun n => (level? n).isNone).map .kept ++ sections ∧
      sections.all Part.isMade := by
  refine ⟨?_, flatAll_outline cs, extentsAll_outline cs, ?_, get?_tagged, _, outline_eq_append cs, ?_⟩
  · rw [nest, nestAll_eq]
  · rw [extentsAll_outline, length_due]
  · refine List.all_eq_true.2 (isMade_of_mem_outline _ fun n hn => ?_)
    have first := List.head?_dropWhile_not (fun n => (level? n).isNone) cs
    rw [Option.mem_def.1 hn] at first
    simpa using first

end Folio.Outline
