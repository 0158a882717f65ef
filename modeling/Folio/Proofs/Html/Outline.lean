import Folio.Proofs.Html.Forest
import Folio.Proofs.Html.Nesting

/-!
# Sections keep what they hold

Nesting moves each heading of a top level, and what follows it, into a section. A `View` lists something about a forest
and sees a section as its heading followed by its content; of a nested top level it sees what it sees of the nodes in
their order (`View.nestAll`). A rewriting of nodes that leaves headings and their ids alone may come before the nesting
or after it (`nestAll_map`). Both go by induction on the outline; the stack of the nesting does not come up again. What
is nested has no heading at its top level, and so it stays as it is when it is nested once more (`nest_nest`).
-/

namespace Folio.Outline

open Html

theorem level?_section (p : Properties) (cs : List Node) : level? (.element "section" p cs) = none := rfl

/-- No heading is left at the top level. -/
theorem level?_of_mem_outline (ns : List Node) : ∀ n ∈ Part.toNodes (outline ns), level? n = none := by
  induction ns using outline.induct with
  | case1 => rw [outline]; exact List.forall_mem_nil _
  | case2 n ns plain ih =>
    rw [outline_kept plain]
    exact List.forall_mem_cons.2 ⟨plain, ih⟩
  | case3 n ns level heading _ ih =>
    rw [outline_heading heading]
    exact List.forall_mem_cons.2 ⟨level?_section _ _, ih⟩

variable {ns : List Node} {n : Node}

theorem level?_of_mem_nestAll (h : n ∈ nestAll ns) : level? n = none := by
  rw [nestAll_eq] at h
  exact level?_of_mem_outline ns n h

theorem toNodes_outline_of_plain (plain : ∀ n ∈ ns, level? n = none) : Part.toNodes (outline ns) = ns := by
  induction ns with
  | nil => rw [outline]; rfl
  | cons n ns ih =>
    obtain ⟨first, rest⟩ := List.forall_mem_cons.1 plain
    rw [outline_kept first, Part.toNodes, Part.toNode, ih rest]

/-- The nesting leaves a top level as it is just if it holds no heading. -/
theorem nestAll_eq_self_iff : nestAll ns = ns ↔ ∀ n ∈ ns, level? n = none := by
  constructor
  · intro same n hn
    rw [← same] at hn
    exact level?_of_mem_nestAll hn
  · intro plain
    rw [nestAll_eq, toNodes_outline_of_plain plain]

theorem level?_of_mem_nest (tree : Node) : ∀ n ∈ (nest tree).children, level? n = none := by
  intro n hn
  cases tree with
  | root cs => exact level?_of_mem_nestAll hn
  | element t p cs => exact level?_of_mem_nestAll hn
  | text s => cases hn

/-- A nested tree has no heading at its top level, so nesting it again changes nothing. -/
theorem nest_nest (tree : Node) :
    (∀ n ∈ (nest tree).children, level? n = none) ∧ nest (nest tree) = nest tree := by
  refine ⟨level?_of_mem_nest tree, ?_⟩
  have plain := level?_of_mem_nest tree
  cases tree with
  | root cs => exact congrArg Node.root (nestAll_eq_self_iff.2 plain)
  | element t p cs => exact congrArg (Node.element t p) (nestAll_eq_self_iff.2 plain)
  | text s => rfl

/-! ### Views -/

variable {α : Type}

/-- A list of something about a forest. A section counts as its heading, seen in its own way, and its content. -/
structure View (view : List Node → List α) (head : Node → List α) : Prop where
  append (ns ms : List Node) : view (ns ++ ms) = view ns ++ view ms
  cover (h : Node) (rest : List Node) (heading : (level? h).isSome) (plain : ∀ n ∈ rest, level? n = none) :
    view [.element "section" (tagged h) (h :: rest)] = head h ++ view rest

/-- What is seen of the next node of a top level. -/
def seenNext (view : List Node → List α) (head : Node → List α) (n : Node) : List α :=
  if (level? n).isSome then head n else view [n]

namespace View

variable {view : List Node → List α} {head : Node → List α} (v : View view head)
include v

theorem nil : view [] = [] := List.self_eq_append_right.1 (v.append [] [])

theorem cons (n : Node) (ns : List Node) : view (n :: ns) = view [n] ++ view ns := v.append [n] ns

/-- A nested top level is seen as its nodes in order, the headings in their own way. -/
theorem nestAll (ns : List Node) : view (nestAll ns) = ns.flatMap (seenNext view head) := by
  rw [nestAll_eq]
  induction ns using outline.induct with
  | case1 => rw [outline]; exact v.nil
  | case2 n ns plain ih =>
    rw [outline_kept plain, Part.toNodes, Part.toNode, v.cons, ih, List.flatMap_cons, seenNext, plain]
    rfl
  | case3 n ns level heading ih₁ ih₂ =>
    have begins : (level? n).isSome := by rw [heading]; rfl
    rw [outline_heading heading, Part.toNodes, Part.toNode, v.cons, Part.toNodes, Part.toNode,
      v.cover n _ begins (level?_of_mem_outline _), ih₁, ih₂, List.flatMap_cons, seenNext, if_pos begins,
      List.append_assoc, ← List.flatMap_append, List.takeWhile_append_dropWhile]

end View

/-- A list of something about nodes that sees a section as what it holds sees the same behind the nesting. -/
theorem flatMap_nestAll {f : Node → List α} (hf : Node.SeesThrough f) (ns : List Node) :
    (nestAll ns).flatMap f = ns.flatMap f := by
  have v : View (fun ns => ns.flatMap f) f :=
    ⟨fun _ _ => List.flatMap_append, fun h rest _ _ => by rw [List.flatMap_singleton, hf, List.flatMap_cons]⟩
  have same : seenNext (fun ns => ns.flatMap f) f = f := by
    funext n
    rw [seenNext, List.flatMap_singleton, ite_self]
  rw [v.nestAll ns, same]

/-! ### Rewritten nodes -/

/-- A rewriting of nodes that leaves the headings of the top level and their ids alone, and sections too. -/
structure Respects (f : Node → Node) : Prop where
  level (n : Node) : level? (f n) = level? n
  tag (n : Node) (heading : (level? n).isSome) : tagged (f n) = tagged n
  inside (p : Properties) (cs : List Node) : f (.element "section" p cs) = .element "section" p (cs.map f)

theorem Respects.belongs {f : Node → Node} (hf : Respects f) (level : Nat) :
    Outline.belongs level ∘ f = Outline.belongs level := by
  funext n
  rw [Function.comp_apply, Outline.belongs, ends, hf.level]
  rfl

theorem nestAll_map {f : Node → Node} (hf : Respects f) (ns : List Node) : nestAll (ns.map f) = (nestAll ns).map f := by
  rw [nestAll_eq, nestAll_eq]
  induction ns using outline.induct with
  | case1 => rw [List.map_nil, outline]; rfl
  | case2 n ns plain ih =>
    have plain' := (hf.level n).trans plain
    rw [List.map_cons, outline_kept plain', outline_kept plain, Part.toNodes, Part.toNodes, ih, List.map_cons]
    rfl
  | case3 n ns level heading ih₁ ih₂ =>
    have heading' := (hf.level n).trans heading
    have tag := hf.tag n (by rw [heading]; rfl)
    rw [List.map_cons, outline_heading heading', outline_heading heading, List.takeWhile_map, List.dropWhile_map,
      hf.belongs, tag]
    simp only [Part.toNodes, Part.toNode, ih₁, ih₂, List.map_cons, hf.inside]

end Folio.Outline
