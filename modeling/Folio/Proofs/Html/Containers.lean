import Folio.Proofs.Html.Controls

/-!
# Containers are put in once and can be taken out

The walk that puts blocks into containers counts the blocks that were in none (`count_wrapAll`). Afterwards none is
left, so a second walk finds nothing to do. Taking the containers of a tree out (`opened`) gives back the tree that they
were put into, if that had no container of its own.
-/

namespace Folio.CodeBlock

open Html

mutual

/-- A tree with the first child of each container in its place. A container without a child stays. -/
def opened : Node → Node
  | .root cs => .root (openedAll cs)
  | .element t p cs =>
    if isContainer ⟨t, p, cs⟩ then (openedAll cs).headD (.element t p cs) else .element t p (openedAll cs)
  | .text s => .text s

/-- A forest with the first child of each container in its place. -/
def openedAll : List Node → List Node
  | [] => []
  | n :: ns => opened n :: openedAll ns

end

mutual

/-- The containers of a tree, also those below roots and within blocks. -/
def containers : Node → List Element
  | .root cs => containersAll cs
  | .element t p cs => (if isContainer ⟨t, p, cs⟩ then [⟨t, p, cs⟩] else []) ++ containersAll cs
  | .text _ => []

/-- The containers of a forest. -/
def containersAll : List Node → List Element
  | [] => []
  | n :: ns => containers n ++ containersAll ns

end

variable {t : String} {p : Properties} {cs ns : List Node}

theorem containersAll_cons_eq_nil_iff {n : Node} :
    containersAll (n :: ns) = [] ↔ containers n = [] ∧ containersAll ns = [] := List.append_eq_nil_iff

theorem containers_element_eq_nil_iff :
    containers (.element t p cs) = [] ↔ isContainer ⟨t, p, cs⟩ = false ∧ containersAll cs = [] := by
  rw [containers, List.append_eq_nil_iff]
  cases isContainer ⟨t, p, cs⟩ <;> simp

theorem opened_element (free : isContainer ⟨t, p, cs⟩ = false) :
    opened (.element t p cs) = .element t p (openedAll cs) := by
  rw [opened, free, if_neg Bool.false_ne_true]

/-- A container has the block that it was made for in its place. -/
theorem opened_container (n : Node) : opened (container n) = opened n := rfl

/-! ### Containers taken out -/

mutual

theorem opened_of_free : (n : Node) → containers n = [] → opened n = n
  | .root cs, free => congrArg Node.root (openedAll_of_free cs free)
  | .text _, _ => rfl
  | .element t p cs, free => by
    obtain ⟨own, below⟩ := containers_element_eq_nil_iff.1 free
    rw [opened_element own, openedAll_of_free cs below]

/-- Nothing is taken out of a forest without containers. -/
theorem openedAll_of_free : (ns : List Node) → containersAll ns = [] → openedAll ns = ns
  | [], _ => rfl
  | n :: ns, free => by
    obtain ⟨first, rest⟩ := containersAll_cons_eq_nil_iff.1 free
    rw [openedAll, opened_of_free n first, openedAll_of_free ns rest]

end

mutual

theorem opened_wrapped : (n : Node) → containers n = [] → opened (wrapped false n) = n
  | .root cs, free => opened_of_free (.root cs) free
  | .text _, _ => rfl
  | .element t p cs, free => by
    obtain ⟨own, below⟩ := containers_element_eq_nil_iff.1 free
    by_cases ht : t = "pre"
    · subst ht
      rw [wrapped_pre, opened_container, opened_of_free _ free]
    · have own' : isContainer ⟨t, p, cs.map (wrapped false)⟩ = false := own
      rw [wrapped_element ht, own, opened_element own', openedAll_wrapped cs below]

/-- The containers that blocks were put into are taken out again. -/
theorem openedAll_wrapped : (ns : List Node) → containersAll ns = [] → openedAll (ns.map (wrapped false)) = ns
  | [], _ => rfl
  | n :: ns, free => by
    obtain ⟨first, rest⟩ := containersAll_cons_eq_nil_iff.1 free
    rw [List.map_cons, openedAll, opened_wrapped n first, openedAll_wrapped ns rest]

end

/-! ### How many containers are put in -/

theorem count_wrap_element (ht : t ≠ "pre") (inside : Bool) :
    (wrap inside (.element t p cs)).2 = (wrapAll (isContainer ⟨t, p, cs⟩) cs).2 := by
  rw [wrap, if_neg ht]

mutual

theorem count_wrap (holder : Option Element) : (n : Node) →
    (wrap (holder.any isContainer) n).2 = (blocks false holder n).countP fun b => !b.isHeld
  | .text _ => rfl
  | .root _ => rfl
  | .element t p cs => by
    by_cases ht : t = "pre"
    · subst ht
      rw [blocks_pre, List.countP_singleton, Placed.isHeld, wrap, if_pos rfl]
      cases holder.any isContainer <;> rfl
    · rw [count_wrap_element ht, blocks_element ht]
      exact count_wrapAll (some ⟨t, p, cs⟩) cs

/-- The blocks that are in no container are counted. -/
theorem count_wrapAll (holder : Option Element) : (ns : List Node) →
    (wrapAll (holder.any isContainer) ns).2 = (blocksAll false holder ns).countP fun b => !b.isHeld
  | [] => rfl
  | n :: ns => by rw [wrapAll, count_wrap holder n, count_wrapAll holder ns, blocksAll, List.countP_append]

end

theorem count_addCopyButtons (tree : Node) :
    (addCopyButtons tree).2 = (blocksAll false none tree.children).countP fun b => !b.isHeld := by
  cases tree with
  | text s => rfl
  | _ => exact count_wrapAll none _

mutual

theorem isContainer_of_mem_elements {e : Element} : (n : Node) → containers n = [] → e ∈ Node.elements n →
    isContainer e = false
  | .element t p cs, free, he => by
    obtain ⟨own, below⟩ := containers_element_eq_nil_iff.1 free
    rcases List.mem_cons.1 he with rfl | he
    · exact own
    · exact isContainer_of_mem_elementsAll cs below he

theorem isContainer_of_mem_elementsAll {e : Element} : (ns : List Node) → containersAll ns = [] →
    e ∈ Node.elementsAll ns → isContainer e = false
  | n :: ns, free, he => by
    obtain ⟨first, rest⟩ := containersAll_cons_eq_nil_iff.1 free
    rcases List.mem_append.1 he with he | he
    · exact isContainer_of_mem_elements n first he
    · exact isContainer_of_mem_elementsAll ns rest he

end

/-- Without containers all blocks are free. -/
theorem isHeld_of_free (free : containersAll ns = []) : ∀ b ∈ blocksAll false none ns, b.isHeld = false := by
  intro b hb
  obtain ⟨-, ⟨top, -⟩ | ⟨d, hd, there, -⟩⟩ := mem_blocksAll hb
  · rw [Placed.isHeld, top]
    rfl
  · rw [Placed.isHeld, there]
    exact isContainer_of_mem_elementsAll ns free hd

/-! ### A second walk -/

theorem wrap_container : wrap false (container (.element "pre" p cs)) = (container (.element "pre" p cs), 0) := rfl

mutual

theorem wrap_wrapped (inside : Bool) : (n : Node) → wrap inside (wrapped inside n) = (wrapped inside n, 0)
  | .text _ => rfl
  | .root _ => rfl
  | .element t p cs => by
    by_cases ht : t = "pre"
    · subst ht
      cases inside with
      | true => rfl
      | false => exact wrap_container
    · have own : isContainer ⟨t, p, cs.map (wrapped (isContainer ⟨t, p, cs⟩))⟩ = isContainer ⟨t, p, cs⟩ := rfl
      rw [wrapped_element ht, wrap, if_neg ht, own, wrapAll_wrapped _ cs]

/-- Blocks that are in containers stay there. -/
theorem wrapAll_wrapped (inside : Bool) : (ns : List Node) →
    wrapAll inside (ns.map (wrapped inside)) = (ns.map (wrapped inside), 0)
  | [] => rfl
  | n :: ns => by
    rw [List.map_cons, wrapAll, wrap_wrapped inside n, wrapAll_wrapped inside ns]
    rfl

end

theorem addCopyButtons_twice (tree : Node) :
    addCopyButtons (addCopyButtons tree).1 = ((addCopyButtons tree).1, 0) := by
  cases tree with
  | text s => rfl
  | root cs => rw [addCopyButtons_fst, Heading.withChildren, addCopyButtons, wrapAll_wrapped]
  | element t p cs => rw [addCopyButtons_fst, Heading.withChildren, addCopyButtons, wrapAll_wrapped]

/-- Blocks that have been put into containers are not put into others. In a tree without containers each block outside
of other blocks is counted, and the tree comes back when the containers are taken out. -/
theorem opened_addCopyButtons (tree : Node) :
    addCopyButtons (addCopyButtons tree).1 = ((addCopyButtons tree).1, 0) ∧
      (containers tree = [] → opened (addCopyButtons tree).1 = tree ∧
        (addCopyButtons tree).2 = (blocksAll false none tree.children).length) := by
  refine ⟨addCopyButtons_twice tree, fun free => ?_⟩
  have below : containersAll tree.children = [] := by
    cases tree with
    | root cs => exact free
    | element t p cs => exact (containers_element_eq_nil_iff.1 free).2
    | text s => rfl
  have back := openedAll_wrapped tree.children below
  constructor
  · rw [addCopyButtons_fst]
    cases tree with
    | root cs => exact congrArg Node.root back
    | element t p cs =>
      have own : isContainer ⟨t, p, cs.map (wrapped false)⟩ = false := (containers_element_eq_nil_iff.1 free).1
      exact (opened_element own).trans (congrArg (Node.element t p) back)
    | text s => rfl
  · rw [count_addCopyButtons, List.countP_eq_length]
    intro b hb
    rw [isHeld_of_free below b hb]
    rfl

/-- A block with properties in a quotation, one within a block, and one below a root within the tree. -/
def scattered : Node :=
  .root [.element "blockquote" .empty [.text "a", .element "pre" (.ofList [("id", .text "x")]) [.text "b"]],
    .element "pre" .empty [.element "div" .empty [.element "pre" .empty []]], .root [.element "pre" .empty []]]

theorem opened_addCopyButtons_scattered :
    containers scattered = [] ∧ opened (addCopyButtons scattered).1 = scattered ∧ (addCopyButtons scattered).2 = 2 := by
  have free : containers scattered = [] := by decide +kernel
  obtain ⟨back, count⟩ := (opened_addCopyButtons scattered).2 free
  exact ⟨free, back, count.trans (by decide +kernel)⟩

end Folio.CodeBlock
