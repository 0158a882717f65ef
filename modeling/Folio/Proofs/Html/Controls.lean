import Folio.Proofs.Html.Copying

/-!
# Controls for copying

Where blocks stand is said by the element that each is a child of. The walk tells a block in a container from the others
by its parent alone, and it never enters a block; so a container of the document's own that has no button gets none, and
what stands within a block stays there. All other blocks come into containers of their own (`blocks_wrapped`), and such
a container holds the block and one button.
-/

namespace Folio.CodeBlock

open Html

/-- A block, and the element that it is a child of. A block of the top level is in none. -/
structure Placed where
  holder : Option Element
  block : Element

mutual

/-- The blocks of a node that are reached through elements, in document order. Those within blocks count if the walk
goes deep. -/
def blocks (deep : Bool) (holder : Option Element) : Node → List Placed
  | .element t p cs =>
    if t = "pre" then ⟨holder, ⟨t, p, cs⟩⟩ :: (if deep then blocksAll deep (some ⟨t, p, cs⟩) cs else [])
    else blocksAll deep (some ⟨t, p, cs⟩) cs
  | _ => []

/-- The blocks of a forest. -/
def blocksAll (deep : Bool) (holder : Option Element) : List Node → List Placed
  | [] => []
  | n :: ns => blocks deep holder n ++ blocksAll deep holder ns

end

def isBlock (n : Node) : Bool := n.element?.any (·.tag = "pre")

def isCopyButton (e : Element) : Bool := e.tag = "button" && e.hasClass buttonClass

/-- How many buttons for copying are among some nodes. -/
def buttonCount (ns : List Node) : Nat := ns.countP fun n => n.element?.any isCopyButton

/-- A container with one block and one button. -/
def isControlled (e : Element) : Bool :=
  isContainer e && e.children.countP isBlock == 1 && buttonCount e.children == 1

/-- An element the blocks below which are in containers. -/
def covered (e : Element) : Element := { e with children := e.children.map (wrapped (isContainer e)) }

namespace Placed

/-- The block is a child of a container. -/
def isHeld (b : Placed) : Bool := b.holder.any isContainer

/-- The block is a child of a container with one block and one button. -/
def hasControl (b : Placed) : Bool := b.holder.any isControlled

/-- The blocks within a block. -/
def inner (b : Placed) : List Placed := blocksAll true (some b.block) b.block.children

theorem isHeld_of_hasControl {b : Placed} (h : b.hasControl) : b.isHeld := by
  obtain ⟨d, there, controlled⟩ := (Option.any_eq_true _ _).1 h
  simp only [isControlled, Bool.and_eq_true] at controlled
  exact (Option.any_eq_true _ _).2 ⟨d, there, controlled.1.1⟩

/-- Where a block stands once blocks are in containers. -/
def settled (b : Placed) : Placed :=
  if b.isHeld then { b with holder := b.holder.map covered }
  else { b with holder := (container b.block.toNode).element? }

theorem block_settled (b : Placed) : b.settled.block = b.block := by
  rw [settled]
  split <;> rfl

theorem settled_held {b : Placed} (h : b.isHeld) : b.settled = { b with holder := b.holder.map covered } := by
  rw [settled, if_pos h]

theorem settled_free {b : Placed} (h : b.isHeld = false) :
    b.settled = { b with holder := (container b.block.toNode).element? } := by
  rw [settled, if_neg (Bool.eq_false_iff.1 h)]

end Placed

variable {t : String} {p : Properties} {cs : List Node}

theorem blocks_pre (holder : Option Element) :
    blocks false holder (.element "pre" p cs) = [⟨holder, ⟨"pre", p, cs⟩⟩] := by
  rw [blocks, if_pos rfl, if_neg Bool.false_ne_true]

theorem blocks_pre_deep (holder : Option Element) :
    blocks true holder (.element "pre" p cs) =
      ⟨holder, ⟨"pre", p, cs⟩⟩ :: Placed.inner ⟨holder, ⟨"pre", p, cs⟩⟩ := by
  rw [blocks, if_pos rfl, if_pos rfl]
  rfl

theorem blocks_element (ht : t ≠ "pre") (deep : Bool) (holder : Option Element) :
    blocks deep holder (.element t p cs) = blocksAll deep (some ⟨t, p, cs⟩) cs := by
  rw [blocks, if_neg ht]

/-! ### Blocks in containers -/

theorem blocks_container (holder : Option Element) :
    blocks false holder (container (.element "pre" p cs)) =
      [⟨(container (.element "pre" p cs)).element?, ⟨"pre", p, cs⟩⟩] := by
  have button (holder : Option Element) : blocks false holder copyButton = [] := rfl
  rw [container, blocks_element (by decide), blocksAll, blocksAll, blocksAll, blocks_pre, button]
  rfl

mutual

/-- A block in a container stays there, and any other gets its own. -/
theorem blocks_wrapped (holder : Option Element) : (n : Node) →
    blocks false (holder.map covered) (wrapped (holder.any isContainer) n) =
      (blocks false holder n).map Placed.settled
  | .text _ => rfl
  | .root _ => rfl
  | .element t p cs => by
    by_cases ht : t = "pre"
    · subst ht
      cases held : holder.any isContainer with
      | true =>
        have held : Placed.isHeld ⟨holder, ⟨"pre", p, cs⟩⟩ := held
        rw [wrapped_pre_inside, blocks_pre, blocks_pre, List.map_singleton, Placed.settled_held held]
      | false =>
        have free : Placed.isHeld ⟨holder, ⟨"pre", p, cs⟩⟩ = false := held
        rw [wrapped_pre, blocks_container, blocks_pre, List.map_singleton, Placed.settled_free free]
        rfl
    · have below := blocksAll_wrapped (some ⟨t, p, cs⟩) cs
      rw [wrapped_element ht, blocks_element ht, blocks_element ht]
      exact below

theorem blocksAll_wrapped (holder : Option Element) : (ns : List Node) →
    blocksAll false (holder.map covered) (ns.map (wrapped (holder.any isContainer))) =
      (blocksAll false holder ns).map Placed.settled
  | [] => rfl
  | n :: ns => by
    rw [List.map_cons, blocksAll, blocks_wrapped holder n, blocksAll_wrapped holder ns, blocksAll, List.map_append]

end

theorem blocks_addCopyButtons (cs : List Node) :
    blocksAll false none (addCopyButtons (.root cs)).1.children = (blocksAll false none cs).map Placed.settled := by
  rw [addCopyButtons_fst]
  exact blocksAll_wrapped none cs

mutual

/-- A deep walk finds each block and then those within it. -/
theorem blocks_deep (holder : Option Element) : (n : Node) →
    blocks true holder n = (blocks false holder n).flatMap fun b => b :: b.inner
  | .text _ => rfl
  | .root _ => rfl
  | .element t p cs => by
    by_cases ht : t = "pre"
    · subst ht
      rw [blocks_pre_deep, blocks_pre, List.flatMap_singleton]
    · rw [blocks_element ht, blocks_element ht, blocksAll_deep _ cs]

theorem blocksAll_deep (holder : Option Element) : (ns : List Node) →
    blocksAll true holder ns = (blocksAll false holder ns).flatMap fun b => b :: b.inner
  | [] => rfl
  | n :: ns => by rw [blocksAll, blocks_deep holder n, blocksAll_deep holder ns, blocksAll, List.flatMap_append]

end

/-! ### Where blocks stand -/

mutual

/-- A block of a node is the node itself or a child of an element of it. -/
theorem mem_blocks {holder : Option Element} {b : Placed} : {n : Node} → b ∈ blocks false holder n →
    b.block.tag = "pre" ∧ ((b.holder = holder ∧ b.block.toNode = n) ∨
      ∃ d ∈ Node.elements n, b.holder = some d ∧ b.block.toNode ∈ d.children)
  | .text _, h => by cases h
  | .root _, h => by cases h
  | .element t p cs, h => by
    by_cases ht : t = "pre"
    · subst ht
      rw [blocks_pre, List.mem_singleton] at h
      subst h
      exact ⟨rfl, .inl ⟨rfl, rfl⟩⟩
    · rw [blocks_element ht] at h
      obtain ⟨tag, ⟨there, child⟩ | ⟨d, hd, found⟩⟩ := mem_blocksAll h
      · exact ⟨tag, .inr ⟨_, List.mem_cons_self, there, child⟩⟩
      · exact ⟨tag, .inr ⟨d, List.mem_cons_of_mem _ hd, found⟩⟩

theorem mem_blocksAll {holder : Option Element} {b : Placed} : {ns : List Node} → b ∈ blocksAll false holder ns →
    b.block.tag = "pre" ∧ ((b.holder = holder ∧ b.block.toNode ∈ ns) ∨
      ∃ d ∈ Node.elementsAll ns, b.holder = some d ∧ b.block.toNode ∈ d.children)
  | [], h => by cases h
  | n :: ns, h => by
    rcases List.mem_append.1 h with h | h
    · obtain ⟨tag, ⟨there, same⟩ | ⟨d, hd, found⟩⟩ := mem_blocks h
      · exact ⟨tag, .inl ⟨there, same ▸ List.mem_cons_self⟩⟩
      · exact ⟨tag, .inr ⟨d, List.mem_append_left _ hd, found⟩⟩
    · obtain ⟨tag, ⟨there, child⟩ | ⟨d, hd, found⟩⟩ := mem_blocksAll h
      · exact ⟨tag, .inl ⟨there, List.mem_cons_of_mem _ child⟩⟩
      · exact ⟨tag, .inr ⟨d, List.mem_append_right _ hd, found⟩⟩

end

theorem mem_elementsAll_of_mem {e : Element} {ns : List Node} (h : e.toNode ∈ ns) : e ∈ Node.elementsAll ns := by
  obtain ⟨before, after, rfl⟩ := List.append_of_mem h
  rw [Node.elementsAll_append]
  exact List.mem_append_right _ List.mem_cons_self

mutual

/-- A child of an element of a node is an element of the node. -/
theorem mem_elements_of_child {d e : Element} (child : e.toNode ∈ d.children) : {n : Node} → d ∈ Node.elements n →
    e ∈ Node.elements n
  | .text _, h => by cases h
  | .root _, h => by cases h
  | .element t p cs, h => by
    rcases List.mem_cons.1 h with rfl | h
    · exact List.mem_cons_of_mem _ (mem_elementsAll_of_mem child)
    · exact List.mem_cons_of_mem _ (mem_elementsAll_of_child child h)

theorem mem_elementsAll_of_child {d e : Element} (child : e.toNode ∈ d.children) : {ns : List Node} →
    d ∈ Node.elementsAll ns → e ∈ Node.elementsAll ns
  | [], h => by cases h
  | n :: ns, h => by
    rcases List.mem_append.1 h with h | h
    · exact List.mem_append_left _ (mem_elements_of_child child h)
    · exact List.mem_append_right _ (mem_elementsAll_of_child child h)

end

/-! ### What stands in containers -/

/-- A container keeps its children as far as their tags and properties go. -/
theorem countP_covered {e : Element} (held : isContainer e) {f : Element → Bool}
    (hf : ∀ t p cs ds, f ⟨t, p, cs⟩ = f ⟨t, p, ds⟩) :
    (covered e).children.countP (·.element?.any f) = e.children.countP (·.element?.any f) := by
  have child (n : Node) : (wrapped true n).element?.any f = n.element?.any f := by
    cases n with
    | element t p cs =>
      by_cases ht : t = "pre"
      · subst ht
        rfl
      · rw [wrapped_element ht]
        exact hf t p _ cs
    | _ => rfl
  rw [covered, held, List.countP_map]
  exact congrArg (e.children.countP ·) (funext child)

theorem blockCount_covered {e : Element} (held : isContainer e) :
    (covered e).children.countP isBlock = e.children.countP isBlock :=
  countP_covered (f := fun e => e.tag = "pre") held fun _ _ _ _ => rfl

theorem buttonCount_covered {e : Element} (held : isContainer e) :
    buttonCount (covered e).children = buttonCount e.children := countP_covered held fun _ _ _ _ => rfl

theorem buttonCount_eq_zero {ns : List Node} {e : Element} (fresh : ∀ e ∈ Node.elementsAll ns, isCopyButton e = false)
    (he : e ∈ Node.elementsAll ns) : buttonCount e.children = 0 := by
  refine List.countP_eq_zero.2 fun n hn => ?_
  cases n with
  | element t p cs =>
    have child := fresh ⟨t, p, cs⟩ (mem_elementsAll_of_child hn he)
    exact Bool.eq_false_iff.1 child
  | _ => exact Bool.false_ne_true

/-- The container that a block gets has that block and one button. -/
theorem hasControl_settled {b : Placed} (tag : b.block.tag = "pre") (free : b.isHeld = false) :
    b.settled.hasControl := by
  obtain ⟨holder, t, p, cs⟩ := b
  obtain rfl : t = "pre" := tag
  rw [Placed.settled_free free]
  rfl

/-- Every block outside of other blocks comes to stand in a container. If it was in none, the container has that block
and one button; a container of the document's own that has the block already is left alone. So where no block is in a
container or in another block, each gets its control. -/
theorem hasControl_addCopyButtons (cs : List Node) (fresh : ∀ e ∈ Node.elementsAll cs, isCopyButton e = false) :
    let after := (addCopyButtons (.root cs)).1.children
    (blocksAll false none after).map (·.block.properties) = (blocksAll false none cs).map (·.block.properties) ∧
    (∀ b ∈ blocksAll false none after, b.isHeld ∧ (b.hasControl ∨
      ∃ own ∈ Node.elementsAll cs, isContainer own ∧ b.block.toNode ∈ own.children ∧ b.holder = some (covered own) ∧
        (covered own).children.countP isBlock = own.children.countP isBlock ∧
        buttonCount (covered own).children = 0)) ∧
    ((∀ b ∈ blocksAll true none cs, b.isHeld = false ∧ b.inner = []) →
      ∀ b ∈ blocksAll true none after, b.hasControl) := by
  intro after
  have settled : blocksAll false none after = (blocksAll false none cs).map Placed.settled := blocks_addCopyButtons cs
  refine ⟨?_, fun b hb => ?_, fun apart b hb => ?_⟩
  · rw [settled, List.map_map]
    exact List.map_congr_left fun b _ => congrArg Element.properties b.block_settled
  · rw [settled] at hb
    obtain ⟨a, ha, rfl⟩ := List.mem_map.1 hb
    obtain ⟨tag, place⟩ := mem_blocksAll ha
    cases held : a.isHeld with
    | false =>
      have control := hasControl_settled tag held
      exact ⟨Placed.isHeld_of_hasControl control, .inl control⟩
    | true =>
      obtain ⟨there, -⟩ | ⟨own, mem, there, child⟩ := place
      · rw [Placed.isHeld, there] at held
        cases held
      · have container : isContainer own := by rwa [Placed.isHeld, there] at held
        rw [Placed.settled_held held, there]
        refine ⟨container, .inr ⟨own, mem, container, child, rfl, blockCount_covered container, ?_⟩⟩
        rw [buttonCount_covered container, buttonCount_eq_zero fresh mem]
  · rw [blocksAll_deep, settled] at hb
    rw [blocksAll_deep] at apart
    obtain ⟨c, hc, found⟩ := List.mem_flatMap.1 hb
    obtain ⟨a, ha, rfl⟩ := List.mem_map.1 hc
    obtain ⟨free, alone⟩ := apart a (List.mem_flatMap.2 ⟨a, ha, List.mem_cons_self⟩)
    obtain ⟨tag, -⟩ := mem_blocksAll ha
    rw [Placed.inner, a.block_settled, ← Placed.inner, alone, List.mem_singleton] at found
    rw [found]
    exact hasControl_settled tag free

/-- A block at the top, and one within a quotation. -/
def quotedBlock : List Node :=
  [.element "pre" .empty [.text "a"], .element "blockquote" .empty [.element "pre" .empty [.text "b"]]]

theorem hasControl_addCopyButtons_quotedBlock :
    (∀ e ∈ Node.elementsAll quotedBlock, isCopyButton e = false) ∧
      (blocksAll true none (addCopyButtons (.root quotedBlock)).1.children).length = 2 ∧
      ∀ b ∈ blocksAll true none (addCopyButtons (.root quotedBlock)).1.children, b.hasControl := by
  have fresh : ∀ e ∈ Node.elementsAll quotedBlock, isCopyButton e = false := by decide +kernel
  obtain ⟨-, -, all⟩ := hasControl_addCopyButtons quotedBlock fresh
  exact ⟨fresh, by decide +kernel, all (by decide +kernel)⟩

/-- A block in a container of the document's own. -/
def ownContainer : List Node :=
  [.element "div" (.ofList [("class", .tokens ["code-block"])]) [.element "pre" .empty [.text "a"]]]

/-- The container that has no button gets none. -/
theorem hasControl_addCopyButtons_ownContainer :
    (∀ e ∈ Node.elementsAll ownContainer, isCopyButton e = false) ∧
      (blocksAll true none (addCopyButtons (.root ownContainer)).1.children).map Placed.hasControl = [false] := by
  decide +kernel

end Folio.CodeBlock
