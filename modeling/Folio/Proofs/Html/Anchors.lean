import Folio.Heading
import Folio.Proofs.Html.Outline

/-!
# Headings that link to themselves

The links go around what the headings hold: they add no text, and they may be made before sections are nested or after.
-/

namespace Folio.Heading

open Html Outline

/-- A node whose headings link to themselves. -/
def anchored (n : Node) : Node := (anchor n).1

/-- The content of a heading that links to an id, if it does. -/
def linked (cs : List Node) : Option String → List Node
  | some id => [.element "a" (.ofList [("href", .text ("#" ++ id))]) cs]
  | none => cs

theorem anchorAll_fst (ns : List Node) : (anchorAll ns).1 = ns.map anchored := by
  induction ns with
  | nil => rfl
  | cons n ns ih => rw [anchorAll, List.map_cons, ih]; rfl

theorem injectAnchors_fst (tree : Node) : (injectAnchors tree).1 = withChildren (List.map anchored) tree := by
  cases tree <;> simp only [injectAnchors, withChildren, anchorAll_fst]

theorem anchored_element (t : String) (p : Properties) (cs : List Node) :
    anchored (.element t p cs) = .element t p (linked (cs.map anchored) (anchorId? ⟨t, p, cs⟩)) := by
  rw [anchored, anchor, ← anchorAll_fst]
  cases anchorId? ⟨t, p, cs⟩ <;> rfl

theorem anchored_plain {t : String} {p q : Properties} {cs ds : List Node}
    (plain : Element.headingLevel? ⟨t, q, ds⟩ = none) :
    anchored (.element t p cs) = .element t p (cs.map anchored) := by
  have plain : Element.headingLevel? ⟨t, p, cs⟩ = none := plain
  rw [anchored_element, anchorId?, plain]
  rfl

section

variable {α : Type} {f : Node → List α}

theorem flatMap_linked (hf : Node.SeesThrough f) (cs : List Node) (id : Option String) :
    (linked cs id).flatMap f = cs.flatMap f := by
  cases id with
  | none => rfl
  | some id => rw [linked, List.flatMap_singleton, hf]

mutual

theorem seen_anchored (hf : Node.SeesThrough f) : (n : Node) → f (anchored n) = f n
  | .text _ => rfl
  | .root _ => rfl
  | .element t p cs => by rw [anchored_element, hf, hf, flatMap_linked hf, flatMap_anchored hf cs]

theorem flatMap_anchored (hf : Node.SeesThrough f) : (ns : List Node) → (ns.map anchored).flatMap f = ns.flatMap f
  | [] => rfl
  | n :: ns => by
    rw [List.map_cons, List.flatMap_cons, seen_anchored hf n, flatMap_anchored hf ns, List.flatMap_cons]

end

end

theorem textsAll_linked (cs : List Node) (id : Option String) : Node.textsAll (linked cs id) = Node.textsAll cs := by
  rw [Node.textsAll_eq_flatMap, Node.textsAll_eq_flatMap, flatMap_linked Node.seesThrough_texts]

theorem textsAll_anchored (ns : List Node) : Node.textsAll (ns.map anchored) = Node.textsAll ns := by
  rw [Node.textsAll_eq_flatMap, Node.textsAll_eq_flatMap, flatMap_anchored Node.seesThrough_texts]

theorem respects_anchored : Respects anchored where
  level n := by
    cases n with
    | element t p cs => rw [anchored_element]; rfl
    | _ => rfl
  tag n _ := by
    cases n with
    | element t p cs => rw [anchored_element]; rfl
    | _ => rfl
  inside p cs := by
    have plain : Element.headingLevel? ⟨"section", p, cs⟩ = none := rfl
    exact anchored_plain plain

end Folio.Heading
