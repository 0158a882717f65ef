import Folio.CodeBlock.Copying
import Folio.Proofs.HeadingIds
import Folio.Proofs.Html.Anchors

/-!
# Blocks that can be copied

A container adds no text and no heading to a block, so it makes no difference to the ids of headings, to their links or
to the sections whether blocks get their containers before or after.
-/

namespace Folio.CodeBlock

open Html Heading Outline

/-- A node whose blocks stand in containers. -/
def wrapped (inside : Bool) (n : Node) : Node := (wrap inside n).1

theorem wrapAll_fst (inside : Bool) (ns : List Node) : (wrapAll inside ns).1 = ns.map (wrapped inside) := by
  induction ns with
  | nil => rfl
  | cons n ns ih => rw [wrapAll, List.map_cons, ih]; rfl

theorem addCopyButtons_fst (tree : Node) : (addCopyButtons tree).1 = withChildren (List.map (wrapped false)) tree := by
  cases tree <;> simp only [addCopyButtons, withChildren, wrapAll_fst]

variable {t : String} {p : Properties} {cs : List Node}

theorem wrapped_element (ht : t ≠ "pre") (inside : Bool) :
    wrapped inside (.element t p cs) = .element t p (cs.map (wrapped (isContainer ⟨t, p, cs⟩))) := by
  rw [wrapped, wrap, if_neg ht, ← wrapAll_fst]

theorem wrapped_pre : wrapped false (.element "pre" p cs) = container (.element "pre" p cs) := rfl

theorem wrapped_pre_inside : wrapped true (.element "pre" p cs) = .element "pre" p cs := rfl

theorem ne_pre_of_heading (h : (Element.headingLevel? ⟨t, p, cs⟩).isSome) : t ≠ "pre" := by
  rintro rfl
  cases h

theorem isContainer_heading (h : (Element.headingLevel? ⟨t, p, cs⟩).isSome) : isContainer ⟨t, p, cs⟩ = false := by
  have ht : t ≠ "div" := by
    rintro rfl
    cases h
  rw [isContainer, decide_eq_false ht, Bool.false_and]

theorem wrapped_heading {q : Properties} {ds : List Node} (h : (Element.headingLevel? ⟨t, q, ds⟩).isSome)
    (inside : Bool) : wrapped inside (.element t p cs) = .element t p (cs.map (wrapped false)) := by
  have h : (Element.headingLevel? ⟨t, p, cs⟩).isSome := h
  rw [wrapped_element (ne_pre_of_heading h), isContainer_heading h]

/-! ### What is seen through containers -/

section

variable {α : Type} {f : Node → List α}

theorem seen_container (hf : Node.SeesThrough f) (n : Node) : f (container n) = f n := by
  have path (p : Properties) : f (.element "path" p []) = [] := hf "path" p []
  have icon (i : Icon) (name : String) : f (i.toNode name) = [] := by
    rw [Icon.toNode, hf, List.flatMap_singleton, path]
  have button : f copyButton = [] := by
    rw [copyButton, hf, List.flatMap_cons, List.flatMap_singleton, icon, icon, List.append_nil]
  rw [container, hf, List.flatMap_cons, List.flatMap_singleton, button, List.append_nil]

mutual

theorem seen_wrapped (hf : Node.SeesThrough f) (inside : Bool) : (n : Node) → f (wrapped inside n) = f n
  | .text _ => rfl
  | .root _ => rfl
  | .element t p cs => by
    by_cases ht : t = "pre"
    · subst ht
      cases inside with
      | true => rfl
      | false => exact seen_container hf _
    · rw [wrapped_element ht, hf, hf, flatMap_wrapped hf _ cs]

theorem flatMap_wrapped (hf : Node.SeesThrough f) (inside : Bool) : (ns : List Node) →
    (ns.map (wrapped inside)).flatMap f = ns.flatMap f
  | [] => rfl
  | n :: ns => by
    rw [List.map_cons, List.flatMap_cons, seen_wrapped hf inside n, flatMap_wrapped hf inside ns, List.flatMap_cons]

end

end

theorem textsAll_wrapped (inside : Bool) (ns : List Node) :
    Node.textsAll (ns.map (wrapped inside)) = Node.textsAll ns := by
  rw [Node.textsAll_eq_flatMap, Node.textsAll_eq_flatMap, flatMap_wrapped Node.seesThrough_texts]

/-! ### Sections and links -/

theorem respects_wrapped : Respects (wrapped false) where
  level n := by
    cases n with
    | element t p cs =>
      by_cases ht : t = "pre"
      · subst ht
        rfl
      · rw [wrapped_element ht]
        rfl
    | _ => rfl
  tag n heading := by
    cases n with
    | element t p cs => rw [wrapped_heading heading]; rfl
    | _ => rfl
  inside p cs := by
    have container : isContainer ⟨"section", p, cs⟩ = false := rfl
    rw [wrapped_element (by decide), container]

theorem anchored_container (n : Node) : anchored (container n) = container (anchored n) := by
  have plain : Element.headingLevel? ⟨"div", .empty, []⟩ = none := rfl
  have button : anchored copyButton = copyButton := rfl
  rw [container, anchored_plain plain, List.map_cons, List.map_singleton, button]
  rfl

theorem linked_wrapped (cs : List Node) (id : Option String) :
    (linked cs id).map (wrapped false) = linked (cs.map (wrapped false)) id := by
  cases id with
  | none => rfl
  | some id =>
    rw [linked, List.map_singleton, wrapped_element (by decide)]
    rfl

mutual

theorem wrapped_anchored (inside : Bool) : (n : Node) → wrapped inside (anchored n) = anchored (wrapped inside n)
  | .text _ => rfl
  | .root _ => rfl
  | .element t p cs => by
    by_cases h : (Element.headingLevel? ⟨t, p, cs⟩).isSome
    · have below := map_wrapped_anchored false cs
      rw [anchored_element, wrapped_heading h, wrapped_heading h, anchored_element, linked_wrapped, below]
      rfl
    · have plain := Option.not_isSome_iff_eq_none.1 h
      rw [anchored_plain plain]
      by_cases ht : t = "pre"
      · subst ht
        cases inside with
        | true => rw [wrapped_pre_inside, wrapped_pre_inside, anchored_plain plain]
        | false => rw [wrapped_pre, wrapped_pre, anchored_container, anchored_plain plain]
      · have below := map_wrapped_anchored (isContainer ⟨t, p, cs⟩) cs
        rw [wrapped_element ht, wrapped_element ht, anchored_plain plain, ← below]
        rfl

/-- Blocks may get their containers before or after the headings link to themselves. -/
theorem map_wrapped_anchored (inside : Bool) : (ns : List Node) →
    (ns.map anchored).map (wrapped inside) = (ns.map (wrapped inside)).map anchored
  | [] => rfl
  | n :: ns => by
    simp only [List.map_cons]
    rw [wrapped_anchored inside n, map_wrapped_anchored inside ns]

end

/-! ### The ids of headings -/

mutual

theorem lastText?_wrapped (inside : Bool) : (n : Node) → lastText? (wrapped inside n) = lastText? n
  | .text _ => rfl
  | .root _ => rfl
  | .element t p cs => by
    by_cases ht : t = "pre"
    · subst ht
      cases inside <;> rfl
    · rw [wrapped_element ht, lastText?, lastTextAll?_wrapped _ cs, lastText?]

theorem lastTextAll?_wrapped (inside : Bool) : (ns : List Node) →
    lastTextAll? (ns.map (wrapped inside)) = lastTextAll? ns
  | [] => rfl
  | n :: ns => by
    rw [List.map_cons, lastTextAll?, lastText?_wrapped inside n, lastTextAll?_wrapped inside ns, lastTextAll?]

end

mutual

theorem setLastText_wrapped (inside : Bool) (s : String) : (n : Node) →
    setLastText s (wrapped inside n) = wrapped inside (setLastText s n)
  | .text _ => rfl
  | .root _ => rfl
  | .element t p cs => by
    by_cases ht : t = "pre"
    · subst ht
      cases inside <;> rfl
    · rw [wrapped_element ht, setLastText, setLastText, wrapped_element ht, setLastTextAll_wrapped _ s cs]
      rfl

theorem setLastTextAll_wrapped (inside : Bool) (s : String) : (ns : List Node) →
    setLastTextAll s (ns.map (wrapped inside)) = (setLastTextAll s ns).map (wrapped inside)
  | [] => rfl
  | n :: ns => by
    rw [List.map_cons, setLastTextAll, setLastTextAll, lastTextAll?_wrapped, setLastText_wrapped inside s n,
      setLastTextAll_wrapped inside s ns]
    split <;> rfl

end

theorem presentIds_container (n : Node) : presentIds [container n] = presentIds [n] := by
  have plain : ¬ (Element.headingLevel? ⟨"div", .empty, []⟩).isSome := by decide
  have button : presentIds [copyButton] = [] := rfl
  rw [container, presentIds_plain plain, presentIds_cons, button, List.append_nil]

mutual

theorem presentIds_wrapped (inside : Bool) : (n : Node) → presentIds [wrapped inside n] = presentIds [n]
  | .text _ => rfl
  | .root _ => rfl
  | .element t p cs => by
    by_cases h : (Element.headingLevel? ⟨t, p, cs⟩).isSome
    · rw [wrapped_heading h, presentIds_heading h, presentIds_heading h, presentIds_wrappedAll false cs]
      rfl
    · by_cases ht : t = "pre"
      · subst ht
        cases inside with
        | true => rfl
        | false => exact presentIds_container _
      · rw [wrapped_element ht, presentIds_plain h, presentIds_plain h, presentIds_wrappedAll _ cs]

theorem presentIds_wrappedAll (inside : Bool) : (ns : List Node) →
    presentIds (ns.map (wrapped inside)) = presentIds ns
  | [] => rfl
  | n :: ns => by
    rw [List.map_cons, presentIds_cons, presentIds_wrapped inside n, presentIds_wrappedAll inside ns, ← presentIds_cons]

end

theorem customId?_wrapped (inside : Bool) (cs : List Node) :
    customId? (cs.map (wrapped inside)) =
      (customId? cs).map fun found => (found.1, found.2.map (wrapped inside)) := by
  unfold customId?
  rw [lastTextAll?_wrapped]
  cases lastTextAll? cs with
  | none => rfl
  | some v =>
    dsimp only
    cases Slug.extractCustomId v with
    | mk rest found =>
      cases found with
      | none => rfl
      | some id => exact congrArg (fun ds => some (id, ds)) (setLastTextAll_wrapped inside rest cs)

theorem wish_wrapped (inside : Bool) : wish ⟨t, p, cs.map (wrapped inside)⟩ = wish ⟨t, p, cs⟩ := by
  have own : Element.id? ⟨t, p, cs.map (wrapped inside)⟩ = Element.id? ⟨t, p, cs⟩ := rfl
  unfold wish
  rw [own, customId?_wrapped, Element.textContent, textsAll_wrapped]
  cases Element.id? ⟨t, p, cs⟩ with
  | some id => rfl
  | none => cases customId? cs <;> rfl

theorem content_wrapped (inside : Bool) :
    content ⟨t, p, cs.map (wrapped inside)⟩ = (content ⟨t, p, cs⟩).map (wrapped inside) := by
  have own : Element.id? ⟨t, p, cs.map (wrapped inside)⟩ = Element.id? ⟨t, p, cs⟩ := rfl
  unfold content identify
  rw [own, customId?_wrapped]
  cases Element.id? ⟨t, p, cs⟩ with
  | some id => rfl
  | none => cases customId? cs <;> rfl

/-- What has been found in a forest, the blocks of the forest in containers. -/
def wrappedIn (inside : Bool) (a : Assigned) : Assigned := { a with nodes := a.nodes.map (wrapped inside) }

/-- A forest without headings stays as it is. -/
theorem assignAll_of_plain {forest : List Node} (plain : ∀ e ∈ Node.elementsAll forest, e.headingLevel? = none)
    (s : Slugger) : assignAll s forest = ⟨forest, [], s⟩ := by
  induction forest using wishes.induct generalizing s with
  | case1 => rw [assignAll]
  | case2 t p cs ns h ih₁ ih₂ =>
    have first := plain ⟨t, p, cs⟩ List.mem_cons_self
    rw [first] at h
    cases h
  | case3 t p cs ns h ih₁ ih₂ =>
    simp only [Node.elementsAll, Node.elements, List.cons_append, List.forall_mem_cons, List.forall_mem_append] at plain
    obtain ⟨first, below, after⟩ := plain
    rw [assignAll_plain first, ih₁ below]
    dsimp only
    rw [ih₂ after]
    rfl
  | case4 cs ns ih => rw [assignAll_root, ih plain]
  | case5 v ns ih => rw [assignAll_text, ih plain]

theorem assignAll_append (s : Slugger) (ns ms : List Node) :
    assignAll s (ns ++ ms) =
      let first := assignAll s ns
      let after := assignAll first.slugger ms
      ⟨first.nodes ++ after.nodes, first.entries ++ after.entries, after.slugger⟩ := by
  induction ns using wishes.induct generalizing s with
  | case1 => rw [assignAll]; rfl
  | case2 t p cs ns h _ ih =>
    obtain ⟨depth, hd⟩ := Option.isSome_iff_exists.1 h
    rw [List.cons_append, assignAll_heading hd, assignAll_heading hd]
    simp only [ih, List.cons_append, List.append_assoc]
  | case3 t p cs ns h _ ih =>
    have plain := Option.not_isSome_iff_eq_none.1 h
    rw [List.cons_append, assignAll_plain plain, assignAll_plain plain]
    simp only [ih, List.cons_append, List.append_assoc]
  | case4 cs ns ih => rw [List.cons_append, assignAll_root, assignAll_root, ih]; rfl
  | case5 v ns ih => rw [List.cons_append, assignAll_text, assignAll_text, ih]; rfl

theorem assignAll_container (s : Slugger) (n m : Node) (slugger : Slugger) (entries : List Entry)
    (h : assignAll s [n] = ⟨[m], entries, slugger⟩) :
    assignAll s [container n] = ⟨[container m], entries, slugger⟩ := by
  have plain : Element.headingLevel?
      ⟨"div", .ofList [("class", .tokens [containerClass])], [n, copyButton]⟩ = none := rfl
  have button : assignAll slugger [copyButton] = ⟨[copyButton], [], slugger⟩ := assignAll_of_plain (by decide) slugger
  have nothing : assignAll slugger [] = ⟨[], [], slugger⟩ := assignAll_of_plain (by decide) slugger
  have inside := assignAll_append s [n] [copyButton]
  rw [List.singleton_append, h] at inside
  dsimp only at inside
  rw [button] at inside
  rw [container, assignAll_plain plain, inside]
  dsimp only
  rw [nothing]
  simp only [List.append_nil]
  rfl

/-- Blocks may get their containers before or after the headings get their ids. -/
theorem assignAll_wrapped (s : Slugger) (inside : Bool) (forest : List Node) :
    assignAll s (forest.map (wrapped inside)) = wrappedIn inside (assignAll s forest) := by
  -- `inside` varies on the way down: a heading ends a container
  induction forest using wishes.induct generalizing s inside with
  | case1 => rw [List.map_nil, assignAll]; rfl
  | case2 t p cs ns h ih₁ ih₂ =>
    obtain ⟨depth, hd⟩ := Option.isSome_iff_exists.1 h
    have hd' : Element.headingLevel? ⟨t, p, cs.map (wrapped false)⟩ = some depth := hd
    rw [List.map_cons, wrapped_heading h, assignAll_heading hd', assignAll_heading hd]
    simp only [wish_wrapped, content_wrapped, ih₁, ih₂, textsAll_wrapped, wrappedIn, List.map_cons]
    rw [wrapped_heading h]
    rfl
  | case3 t p cs ns h ih₁ ih₂ =>
    have plain := Option.not_isSome_iff_eq_none.1 h
    rw [List.map_cons, assignAll_plain plain]
    by_cases ht : t = "pre"
    · subst ht
      have block : assignAll s [.element "pre" p cs] =
          ⟨[.element "pre" p (assignAll s cs).nodes], (assignAll s cs).entries, (assignAll s cs).slugger⟩ := by
        rw [assignAll_plain plain]
        dsimp only
        rw [assignAll]
        simp only [List.append_nil]
      have first : assignAll s [wrapped inside (.element "pre" p cs)] =
          ⟨[wrapped inside (.element "pre" p (assignAll s cs).nodes)], (assignAll s cs).entries,
            (assignAll s cs).slugger⟩ := by
        cases inside with
        | true => exact block
        | false => exact assignAll_container _ _ _ _ _ block
      rw [← List.singleton_append, assignAll_append, first]
      simp only [ih₂]
      rfl
    · have plain' : Element.headingLevel? ⟨t, p, cs.map (wrapped (isContainer ⟨t, p, cs⟩))⟩ = none := plain
      rw [wrapped_element ht, assignAll_plain plain']
      simp only [ih₁, ih₂, wrappedIn, List.map_cons]
      rw [wrapped_element ht]
      rfl
  | case4 cs ns ih =>
    have root : wrapped inside (.root cs) = .root cs := rfl
    rw [List.map_cons, root, assignAll_root, assignAll_root, ih]
    rfl
  | case5 v ns ih =>
    have text : wrapped inside (.text v) = .text v := rfl
    rw [List.map_cons, text, assignAll_text, assignAll_text, ih]
    rfl

end Folio.CodeBlock
