import Folio.Proofs.Highlighting
import Folio.Proofs.Html.Copying

/-!
# Blocks and headings

Giving ids to headings and making them links changes no block of code, as long as no block stands in a heading and each
holds nothing but a text (`blockElements_headings`). Without the first condition an id at the end of a heading could be
taken off the code of a block, and without the second a heading within a block would change its text.
-/

namespace Folio.CodeBlock

open Html

/-- The blocks of a forest that are reached through elements, in document order. -/
def blockElements (forest : List Node) : List Element := (Node.elementsAll forest).filter fun e => e.tag = "pre"

variable {t : String} {p : Properties} {n : Node} {ns ms cs : List Node}

theorem blockElements_append (ns ms : List Node) : blockElements (ns ++ ms) = blockElements ns ++ blockElements ms := by
  rw [blockElements, Node.elementsAll_append, List.filter_append]
  rfl

theorem blockElements_cons (n : Node) (ns : List Node) :
    blockElements (n :: ns) = blockElements [n] ++ blockElements ns := blockElements_append [n] ns

theorem blockElements_pre (p : Properties) (cs : List Node) :
    blockElements [.element "pre" p cs] = ⟨"pre", p, cs⟩ :: blockElements cs := by
  rw [blockElements, Node.elementsAll, Node.elements, Node.elementsAll, List.append_nil,
    List.filter_cons_of_pos (by rfl)]
  rfl

theorem blockElements_element (ht : t ≠ "pre") (p : Properties) (cs : List Node) :
    blockElements [.element t p cs] = blockElements cs := by
  rw [blockElements, Node.elementsAll, Node.elements, Node.elementsAll, List.append_nil,
    List.filter_cons_of_neg (by simpa using ht)]
  rfl

theorem blockElements_eq_nil_iff : blockElements ns = [] ↔ "pre" ∉ (Node.elementsAll ns).map (·.tag) := by
  simp [blockElements, List.filter_eq_nil_iff]

mutual

theorem elements_subset_of_mem {e : Element} : (n : Node) → e ∈ Node.elements n →
    Node.elementsAll e.children ⊆ Node.elements n
  | .element t p cs, h => by
    rcases List.mem_cons.1 h with rfl | h
    · exact List.subset_cons_self _ _
    · exact List.Subset.trans (elementsAll_subset_of_mem cs h) (List.subset_cons_self _ _)

/-- What stands in an element of a forest stands in the forest. -/
theorem elementsAll_subset_of_mem {e : Element} : (ns : List Node) → e ∈ Node.elementsAll ns →
    Node.elementsAll e.children ⊆ Node.elementsAll ns
  | n :: ns, h => by
    rcases List.mem_append.1 h with h | h
    · exact List.subset_append_of_subset_left _ (elements_subset_of_mem n h)
    · exact List.subset_append_of_subset_right _ (elementsAll_subset_of_mem ns h)

end

theorem blockElements_children_eq_nil {e : Element} (he : e ∈ Node.elementsAll ns) (h : blockElements ns = []) :
    blockElements e.children = [] := by
  rw [blockElements_eq_nil_iff] at h ⊢
  exact fun pre => h (List.map_subset _ (elementsAll_subset_of_mem ns he) pre)

/-- The calls for a forest are made for its blocks. -/
theorem calls_eq_filterMap (forest : List Node) :
    calls forest = (blockElements forest).filterMap fun e => call? e.children := by
  rw [calls, blockElements, List.filterMap_filter]
  exact List.filterMap_congr fun e _ => by simp [blockCall?]

/-! ### Tidy forests -/

/-- A block that holds one text. -/
def IsSimple (e : Element) : Prop := ∃ q v, e.children = [.element "code" q [.text v]]

/-- The blocks of a forest hold one text each. -/
def AllSimple (forest : List Node) : Prop := ∀ e ∈ blockElements forest, IsSimple e

namespace AllSimple

theorem append_iff : AllSimple (ns ++ ms) ↔ AllSimple ns ∧ AllSimple ms := by
  rw [AllSimple, blockElements_append]
  exact List.forall_mem_append

theorem cons_iff : AllSimple (n :: ns) ↔ AllSimple [n] ∧ AllSimple ns := by rw [← List.singleton_append, append_iff]

theorem below (h : AllSimple [.element t p cs]) : AllSimple cs := by
  intro e he
  refine h e ?_
  by_cases ht : t = "pre"
  · rw [ht, blockElements_pre]
    exact List.mem_cons_of_mem _ he
  · rwa [blockElements_element ht]

theorem self (h : AllSimple [.element "pre" p cs]) : ∃ q v, cs = [.element "code" q [.text v]] := by
  refine h ⟨"pre", p, cs⟩ ?_
  rw [blockElements_pre]
  exact List.mem_cons_self

/-- Blocks that hold one text each do not stand within one another. -/
theorem isApart (h : AllSimple ns) : IsApart ns := by
  intro e he pre d hd
  obtain ⟨q, v, children⟩ := h e (List.mem_filter.2 ⟨he, decide_eq_true pre⟩)
  rw [children] at hd
  obtain rfl := List.mem_singleton.1 hd
  exact (by decide : "code" ≠ "pre")

end AllSimple

/-- The blocks of a forest hold one text each, and no block stands in a heading. -/
structure IsTidy (forest : List Node) : Prop where
  simple : AllSimple forest
  outside : ∀ e ∈ Node.elementsAll forest, e.headingLevel?.isSome → blockElements e.children = []

namespace IsTidy

theorem cons_iff : IsTidy (n :: ns) ↔ IsTidy [n] ∧ IsTidy ns := by
  constructor
  · rintro ⟨simple, outside⟩
    rw [AllSimple.cons_iff] at simple
    rw [← List.singleton_append, Node.elementsAll_append, List.forall_mem_append] at outside
    exact ⟨⟨simple.1, outside.1⟩, ⟨simple.2, outside.2⟩⟩
  · rintro ⟨first, rest⟩
    refine ⟨AllSimple.cons_iff.2 ⟨first.simple, rest.simple⟩, ?_⟩
    rw [← List.singleton_append, Node.elementsAll_append]
    exact List.forall_mem_append.2 ⟨first.outside, rest.outside⟩

/-- What stands in an element of a tidy forest is tidy. -/
theorem below (h : IsTidy [.element t p cs]) : IsTidy cs where
  simple := h.simple.below
  outside e he := h.outside e (List.mem_append_left _ (List.mem_cons_of_mem _ he))

theorem outside_self (h : IsTidy [.element t p cs]) (heading : (Element.headingLevel? ⟨t, p, cs⟩).isSome) :
    blockElements cs = [] :=
  h.outside ⟨t, p, cs⟩ List.mem_cons_self heading

end IsTidy

end Folio.CodeBlock

namespace Folio.Heading

open Html CodeBlock

/-! ### Ids -/

/-- The tags of a forest. -/
theorem seesNoText_tags : SeesNoText fun ns => (Node.elementsAll ns).map (·.tag) where
  text _ _ := rfl
  element t p {cs ds} same := by
    simp only [Node.elementsAll, Node.elements, List.append_nil, List.map_cons, same]
  cons {n m ns ms} first rest := by
    simp only [Node.elementsAll, List.append_nil, List.map_append] at first rest ⊢
    rw [first, rest]

/-- Giving ids to headings changes no tag. -/
theorem tags_assignAll (s : Slugger) (forest : List Node) :
    (Node.elementsAll (assignAll s forest).nodes).map (·.tag) = (Node.elementsAll forest).map (·.tag) :=
  seesNoText_tags.assignAll (fun _ _ _ _ => rfl) s forest

/-- Giving ids to headings changes no block of a tidy forest. -/
theorem blockElements_assignAll (s : Slugger) (forest : List Node) (tidy : IsTidy forest) :
    blockElements (assignAll s forest).nodes = blockElements forest := by
  induction forest using wishes.induct generalizing s with
  | case1 => rw [assignAll]
  | case2 t p cs ns h ih₁ ih₂ =>
    obtain ⟨first, rest⟩ := IsTidy.cons_iff.1 tidy
    obtain ⟨depth, hd⟩ := Option.isSome_iff_exists.1 h
    have ht := ne_pre_of_heading h
    -- no block stands in the heading, and none comes into it
    have before := first.outside_self h
    have after : blockElements (assignAll ((wish ⟨t, p, cs⟩).grant s).2 (content ⟨t, p, cs⟩)).nodes = [] := by
      rw [blockElements_eq_nil_iff, tags_assignAll, seesNoText_tags.content, ← blockElements_eq_nil_iff]
      exact before
    rw [assignAll_heading hd, blockElements_cons, blockElements_cons (.element t p cs), blockElements_element ht,
      blockElements_element ht, after, before, ih₂ _ rest]
  | case3 t p cs ns h ih₁ ih₂ =>
    obtain ⟨first, rest⟩ := IsTidy.cons_iff.1 tidy
    rw [assignAll_plain (Option.not_isSome_iff_eq_none.1 h), blockElements_cons, blockElements_cons (.element t p cs),
      ih₂ _ rest]
    congr 1
    by_cases ht : t = "pre"
    · subst ht
      obtain ⟨q, v, rfl⟩ := first.simple.self
      have code : Element.headingLevel? ⟨"code", q, [.text v]⟩ = none := rfl
      have same : (assignAll s [.element "code" q [.text v]]).nodes = [.element "code" q [.text v]] := by
        rw [assignAll_plain code, assignAll_text]
        simp only [assignAll]
      rw [same]
    · rw [blockElements_element ht, blockElements_element ht, ih₁ _ first.below]
  | case4 cs ns ih =>
    rw [assignAll_root, blockElements_cons, ih _ (IsTidy.cons_iff.1 tidy).2, ← blockElements_cons]
  | case5 v ns ih =>
    rw [assignAll_text, blockElements_cons, ih _ (IsTidy.cons_iff.1 tidy).2, ← blockElements_cons]

/-! ### Links -/

theorem blockElements_linked (cs : List Node) (id : Option String) :
    blockElements (linked cs id) = blockElements cs := by
  cases id with
  | none => rfl
  | some id => exact blockElements_element (by decide) _ _

mutual

theorem blockElements_anchored : (n : Node) → AllSimple [n] → blockElements [anchored n] = blockElements [n]
  | .text _, _ => rfl
  | .root _, _ => rfl
  | .element t p cs, simple => by
    by_cases ht : t = "pre"
    · subst ht
      obtain ⟨q, v, rfl⟩ := simple.self
      rfl
    · rw [anchored_element, blockElements_element ht, blockElements_element ht, blockElements_linked,
        blockElements_anchoredAll cs simple.below]

/-- Making headings links changes no block if each holds one text. -/
theorem blockElements_anchoredAll : (ns : List Node) → AllSimple ns →
    blockElements (ns.map anchored) = blockElements ns
  | [], _ => rfl
  | n :: ns, simple => by
    obtain ⟨first, rest⟩ := AllSimple.cons_iff.1 simple
    rw [List.map_cons, blockElements_cons, blockElements_anchored n first, blockElements_anchoredAll ns rest,
      ← blockElements_cons]

end

/-- The steps that give ids to headings and make them links change no block of a tidy forest. -/
theorem blockElements_headings {forest : List Node} (tidy : IsTidy forest) :
    blockElements (injectAnchors (assign (.root forest)).1).1.children = blockElements forest := by
  have assigned (s : Slugger) := blockElements_assignAll s forest tidy
  rw [injectAnchors_fst, assign]
  dsimp only [withChildren, Node.children]
  rw [blockElements_anchoredAll, assigned]
  rw [AllSimple, assigned]
  exact tidy.simple

end Folio.Heading
