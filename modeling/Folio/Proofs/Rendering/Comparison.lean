import Folio.Proofs.Html.Forest
import Folio.Proofs.Rendering

/-!
# Comparing two pages

Two renderings that go side by side give forests that are put together in the same way from pieces. A `Verdict` says of
each piece whether it is the same in both, differs but has as many elements, or has one element more in the second one.
Elements are never lost, so forests of one size have no piece of the last kind, and such forests are equal exactly if no
piece differs (`Alike.eq_iff`).
-/

namespace Folio.Rendering

open Html

/-- How a piece of the second page differs from that of the first one. -/
inductive Verdict where
  | same
  | changed
  | grown
deriving DecidableEq, Repr

/-- The number of elements of a forest. -/
def elementCount (ns : List Html.Node) : Nat := (Node.elementsAll ns).length

@[simp] theorem elementCount_nil : elementCount [] = 0 := rfl

@[simp] theorem elementCount_text (s : String) : elementCount [.text s] = 0 := rfl

@[simp] theorem elementCount_append (ns ms : List Html.Node) :
    elementCount (ns ++ ms) = elementCount ns + elementCount ms := by
  rw [elementCount, Node.elementsAll_append, List.length_append]
  rfl

theorem elementCount_cons (n : Html.Node) (ns : List Html.Node) :
    elementCount (n :: ns) = elementCount [n] + elementCount ns := elementCount_append [n] ns

@[simp] theorem elementCount_node (tag : String) (p : Properties) (ns : List Html.Node) :
    elementCount [.element tag p ns] = elementCount ns + 1 := by
  rw [elementCount, Node.elementsAll, Node.elements, Node.elementsAll, List.append_nil, List.length_cons]
  rfl

@[simp] theorem elementCount_element (tag : String) (es : List (String × PropertyValue)) (ns : List Html.Node) :
    elementCount [element tag es ns] = elementCount ns + 1 := elementCount_node ..

theorem element_inj {tag : String} {es : List (String × PropertyValue)} {ns ms : List Html.Node} :
    element tag es ns = element tag es ms ↔ ns = ms := by
  simp [element]

/-- Two forests that are put together from pieces of some verdicts. -/
structure Alike (vs : List Verdict) (ns ms : List Html.Node) : Prop where
  /-- A piece that has grown has one element more. -/
  count : elementCount ms = elementCount ns + vs.count .grown
  /-- If no piece has grown, the forests are equal exactly if no piece has changed. -/
  shape : .grown ∉ vs → ms.length = ns.length ∧ (ns = ms ↔ ∀ v ∈ vs, v = .same)

namespace Alike

variable {vs ws : List Verdict} {ns ms ns' ms' : List Html.Node} {tag : String}
  {es es' : List (String × PropertyValue)}

theorem eq_iff (h : Alike vs ns ms) : ns = ms ↔ ∀ v ∈ vs, v = .same := by
  constructor
  · intro eq
    have count := h.count
    -- Equal forests have as many elements, so no piece has grown.
    have none : .grown ∉ vs := by
      rw [← List.count_eq_zero, ← Nat.add_left_cancel_iff (n := elementCount ns), ← count, eq]
      rfl
    exact (h.shape none).2.1 eq
  · intro same
    exact (h.shape fun mem => Verdict.noConfusion (same _ mem)).2.2 same

theorem nil : Alike [] [] [] := ⟨rfl, fun _ => ⟨rfl, by simp⟩⟩

theorem append (h : Alike vs ns ms) (h' : Alike ws ns' ms') : Alike (vs ++ ws) (ns ++ ns') (ms ++ ms') where
  count := by
    rw [elementCount_append, elementCount_append, h.count, h'.count, List.count_append]
    omega
  shape none := by
    rw [List.mem_append, not_or] at none
    obtain ⟨length, eq⟩ := h.shape none.1
    obtain ⟨length', eq'⟩ := h'.shape none.2
    refine ⟨by rw [List.length_append, List.length_append, length, length'], ?_⟩
    rw [List.forall_mem_append, ← eq, ← eq']
    exact ⟨fun both => List.append_inj both length.symm, fun both => by rw [both.1, both.2]⟩

/-- What is the same in both may be told or not. -/
theorem same_cons_iff : Alike (.same :: vs) ns ms ↔ Alike vs ns ms := by
  have count : (Verdict.same :: vs).count .grown = vs.count .grown := List.count_cons_of_ne (by decide)
  have mem : .grown ∈ Verdict.same :: vs ↔ .grown ∈ vs := by simp
  have all : (∀ v ∈ Verdict.same :: vs, v = .same) ↔ ∀ v ∈ vs, v = .same := by simp
  constructor
  · intro h
    exact ⟨count ▸ h.count, fun none => (h.shape (mt mem.1 none)).imp_right (·.trans all)⟩
  · intro h
    exact ⟨count ▸ h.count, fun none => (h.shape (mt mem.2 none)).imp_right (·.trans all.symm)⟩

theorem refl (ns : List Html.Node) : Alike [.same] ns ns :=
  same_cons_iff.2 ⟨rfl, fun _ => ⟨rfl, by simp⟩⟩

/-- The same may be done to both, if it adds as many elements to each and keeps them apart. -/
theorem map (h : Alike vs ns ms) (f : List Html.Node → List Html.Node)
    (count : elementCount (f ms) + elementCount ns = elementCount (f ns) + elementCount ms)
    (length : ms.length = ns.length → (f ms).length = (f ns).length) (inj : f ns = f ms → ns = ms) :
    Alike vs (f ns) (f ms) where
  count := by
    have := h.count
    omega
  shape none := by
    obtain ⟨len, eq⟩ := h.shape none
    exact ⟨length len, Iff.trans ⟨inj, congrArg f⟩ eq⟩

theorem element (h : Alike vs ns ms) : Alike vs [element tag es ns] [Rendering.element tag es ms] := by
  refine h.map (fun ns => [Rendering.element tag es ns]) ?_ (fun _ => rfl) fun eq => element_inj.1 (List.cons.inj eq).1
  simp only [elementCount_element]
  omega

/-- In the second page the piece has an element of its own. -/
theorem grown (h : Alike vs ns ms) : Alike (.grown :: vs) ns [Rendering.element tag es ms] where
  count := by
    rw [elementCount_element, h.count, List.count_cons_self]
    omega
  shape none := absurd List.mem_cons_self none

theorem grown_leaf (s : String) : Alike [.grown] [.text s] [Rendering.element tag es []] where
  count := by rw [elementCount_element, elementCount_text, List.count_cons_self]; rfl
  shape none := absurd List.mem_cons_self none

/-- In the second page the element of the piece has other properties. -/
theorem changed (h : Alike vs ns ms) (ne : Properties.ofList es ≠ Properties.ofList es') :
    Alike (.changed :: vs) [Rendering.element tag es ns] [Rendering.element tag es' ms] where
  count := by
    rw [elementCount_element, elementCount_element, h.count, List.count_cons_of_ne (by decide)]
    omega
  shape _ := by
    refine ⟨rfl, ?_⟩
    simp [Rendering.element, ne]

end Alike

/-! ### Tables -/

theorem table_inj {headed : Bool} {rows rows' : List Html.Node} (h : table headed rows = table headed rows') :
    rows = rows' := by
  have tbody {ns ms : List Html.Node} (h : (if ns.isEmpty then [] else [element "tbody" [] ns]) =
      if ms.isEmpty then [] else [element "tbody" [] ms]) : ns = ms := by
    cases ns with
    | nil => cases ms with
      | nil => rfl
      | cons m ms => simp at h
    | cons n ns => cases ms with
      | nil => simp at h
      | cons m ms => exact element_inj.1 (List.cons.inj h).1
  have parts := element_inj.1 h
  cases headed with
  | false => exact tbody parts
  | true =>
    obtain ⟨head, body⟩ := List.cons.inj parts
    have first : rows.take 1 = rows'.take 1 := element_inj.1 head
    have rest : rows.drop 1 = rows'.drop 1 := tbody body
    rw [← List.take_append_drop 1 rows, first, rest, List.take_append_drop]

theorem elementCount_table (headed : Bool) (rows : List Html.Node) :
    elementCount [table headed rows] = elementCount rows + 1 + (if headed then 1 else 0) +
      if rows.length ≤ (if headed then 1 else 0) then 0 else 1 := by
  have tbody (ns : List Html.Node) : elementCount (if ns.isEmpty then [] else [element "tbody" [] ns]) =
      elementCount ns + if ns.length = 0 then 0 else 1 := by
    cases ns with
    | nil => rfl
    | cons n ns => exact elementCount_element ..
  rw [table, elementCount_element, elementCount_append, tbody]
  cases headed with
  | false =>
    simp only [Bool.false_eq_true, if_false, Nat.le_zero, elementCount_nil]
    omega
  | true =>
    have whole : elementCount (rows.take 1) + elementCount (rows.drop 1) = elementCount rows := by
      rw [← elementCount_append, List.take_append_drop]
    simp only [if_true, elementCount_element, List.length_drop, Nat.sub_eq_zero_iff_le]
    omega

theorem Alike.table {vs : List Verdict} {headed : Bool} {rows rows' : List Html.Node} (h : Alike vs rows rows')
    (length : rows'.length = rows.length) : Alike vs [table headed rows] [Rendering.table headed rows'] := by
  refine h.map (fun rows => [Rendering.table headed rows]) ?_ (fun _ => rfl) fun eq => table_inj (List.cons.inj eq).1
  simp only [elementCount_table, length]
  omega

/-! ### Footnotes -/

theorem addBackLinks_paragraph (ls before cs : List Html.Node) (p : Properties) :
    addBackLinks ls (before ++ [.element "p" p cs]) =
      before ++ [.element "p" p (cs ++ ls.flatMap fun l => [.text " ", l])] := by
  simp [addBackLinks]

/-- The content ends with a paragraph. -/
def endsInParagraph (content : List Html.Node) : Prop := ∃ before p cs, content = before ++ [.element "p" p cs]

theorem addBackLinks_of_not (ls : List Html.Node) {content : List Html.Node} (h : ¬ endsInParagraph content) :
    addBackLinks ls content = content ++ ls := by
  unfold addBackLinks
  split
  · rename_i tag p cs last
    obtain ⟨before, rfl⟩ := List.getLast?_eq_some_iff.1 last
    rw [if_neg]
    rintro rfl
    exact h ⟨before, p, cs, rfl⟩
  · rfl

theorem elementCount_addBackLinks (ls content : List Html.Node) :
    elementCount (addBackLinks ls content) = elementCount content + elementCount ls := by
  by_cases h : endsInParagraph content
  · obtain ⟨before, p, cs, rfl⟩ := h
    have spaced (ls : List Html.Node) : elementCount (ls.flatMap fun l => [.text " ", l]) = elementCount ls := by
      induction ls with
      | nil => rfl
      | cons l ls ih =>
        rw [List.flatMap_cons, elementCount_append, ih, elementCount_cons, elementCount_text, Nat.zero_add,
          elementCount_cons l ls]
    rw [addBackLinks_paragraph]
    simp only [elementCount_append, elementCount_node, spaced]
    omega
  · rw [addBackLinks_of_not ls h, elementCount_append]

theorem addBackLinks_inj {ls content content' : List Html.Node} (plain : ∀ l ∈ ls, ∀ p cs, l ≠ .element "p" p cs)
    (h : addBackLinks ls content = addBackLinks ls content') : content = content' := by
  -- Links that are put behind the content do not make it end in a paragraph.
  have apart {content content' : List Html.Node} (ends : endsInParagraph content) (not : ¬ endsInParagraph content') :
      addBackLinks ls content ≠ addBackLinks ls content' := by
    obtain ⟨before, p, cs, rfl⟩ := ends
    rw [addBackLinks_paragraph, addBackLinks_of_not ls not]
    intro eq
    rcases List.eq_nil_or_concat ls with rfl | ⟨front, l, rfl⟩
    · exact not ⟨before, p, _, (eq.trans (List.append_nil _)).symm⟩
    · rw [List.concat_eq_append, ← List.append_assoc] at eq
      have last := List.cons.inj (List.append_inj' eq rfl).2
      exact plain l (by simp) _ _ last.1.symm
  by_cases ends : endsInParagraph content <;> by_cases ends' : endsInParagraph content'
  · obtain ⟨before, p, cs, rfl⟩ := ends
    obtain ⟨before', p', cs', rfl⟩ := ends'
    rw [addBackLinks_paragraph, addBackLinks_paragraph] at h
    obtain ⟨front, last⟩ := List.append_inj' h rfl
    have children := (List.cons.inj last).1
    simp only [Node.element.injEq, true_and, List.append_cancel_right_eq] at children
    rw [front, children.1, children.2]
  · exact absurd h (apart ends ends')
  · exact absurd h.symm (apart ends' ends)
  · rw [addBackLinks_of_not ls ends, addBackLinks_of_not ls ends'] at h
    exact List.append_cancel_right h

theorem Alike.footnoteItem {vs : List Verdict} {note note' : Context.Footnote} {ns ms : List Html.Node}
    (h : Alike vs ns ms) (identifier : note'.identifier = note.identifier)
    (references : note'.references = note.references) :
    Alike vs [footnoteItem note ns] [Rendering.footnoteItem note' ms] := by
  have plain : ∀ l ∈ (List.range note.references).map fun i => backLink (footnoteId note.identifier) (i + 1),
      ∀ p cs, l ≠ .element "p" p cs := by
    intro l hl p cs eq
    obtain ⟨i, -, rfl⟩ := List.mem_map.1 hl
    have tag := congrArg (fun n : Html.Node => n.element?.map (·.tag)) eq
    simp [backLink, Rendering.element, Node.element?] at tag
  have same : Rendering.footnoteItem note' ms = Rendering.footnoteItem note ms := by
    unfold Rendering.footnoteItem
    rw [identifier, references]
  rw [same]
  refine h.map (fun ns => [Rendering.footnoteItem note ns]) ?_ (fun _ => rfl) fun eq => ?_
  · simp only [Rendering.footnoteItem, elementCount_element, elementCount_addBackLinks]
    omega
  · exact addBackLinks_inj plain (element_inj.1 (List.cons.inj eq).1)

end Folio.Rendering
