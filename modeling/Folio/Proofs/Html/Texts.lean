import Folio.Proofs.Html.Copying
import Folio.Proofs.Html.Steps

/-!
# The texts of a document

The steps behind the rendering keep the texts of a document in order. Only the step that gives ids to headings changes
texts: where a heading without an id ends in one, it is taken off. `ends` says where that may be, counted in texts.
-/

namespace Folio.Heading

open Html CodeBlock

/-! ### Where headings end -/

mutual

/-- The place of the last text of a node that is reached through elements, among the texts of the node. -/
def lastAt? : Node → Option Nat
  | .text _ => some 0
  | .element _ _ cs => lastAtAll? cs
  | .root _ => none

/-- The place of the last text of a forest that is reached through elements, among the texts of the forest. -/
def lastAtAll? : List Node → Option Nat
  | [] => none
  | n :: ns => ((lastAtAll? ns).map (n.texts.length + ·)).or (lastAt? n)

end

/-- Where an element ends among its texts, if it is a heading without an id. -/
def end? (e : Element) : Option Nat := if e.headingLevel?.isSome && e.id?.isNone then lastAtAll? e.children else none

mutual

/-- Where the headings without an id end that are reached through elements, among the texts of a node. -/
def ends : Node → List Nat
  | .element t p cs => (end? ⟨t, p, cs⟩).toList ++ endsAll cs
  | _ => []

/-- Where the headings without an id end that are reached through elements, among the texts of a forest. -/
def endsAll : List Node → List Nat
  | [] => []
  | n :: ns => ends n ++ (endsAll ns).map (n.texts.length + ·)

end

/-- A text without the id at its end. -/
def withoutId (text : String) : String :=
  match Slug.extractCustomId text with
  | (rest, some _) => rest
  | (_, none) => text

/-- Texts without the ids at the ends of some of them, taken off one after the other. -/
def withoutIds (places : List Nat) (texts : List String) : List String :=
  places.foldl (fun texts i => texts.modify i withoutId) texts

theorem modify_append_left {i : Nat} {texts : List String} (h : i < texts.length) (more : List String) :
    (texts ++ more).modify i withoutId = texts.modify i withoutId ++ more := by
  induction texts generalizing i with
  | nil => exact absurd h (Nat.not_lt_zero i)
  | cons t texts ih =>
    cases i with
    | zero => rfl
    | succ i => exact congrArg (t :: ·) (ih (Nat.lt_of_succ_lt_succ h))

theorem modify_append_right (i : Nat) (front texts : List String) :
    (front ++ texts).modify (front.length + i) withoutId = front ++ texts.modify i withoutId := by
  induction front with
  | nil => rw [List.length_nil, Nat.zero_add]; rfl
  | cons t front ih =>
    rw [List.length_cons, Nat.add_right_comm]
    exact congrArg (t :: ·) ih

theorem withoutIds_append (is js : List Nat) (texts : List String) :
    withoutIds (is ++ js) texts = withoutIds js (withoutIds is texts) := List.foldl_append

theorem length_withoutIds (places : List Nat) (texts : List String) :
    (withoutIds places texts).length = texts.length := by
  induction places generalizing texts with
  | nil => rfl
  | cons i places ih => exact (ih _).trans (List.length_modify ..)

theorem withoutIds_left {places : List Nat} {texts : List String} (h : ∀ i ∈ places, i < texts.length)
    (more : List String) : withoutIds places (texts ++ more) = withoutIds places texts ++ more := by
  induction places generalizing texts with
  | nil => rfl
  | cons i places ih =>
    obtain ⟨hi, hplaces⟩ := List.forall_mem_cons.1 h
    have step := modify_append_left hi more
    have inside : ∀ j ∈ places, j < (texts.modify i withoutId).length := by
      intro j hj
      rw [List.length_modify]
      exact hplaces j hj
    calc withoutIds (i :: places) (texts ++ more)
        = withoutIds places (texts.modify i withoutId ++ more) := by rw [← step]; rfl
      _ = withoutIds (i :: places) texts ++ more := ih inside

theorem withoutIds_right (places : List Nat) (front texts : List String) :
    withoutIds (places.map (front.length + ·)) (front ++ texts) = front ++ withoutIds places texts := by
  induction places generalizing texts with
  | nil => rfl
  | cons i places ih =>
    have step := modify_append_right i front texts
    calc withoutIds ((i :: places).map (front.length + ·)) (front ++ texts)
        = withoutIds (places.map (front.length + ·)) (front ++ texts.modify i withoutId) := by rw [← step]; rfl
      _ = front ++ withoutIds (i :: places) texts := ih _

mutual

theorem lastAt?_lt {i : Nat} : (n : Node) → lastAt? n = some i → i < n.texts.length
  | .text _, h => by
    cases h
    exact Nat.zero_lt_one
  | .element _ _ cs, h => lastAtAll?_lt cs h

theorem lastAtAll?_lt {i : Nat} : (ns : List Node) → lastAtAll? ns = some i → i < (Node.textsAll ns).length
  | n :: ns, h => by
    rw [lastAtAll?] at h
    rw [Node.textsAll, List.length_append]
    cases rest : lastAtAll? ns with
    | none =>
      rw [rest] at h
      have := lastAt?_lt n h
      omega
    | some j =>
      rw [rest] at h
      have := lastAtAll?_lt ns rest
      have hi : n.texts.length + j = i := Option.some.inj h
      omega

end

theorem end?_lt {i : Nat} {e : Element} (h : end? e = some i) : i < (Node.textsAll e.children).length := by
  rw [end?] at h
  split at h
  · exact lastAtAll?_lt _ h
  · cases h

mutual

theorem ends_lt {i : Nat} : (n : Node) → i ∈ ends n → i < n.texts.length
  | .element t p cs, h => by
    rw [ends, List.mem_append, Option.mem_toList] at h
    rcases h with h | h
    · exact end?_lt h
    · exact endsAll_lt cs h

theorem endsAll_lt {i : Nat} : (ns : List Node) → i ∈ endsAll ns → i < (Node.textsAll ns).length
  | n :: ns, h => by
    rw [endsAll, List.mem_append, List.mem_map] at h
    rw [Node.textsAll, List.length_append]
    rcases h with h | ⟨j, hj, rfl⟩
    · have := ends_lt n h
      omega
    · have := endsAll_lt ns hj
      omega

end

/-- Texts of a forest whose first tree is set apart. -/
theorem withoutIds_endsAll_cons (n : Node) (ns : List Node) :
    withoutIds (endsAll (n :: ns)) (Node.textsAll (n :: ns)) =
      withoutIds (ends n) n.texts ++ withoutIds (endsAll ns) (Node.textsAll ns) := by
  have first := withoutIds_left (fun i => ends_lt n) (Node.textsAll ns)
  have length := length_withoutIds (ends n) n.texts
  rw [endsAll, Node.textsAll, withoutIds_append, first, ← length, withoutIds_right]

/-! ### Texts that are replaced -/

mutual

theorem lastText?_eq : (n : Node) → lastText? n = (lastAt? n).bind (n.texts[·]?)
  | .text _ => rfl
  | .root _ => rfl
  | .element _ _ cs => lastTextAll?_eq cs

theorem lastTextAll?_eq : (ns : List Node) → lastTextAll? ns = (lastAtAll? ns).bind ((Node.textsAll ns)[·]?)
  | [] => rfl
  | n :: ns => by
    rw [lastTextAll?, lastAtAll?, lastText?_eq n, lastTextAll?_eq ns, Node.textsAll]
    cases last : lastAtAll? ns with
    | none =>
      cases first : lastAt? n with
      | none => rfl
      | some i => exact (List.getElem?_append_left (lastAt?_lt n first)).symm
    | some i =>
      have there : (n.texts ++ Node.textsAll ns)[n.texts.length + i]? = (Node.textsAll ns)[i]? := by
        rw [List.getElem?_append_right (Nat.le_add_right _ _), Nat.add_sub_cancel_left]
      have some := List.getElem?_eq_getElem (lastAtAll?_lt ns last)
      simp only [Option.bind_some, Option.map_some, Option.some_or, there, some]

end

mutual

theorem texts_setLastText {s : String} {i : Nat} : (n : Node) → lastAt? n = some i →
    (setLastText s n).texts = n.texts.set i s
  | .text _, h => by
    cases h
    rfl
  | .element _ _ cs, h => textsAll_setLastTextAll cs h

/-- Replacing the last text replaces the text at its place. -/
theorem textsAll_setLastTextAll {s : String} {i : Nat} : (ns : List Node) → lastAtAll? ns = some i →
    Node.textsAll (setLastTextAll s ns) = (Node.textsAll ns).set i s
  | n :: ns, h => by
    rw [lastAtAll?] at h
    rw [setLastTextAll, lastTextAll?_eq, Node.textsAll]
    cases last : lastAtAll? ns with
    | none =>
      rw [last] at h
      have first := lastAt?_lt n h
      rw [Option.bind_none, if_neg (by decide), Node.textsAll, texts_setLastText n h, List.set_append_left _ _ first]
    | some j =>
      rw [last] at h
      have some := List.getElem?_eq_getElem (lastAtAll?_lt ns last)
      obtain rfl : n.texts.length + j = i := Option.some.inj h
      rw [Option.bind_some, some, Option.isSome_some, if_pos rfl, Node.textsAll, textsAll_setLastTextAll ns last,
        List.set_append_right _ _ (Nat.le_add_right _ _), Nat.add_sub_cancel_left]

end

theorem seesNoText_length : SeesNoText fun ns => (Node.textsAll ns).length where
  text _ _ := rfl
  element t p {cs ds} same := by
    simp only [Node.textsAll, Node.texts, List.append_nil, same]
  cons {n m ns ms} first rest := by
    simp only [Node.textsAll, List.append_nil] at first
    simp only [Node.textsAll, List.length_append, first, rest]

theorem lastAtAll?_singleton (n : Node) : lastAtAll? [n] = lastAt? n := rfl

theorem endsAll_singleton (n : Node) : endsAll [n] = ends n := List.append_nil _

/-- Where the headings of a forest end depends on the number of its texts and on the place of the last one. -/
theorem seesNoText_ends : SeesNoText fun ns => ((Node.textsAll ns).length, lastAtAll? ns, endsAll ns) where
  text _ _ := rfl
  element t p {cs ds} same := by
    simp only [Prod.mk.injEq, lastAtAll?_singleton, endsAll_singleton] at same ⊢
    obtain ⟨length, last, ends⟩ := same
    have own : end? ⟨t, p, cs⟩ = end? ⟨t, p, ds⟩ := by
      rw [end?, last]
      rfl
    exact ⟨seesNoText_length.element t p length, last, by rw [Heading.ends, Heading.ends, own, ends]⟩
  cons {n m ns ms} first rest := by
    simp only [Prod.mk.injEq, lastAtAll?_singleton, endsAll_singleton] at first rest ⊢
    obtain ⟨length, last, ends⟩ := first
    have texts : n.texts.length = m.texts.length := by
      simpa only [Node.textsAll, List.append_nil] using length
    refine ⟨seesNoText_length.cons length rest.1, ?_, ?_⟩
    · rw [lastAtAll?, lastAtAll?, rest.2.1, texts, last]
    · rw [endsAll, endsAll, rest.2.2, texts, ends]

/-! ### The texts when headings get their ids -/

theorem endsAll_content (e : Element) : endsAll (content e) = endsAll e.children := by
  have same := seesNoText_ends.content e
  simp only [Prod.mk.injEq] at same
  exact same.2.2

theorem modify_withoutId {texts : List String} {i : Nat} {v : String} (h : texts[i]? = some v) :
    texts.modify i withoutId = texts.set i (withoutId v) := by
  rw [List.modify_eq_set_getElem?, h]
  rfl

/-- Finding the id of a heading takes it off the end of the heading. -/
theorem textsAll_content {e : Element} (heading : e.headingLevel?.isSome) :
    Node.textsAll (content e) = withoutIds (end? e).toList (Node.textsAll e.children) := by
  unfold content identify end?
  cases e.id? with
  | some id =>
    rw [heading]
    rfl
  | none =>
    have last := lastTextAll?_eq e.children
    rw [heading, if_pos (by rfl)]
    dsimp only
    rw [customId?]
    cases place : lastAtAll? e.children with
    | none =>
      rw [place] at last
      rw [last]
      rfl
    | some i =>
      obtain ⟨v, there⟩ : ∃ v, (Node.textsAll e.children)[i]? = some v :=
        ⟨_, List.getElem?_eq_getElem (lastAtAll?_lt _ place)⟩
      rw [place, Option.bind_some, there] at last
      have step := modify_withoutId there
      rw [last, Option.toList_some, withoutIds, List.foldl_cons, List.foldl_nil, step, withoutId]
      dsimp only
      cases Slug.extractCustomId v with
      | mk rest found =>
        cases found with
        | none =>
          obtain ⟨hi, rfl⟩ := List.getElem?_eq_some_iff.1 there
          exact (List.set_getElem_self hi).symm
        | some id => exact textsAll_setLastTextAll _ place

/-- Headings that get ids change no text, but for the ids at their ends. -/
theorem textsAll_assignAll (s : Slugger) (forest : List Node) :
    Node.textsAll (assignAll s forest).nodes = withoutIds (endsAll forest) (Node.textsAll forest) := by
  induction forest using wishes.induct generalizing s with
  | case1 => rw [assignAll]; rfl
  | case2 t p cs ns h ih₁ ih₂ =>
    -- the id at the end of the heading itself goes before those of the headings within
    obtain ⟨depth, hd⟩ := Option.isSome_iff_exists.1 h
    rw [assignAll_heading hd, withoutIds_endsAll_cons]
    simp only [Node.textsAll, Node.texts]
    rw [ih₁, ih₂, endsAll_content, textsAll_content h, ← withoutIds_append]
    rfl
  | case3 t p cs ns h ih₁ ih₂ =>
    have plain := Option.not_isSome_iff_eq_none.1 h
    rw [assignAll_plain plain, withoutIds_endsAll_cons]
    simp only [Node.textsAll, Node.texts]
    rw [ih₁, ih₂, ends, end?, plain]
    rfl
  | case4 cs ns ih =>
    rw [assignAll_root, withoutIds_endsAll_cons, Node.textsAll, ih]
    rfl
  | case5 v ns ih =>
    rw [assignAll_text, withoutIds_endsAll_cons, Node.textsAll, ih]
    rfl

end Folio.Heading

namespace Folio.Pipeline

open Html Heading CodeBlock Outline

/-- The steps other than highlighting put the title in front of a document and lose, repeat and reorder no other text.
Giving ids to headings takes the ids off the ends of headings; a root below the tree is passed by. -/
theorem texts_htmlSteps (s : Page) (cs : List Node) (f : Frontmatter) (document : String) :
    let given : Node := .root cs
    let identified := (assign given).1
    (∃ page, (htmlSteps none (some f) document { s with tree := given } HtmlPass.quiet).value? = some (page, none) ∧
        page.tree.texts = f.title :: identified.texts) ∧
      identified.texts = withoutIds (endsAll cs) given.texts := by
  intro given identified
  refine ⟨?_, textsAll_assignAll _ cs⟩
  have texts : Node.textsAll (nestAll (marked cs)) = identified.texts := by
    rw [Node.textsAll_eq_flatMap, flatMap_nestAll Node.seesThrough_texts, flatMap_marked Node.seesThrough_texts,
      ← Node.textsAll_eq_flatMap]
    rfl
  refine ⟨_, value?_htmlSteps_of_foldlM (some f) document (.inl rfl) (foldlM_quiet document f s cs), ?_⟩
  exact congrArg (f.title :: ·) texts

/-- An id at the end of a heading is not taken off below a root within the tree. -/
theorem texts_assign_innerRoot :
    let heading : Element := ⟨"h2", .empty, [.text "B \x7b#x\x7d"]⟩
    heading.headingLevel?.isSome ∧ heading.id? = none ∧ lastTextAll? heading.children = some "B \x7b#x\x7d" ∧
      Slug.extractCustomId "B \x7b#x\x7d" = ("B", some "x") ∧
      (assign (.root [.root [heading.toNode]])).1.texts = ["B \x7b#x\x7d"] := by
  decide +kernel

end Folio.Pipeline
