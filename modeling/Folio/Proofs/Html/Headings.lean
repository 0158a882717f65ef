import Folio.Proofs.Html.Copying
import Folio.Proofs.Text
import Mathlib.Data.List.Basic

/-!
# The headings of a document

The steps behind the rendering keep the headings of a document in order, with their levels, ids and texts. The list
of headings gives the texts that headings have when they get their ids; headings within them may lose ids at their
ends after that, and `map_shown_assignAll_iff` says that this is the only difference.
-/

namespace Folio.Heading

open Html CodeBlock Text

/-- The headings of a forest that are reached through elements. -/
def headings (forest : List Node) : List Element :=
  (Node.elementsAll forest).filter fun e => e.headingLevel?.isSome

/-- The text of an element, as the list of headings gives it. -/
def shown (e : Element) : String := String.ofList (trim e.textContent.toList)

theorem headings_append (ns ms : List Node) : headings (ns ++ ms) = headings ns ++ headings ms := by
  rw [headings, Node.elementsAll_append, List.filter_append]
  rfl

theorem headings_cons (n : Node) (ns : List Node) : headings (n :: ns) = headings [n] ++ headings ns :=
  headings_append [n] ns

variable {t : String} {p q : Properties} {cs ds : List Node}

theorem headings_heading (h : (Element.headingLevel? ⟨t, q, ds⟩).isSome) :
    headings [.element t p cs] = ⟨t, p, cs⟩ :: headings cs := by
  have h : (Element.headingLevel? ⟨t, p, cs⟩).isSome := h
  rw [headings, Node.elementsAll, Node.elements, Node.elementsAll, List.append_nil, List.filter_cons, if_pos h]
  rfl

theorem headings_plain (h : ¬ (Element.headingLevel? ⟨t, q, ds⟩).isSome) :
    headings [.element t p cs] = headings cs := by
  have h : ¬ (Element.headingLevel? ⟨t, p, cs⟩).isSome := h
  rw [headings, Node.elementsAll, Node.elements, Node.elementsAll, List.append_nil, List.filter_cons, if_neg h]
  rfl

/-! ### Links and containers -/

/-- What is known of a heading: its tag, its properties and its text. -/
def sign (e : Element) : String × Properties × String := (e.tag, e.properties, e.textContent)

/-- A heading of level 1 to 5 with an id has a link to it for its only child. -/
def IsLinked (e : Element) : Prop :=
  ∀ id, anchorId? e = some id → ∃ inner, e.children = [.element "a" (.ofList [("href", .text ("#" ++ id))]) inner]

theorem sign_congr (h : Node.textsAll cs = Node.textsAll ds) : sign ⟨t, p, cs⟩ = sign ⟨t, p, ds⟩ := by
  simp only [sign, Element.textContent, h]

/-- A heading that links to itself. -/
def link (e : Element) : Element := ⟨e.tag, e.properties, linked (e.children.map anchored) (anchorId? e)⟩

theorem sign_link (e : Element) : sign (link e) = sign e :=
  sign_congr ((textsAll_linked _ _).trans (textsAll_anchored e.children))

theorem isLinked_link (e : Element) : IsLinked (link e) := by
  intro id h
  have h : anchorId? e = some id := h
  rw [link, h]
  exact ⟨_, rfl⟩

theorem headings_linked (cs : List Node) (id : Option String) : headings (linked cs id) = headings cs := by
  have plain : ¬ (Element.headingLevel? ⟨"a", .empty, []⟩).isSome := by decide
  cases id with
  | none => rfl
  | some id => exact headings_plain plain

mutual

theorem headings_anchored : (n : Node) → headings [anchored n] = (headings [n]).map link
  | .text _ => rfl
  | .root _ => rfl
  | .element t p cs => by
    by_cases h : (Element.headingLevel? ⟨t, p, cs⟩).isSome
    · rw [anchored_element, headings_heading h, headings_heading h, headings_linked, headings_anchoredAll cs]
      rfl
    · rw [anchored_plain (Option.not_isSome_iff_eq_none.1 h), headings_plain h, headings_plain h,
        headings_anchoredAll cs]

theorem headings_anchoredAll : (ns : List Node) → headings (ns.map anchored) = (headings ns).map link
  | [] => rfl
  | n :: ns => by
    rw [List.map_cons, headings_cons, headings_anchored n, headings_anchoredAll ns, headings_cons n ns,
      List.map_append]

end

theorem headings_container (n : Node) : headings [container n] = headings [n] := by
  have plain : ¬ (Element.headingLevel? ⟨"div", .empty, []⟩).isSome := by decide
  have button : headings [copyButton] = [] := rfl
  rw [container, headings_plain plain, headings_cons, button, List.append_nil]

/-- A heading before and after blocks get their containers. -/
inductive Wraps : Element → Element → Prop
  | same (e : Element) : Wraps e e
  | inside (t : String) (p : Properties) (cs : List Node) : Wraps ⟨t, p, cs⟩ ⟨t, p, cs.map (wrapped false)⟩

theorem Wraps.sign {e e' : Element} (h : Wraps e e') : sign e' = sign e := by
  cases h with
  | same => rfl
  | inside t p cs => exact sign_congr (textsAll_wrapped false cs)

theorem Wraps.isLinked {e e' : Element} (h : Wraps e e') (linked : IsLinked e) : IsLinked e' := by
  cases h with
  | same => exact linked
  | inside t p cs =>
    intro id hid
    obtain ⟨inner, content⟩ := linked id hid
    refine ⟨inner.map (wrapped false), ?_⟩
    have content : cs = _ := content
    rw [content, List.map_singleton, wrapped_element (by decide)]
    rfl

mutual

theorem wraps_wrapped (inside : Bool) : (n : Node) → List.Forall₂ Wraps (headings [n]) (headings [wrapped inside n])
  | .text _ => .nil
  | .root _ => .nil
  | .element t p cs => by
    by_cases h : (Element.headingLevel? ⟨t, p, cs⟩).isSome
    · rw [wrapped_heading h, headings_heading h, headings_heading h]
      exact .cons (.inside t p cs) (wraps_wrappedAll false cs)
    · by_cases ht : t = "pre"
      · subst ht
        have same := List.forall₂_same.2 fun e (_ : e ∈ headings [Node.element "pre" p cs]) => Wraps.same e
        cases inside with
        | true => exact same
        | false =>
          rw [wrapped_pre, headings_container]
          exact same
      · rw [wrapped_element ht, headings_plain h, headings_plain h]
        exact wraps_wrappedAll _ cs

theorem wraps_wrappedAll (inside : Bool) : (ns : List Node) →
    List.Forall₂ Wraps (headings ns) (headings (ns.map (wrapped inside)))
  | [] => .nil
  | n :: ns => by
    rw [List.map_cons, headings_cons, headings_cons (wrapped inside n)]
    exact List.rel_append (wraps_wrapped inside n) (wraps_wrappedAll inside ns)

end

/-! ### Ids -/

/-- The list of headings gives their levels and ids in order. -/
theorem headings_assignAll (s : Slugger) (forest : List Node) :
    (headings (assignAll s forest).nodes).map (fun e => (e.headingLevel?, e.id?)) =
      (assignAll s forest).entries.map fun x => (some x.depth, some x.slug) := by
  induction forest using wishes.induct generalizing s with
  | case1 => rw [assignAll]; rfl
  | case2 t p cs ns h ih₁ ih₂ =>
    obtain ⟨depth, hd⟩ := Option.isSome_iff_exists.1 h
    have id := id?_withId s ⟨t, p, cs⟩
    rw [assignAll_heading hd]
    simp only [List.cons_append, List.map_cons, List.map_append, ← ih₁, ← ih₂]
    rw [headings_cons, headings_heading h, List.cons_append, List.map_cons, List.map_append, id]
    exact congrArg (· :: _) (congrArg (·, _) hd)
  | case3 t p cs ns h ih₁ ih₂ =>
    have plain := Option.not_isSome_iff_eq_none.1 h
    rw [assignAll_plain plain]
    simp only [List.map_append, ← ih₁, ← ih₂]
    rw [headings_cons, headings_plain h, List.map_append]
  | case4 cs ns ih => rw [assignAll_root]; exact ih s
  | case5 v ns ih => rw [assignAll_text]; exact ih s

/-! ### Texts -/

/-- The number of braces that close in texts. -/
def braces (texts : List String) : Nat := (texts.flatMap String.toList).count '\x7d'

theorem braces_append (ss ts : List String) : braces (ss ++ ts) = braces ss + braces ts := by
  simp only [braces, List.flatMap_append, List.count_append]

theorem braces_singleton (s : String) : braces [s] = s.toList.count '\x7d' := by
  rw [braces, List.flatMap_singleton]

theorem eq_of_splitOpening? {cs before id : List Char} (h : Slug.splitOpening? cs = some (before, id)) :
    cs = before ++ '\x7b' :: '#' :: id := by
  induction cs generalizing before with
  | nil => cases h
  | cons c cs ih =>
    unfold Slug.splitOpening? at h
    split at h
    · rename_i later
      cases h
      exact congrArg (c :: ·) (ih later)
    · split at h
      · cases h
        rfl
      · cases h

/-- A text with an id at its end. -/
theorem eq_of_customId? {text before id : List Char} (h : Slug.customId? text = some (before, id)) :
    ∃ front, trimEnd text = front ++ '\x7b' :: '#' :: id ++ ['\x7d'] ∧ before = trimEnd front := by
  unfold Slug.customId? at h
  split at h
  · rename_i inner ending
    split at h
    · rename_i front id' opening
      split at h
      · cases h
        refine ⟨front, ?_, rfl⟩
        rw [← eq_of_splitOpening? opening, ← List.reverse_cons, ← ending, List.reverse_reverse]
      · cases h
    · cases h
  · cases h

theorem count_trimEnd (cs : List Char) : (trimEnd cs).count '\x7d' = cs.count '\x7d' := by
  obtain ⟨blanks, hcs, blank⟩ := eq_dropEndWhile_append isBlank cs
  have none : '\x7d' ∉ blanks := fun h => absurd (blank _ h) (by decide)
  rw [trimEnd]
  conv_rhs => rw [hcs, List.count_append, List.count_eq_zero.2 none, Nat.add_zero]

theorem count_trim (cs : List Char) : (trim cs).count '\x7d' = cs.count '\x7d' := by
  have none : '\x7d' ∉ cs.takeWhile isBlank := fun h => absurd (List.mem_takeWhile_imp h) (by decide)
  rw [trim, count_trimEnd, trimStart]
  conv_rhs =>
    rw [← List.takeWhile_append_dropWhile (p := isBlank) (l := cs), List.count_append, List.count_eq_zero.2 none,
      Nat.zero_add]

/-- An id at the end of a text takes a brace with it. -/
theorem braces_extractCustomId {v rest id : String} (h : Slug.extractCustomId v = (rest, some id)) :
    braces [rest] < braces [v] := by
  rw [braces_singleton, braces_singleton, ← count_trimEnd v.toList]
  unfold Slug.extractCustomId at h
  split at h
  · rename_i before id custom
    cases h
    obtain ⟨front, whole, rfl⟩ := eq_of_customId? custom
    rw [String.toList_ofList, count_trimEnd, whole]
    simp only [List.count_append, List.count_singleton_self]
    omega
  · cases h

theorem braces_shown (e : Element) : braces [shown e] = braces (Node.textsAll e.children) := by
  rw [braces_singleton, shown, String.toList_ofList, count_trim, Element.textContent, Node.toList_joined, braces]

mutual

theorem braces_setLastText {v s : String} : (n : Node) → lastText? n = some v →
    braces (setLastText s n).texts + braces [v] = braces n.texts + braces [s]
  | .text _, h => by
    cases h
    exact Nat.add_comm _ _
  | .element _ _ cs, h => braces_setLastTextAll cs h

theorem braces_setLastTextAll {v s : String} : (ns : List Node) → lastTextAll? ns = some v →
    braces (Node.textsAll (setLastTextAll s ns)) + braces [v] = braces (Node.textsAll ns) + braces [s]
  | n :: ns, h => by
    rw [lastTextAll?] at h
    rw [setLastTextAll]
    cases last : lastTextAll? ns with
    | none =>
      rw [last] at h
      have first := braces_setLastText (s := s) n h
      rw [Option.isSome_none, if_neg Bool.false_ne_true]
      simp only [Node.textsAll, braces_append]
      omega
    | some w =>
      rw [last] at h
      cases h
      have rest := braces_setLastTextAll (s := s) ns last
      rw [Option.isSome_some, if_pos rfl]
      simp only [Node.textsAll, braces_append]
      omega

end

/-- Is the id one at the end of a text? -/
def Wish.isCustom : Wish → Bool
  | custom _ => true
  | _ => false

theorem content_of_not_isCustom {e : Element} (h : (wish e).isCustom = false) : content e = e.children := by
  unfold wish at h
  unfold content identify
  cases own : e.id? with
  | some id => rfl
  | none =>
    rw [own] at h
    cases custom : customId? e.children with
    | none => rfl
    | some found =>
      rw [custom] at h
      cases h

theorem braces_content (e : Element) :
    braces (Node.textsAll (content e)) + [wish e].countP Wish.isCustom ≤ braces (Node.textsAll e.children) := by
  unfold content identify wish
  cases e.id? with
  | some id => exact Nat.le_refl _
  | none =>
    cases custom : customId? e.children with
    | none => exact Nat.le_refl _
    | some found =>
      obtain ⟨v, rest, last, extracted, content⟩ := customId?_eq_some custom
      have replaced := braces_setLastTextAll (s := rest) e.children last
      have lost := braces_extractCustomId extracted
      have one : [Wish.custom found.1].countP Wish.isCustom = 1 := rfl
      dsimp only
      rw [one, content]
      omega

/-- Each id that is taken off the end of a text takes a brace with it. -/
theorem braces_assignAll (s : Slugger) (forest : List Node) :
    braces (Node.textsAll (assignAll s forest).nodes) + (wishes forest).countP Wish.isCustom ≤
      braces (Node.textsAll forest) := by
  induction forest using wishes.induct generalizing s with
  | case1 => rw [assignAll, wishes]; exact Nat.le_refl _
  | case2 t p cs ns h ih₁ ih₂ =>
    obtain ⟨depth, hd⟩ := Option.isSome_iff_exists.1 h
    have own : _ ≤ braces (Node.textsAll cs) := braces_content ⟨t, p, cs⟩
    have below := ih₁ ((wish ⟨t, p, cs⟩).grant s).2
    have after := ih₂ (assignAll ((wish ⟨t, p, cs⟩).grant s).2 (content ⟨t, p, cs⟩)).slugger
    rw [assignAll_heading hd, wishes, if_pos h, List.cons_append, ← List.singleton_append]
    simp only [Node.textsAll, Node.texts, braces_append, List.countP_append]
    omega
  | case3 t p cs ns h ih₁ ih₂ =>
    have below := ih₁ s
    have after := ih₂ (assignAll s cs).slugger
    rw [assignAll_plain (Option.not_isSome_iff_eq_none.1 h), wishes, if_neg h]
    simp only [Node.textsAll, Node.texts, braces_append, List.countP_append]
    omega
  | case4 cs ns ih =>
    have after := ih s
    rw [assignAll_root, wishes]
    simp only [Node.textsAll, braces_append]
    omega
  | case5 v ns ih =>
    have after := ih s
    rw [assignAll_text, wishes]
    simp only [Node.textsAll, braces_append]
    omega

theorem textsAll_assignAll_of_plain {forest : List Node} (plain : ∀ w ∈ wishes forest, w.isCustom = false)
    (s : Slugger) : Node.textsAll (assignAll s forest).nodes = Node.textsAll forest := by
  induction forest using wishes.induct generalizing s with
  | case1 => rw [assignAll]
  | case2 t p cs ns h ih₁ ih₂ =>
    obtain ⟨depth, hd⟩ := Option.isSome_iff_exists.1 h
    rw [wishes, if_pos h, List.cons_append, List.forall_mem_cons, List.forall_mem_append] at plain
    obtain ⟨own, below, after⟩ := plain
    rw [assignAll_heading hd, Node.textsAll, Node.texts, ih₁ below, ih₂ after, content_of_not_isCustom own]
    rfl
  | case3 t p cs ns h ih₁ ih₂ =>
    rw [wishes, if_neg h, List.forall_mem_append] at plain
    rw [assignAll_plain (Option.not_isSome_iff_eq_none.1 h), Node.textsAll, Node.texts, ih₁ plain.1, ih₂ plain.2]
    rfl
  | case4 cs ns ih =>
    rw [wishes] at plain
    rw [assignAll_root, Node.textsAll, ih plain]
    rfl
  | case5 v ns ih =>
    rw [wishes] at plain
    rw [assignAll_text, Node.textsAll, ih plain]
    rfl

/-- The text of a heading stays the same just if no heading within it has its id taken off its end. -/
theorem shown_assignAll_eq_iff {s : Slugger} :
    shown ⟨t, p, (assignAll s cs).nodes⟩ = shown ⟨t, q, cs⟩ ↔ ∀ w ∈ wishes cs, w.isCustom = false := by
  constructor
  · -- an id that is taken off costs a brace, so an equal text has lost none
    intro same w hw
    have lost := braces_assignAll s cs
    have kept := congrArg (fun s => braces [s]) same
    simp only [braces_shown] at kept
    have none : (wishes cs).countP Wish.isCustom = 0 := by omega
    exact Bool.eq_false_iff.2 (List.countP_eq_zero.1 none w hw)
  · intro plain
    simp only [shown, Element.textContent, textsAll_assignAll_of_plain plain]

/-- What the headings within headings bring along. -/
def innerWishes (forest : List Node) : List Wish :=
  match forest with
  | [] => []
  | .element t p cs :: ns =>
    if (Element.headingLevel? ⟨t, p, cs⟩).isSome then wishes (content ⟨t, p, cs⟩) ++ innerWishes ns
    else innerWishes cs ++ innerWishes ns
  | .root _ :: ns | .text _ :: ns => innerWishes ns
termination_by Node.sizeAll forest
decreasing_by
  all_goals simp only [Node.sizeAll, Node.size]; omega

/-- What headings within headings bring along is part of what all headings do. -/
theorem mem_wishes_of_mem_innerWishes {forest : List Node} {w : Wish} (h : w ∈ innerWishes forest) :
    w ∈ wishes forest := by
  induction forest using innerWishes.induct with
  | case1 =>
    rw [innerWishes] at h
    exact absurd h List.not_mem_nil
  | case2 t p cs ns heading ih =>
    rw [innerWishes, if_pos heading, List.mem_append] at h
    rw [wishes, if_pos heading, List.cons_append, List.mem_cons, List.mem_append]
    exact .inr (h.imp_right ih)
  | case3 t p cs ns plain ih₁ ih₂ =>
    rw [innerWishes, if_neg plain, List.mem_append] at h
    rw [wishes, if_neg plain, List.mem_append]
    exact h.imp ih₁ ih₂
  | case4 cs ns ih =>
    rw [innerWishes] at h
    rw [wishes]
    exact ih h
  | case5 v ns ih =>
    rw [innerWishes] at h
    rw [wishes]
    exact ih h

theorem append_inj_iff {α : Type} {as bs cs ds : List α} (h : as.length = bs.length) :
    as ++ cs = bs ++ ds ↔ as = bs ∧ cs = ds :=
  ⟨fun same => List.append_inj same h, fun same => by rw [same.1, same.2]⟩

theorem length_headings_assignAll (s : Slugger) (forest : List Node) :
    (headings (assignAll s forest).nodes).length = (assignAll s forest).entries.length := by
  have lists := congrArg List.length (headings_assignAll s forest)
  simpa only [List.length_map] using lists

/-- The list of headings gives their texts just if no heading within a heading has its id taken off its end. -/
theorem map_shown_assignAll_iff (s : Slugger) (forest : List Node) :
    (headings (assignAll s forest).nodes).map shown = (assignAll s forest).entries.map (·.text) ↔
      ∀ w ∈ innerWishes forest, w.isCustom = false := by
  induction forest using wishes.induct generalizing s with
  | case1 =>
    rw [assignAll, innerWishes]
    exact ⟨fun _ => List.forall_mem_nil _, fun _ => rfl⟩
  | case2 t p cs ns h ih₁ ih₂ =>
    obtain ⟨depth, hd⟩ := Option.isSome_iff_exists.1 h
    set granted := (wish ⟨t, p, cs⟩).grant s
    set inside := content ⟨t, p, cs⟩
    set below := assignAll granted.2 inside with hbelow
    have own : shown ⟨t, withId granted.1 ⟨t, p, cs⟩, below.nodes⟩ = shown ⟨t, p, inside⟩ ↔ _ := shown_assignAll_eq_iff
    have length : ((headings below.nodes).map shown).length = (below.entries.map (·.text)).length := by
      rw [List.length_map, List.length_map, hbelow, length_headings_assignAll]
    have inner (plain : ∀ w ∈ wishes inside, w.isCustom = false) :
        (headings below.nodes).map shown = below.entries.map (·.text) :=
      (ih₁ _).2 fun w hw => plain w (mem_wishes_of_mem_innerWishes hw)
    rw [assignAll_heading hd, innerWishes, if_pos h, List.forall_mem_append, ← ih₂ below.slugger, ← own]
    dsimp only
    rw [headings_cons, headings_heading h, List.cons_append, List.map_cons, List.map_append]
    rw [List.cons_append, List.map_cons, List.map_append, List.cons.injEq, append_inj_iff length]
    constructor
    · rintro ⟨first, -, rest⟩
      exact ⟨first, rest⟩
    · rintro ⟨first, rest⟩
      exact ⟨first, inner (own.1 first), rest⟩
  | case3 t p cs ns h ih₁ ih₂ =>
    have length : ((headings (assignAll s cs).nodes).map shown).length =
        ((assignAll s cs).entries.map (·.text)).length := by
      rw [List.length_map, List.length_map, length_headings_assignAll]
    rw [assignAll_plain (Option.not_isSome_iff_eq_none.1 h), innerWishes, if_neg h, List.forall_mem_append, ← ih₁ s,
      ← ih₂ (assignAll s cs).slugger]
    dsimp only
    rw [headings_cons, headings_plain h, List.map_append, List.map_append, append_inj_iff length]
  | case4 cs ns ih => rw [assignAll_root, innerWishes]; exact ih s
  | case5 v ns ih => rw [assignAll_text, innerWishes]; exact ih s

end Folio.Heading
