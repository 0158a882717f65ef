import Folio.Proofs.Html.Headings
import Folio.Proofs.Html.Roots
import Folio.Proofs.Html.Texts
import Mathlib.Data.Nat.PSub

/-!
# Ids and the full texts of headings

The rule for ids is about the text of a heading as a whole: if it ends in an id in braces, the heading gets this id, and
a slug of its text otherwise. The walk looks at the last text within the heading only. `visits` lists what the walk
finds at each heading when it gets there, and `decides_assign_iff` says when it does what the rule says: in a heading
without roots, exactly if an id at the end of the full text stands in the last text as a whole.
-/

namespace Folio

open Html Text

/-! ### Ends of texts -/

namespace Text

theorem trim_append_of_forall {s t : List Char} (h : ∀ c ∈ t, isBlank c = true) : trim (s ++ t) = trim s := by
  rw [trim, trimStart, List.dropWhile_append, trim, trimStart]
  split
  · rename_i blank
    rw [List.isEmpty_iff.1 blank, List.dropWhile_eq_nil_iff.2 h]
  · exact dropEndWhile_append_of_forall h

/-- White space is trimmed off the end of a text no matter what stands in front. -/
theorem trimEnd_append_trimEnd (s t : List Char) : trimEnd (s ++ trimEnd t) = trimEnd (s ++ t) := by
  obtain ⟨blanks, whole, blank⟩ := eq_dropEndWhile_append isBlank t
  conv_rhs => rw [whole, ← List.append_assoc]
  exact (dropEndWhile_append_of_forall blank).symm

theorem trim_append_trimEnd (s t : List Char) : trim (s ++ trimEnd t) = trim (s ++ t) := by
  obtain ⟨blanks, whole, blank⟩ := eq_dropEndWhile_append isBlank t
  conv_rhs => rw [whole, ← List.append_assoc]
  exact (trim_append_of_forall blank).symm

end Text

namespace Slug

/-- A text that ends in an id in braces, up to white space behind it. -/
structure EndsIn (text front id : List Char) : Prop where
  whole : trimEnd text = front ++ '\x7b' :: '#' :: id ++ ['\x7d']
  nonempty : id ≠ []
  chars : ∀ c ∈ id, isIdChar c = true

theorem splitOpening?_eq_none {s : List Char} (h : '\x7b' ∉ s) : splitOpening? s = none := by
  cases found : splitOpening? s with
  | none => rfl
  | some parts =>
    rw [Heading.eq_of_splitOpening? found] at h
    exact absurd (List.mem_append_right _ List.mem_cons_self) h

/-- The last `{#` is the one with no brace behind it. -/
theorem splitOpening?_append {id : List Char} (h : '\x7b' ∉ id) (front : List Char) :
    splitOpening? (front ++ '\x7b' :: '#' :: id) = some (front, id) := by
  induction front with
  | nil =>
    have none : splitOpening? ('#' :: id) = none := splitOpening?_eq_none (by simpa using h)
    rw [List.nil_append, splitOpening?, none]
  | cons c front ih =>
    unfold splitOpening?
    simp only [List.cons_append, ih]

namespace EndsIn

variable {text front front' id id' : List Char}

theorem customId? (h : EndsIn text front id) : customId? text = some (trimEnd front, id) := by
  have opening : '\x7b' ∉ id := fun brace => absurd (h.chars _ brace) (by decide)
  have ending : (trimEnd text).reverse = '\x7d' :: (front ++ '\x7b' :: '#' :: id).reverse := by
    rw [h.whole, List.reverse_append]
    rfl
  have valid : (!id.isEmpty && id.all isIdChar) = true := by simpa [h.nonempty] using h.chars
  rw [Slug.customId?, ending]
  simp only [List.reverse_reverse, splitOpening?_append opening, valid, if_true]

theorem unique (h : EndsIn text front id) (h' : EndsIn text front' id') : front = front' ∧ id = id' := by
  have ids : some (trimEnd front, id) = some (trimEnd front', id') := h.customId?.symm.trans h'.customId?
  obtain ⟨-, rfl⟩ := Prod.mk.inj (Option.some.inj ids)
  have wholes := h.whole.symm.trans h'.whole
  rw [List.append_assoc, List.append_assoc] at wholes
  exact ⟨List.append_cancel_right wholes, rfl⟩

/-- What stands in front of a text does not change how it ends. -/
theorem append (h : EndsIn text front id) (more : List Char) : EndsIn (more ++ text) (more ++ front) id := by
  refine ⟨?_, h.nonempty, h.chars⟩
  have brace : isBlank '\x7d' = false := by decide
  have closed (s : List Char) : trimEnd (s ++ ['\x7d']) = s ++ ['\x7d'] := dropEndWhile_append brace []
  rw [← trimEnd_append_trimEnd, h.whole, ← List.append_assoc, closed, ← List.append_assoc]

end EndsIn

/-- An id is found exactly where the text ends in it. -/
theorem customId?_eq_some_iff {text before id : List Char} :
    customId? text = some (before, id) ↔ ∃ front, EndsIn text front id ∧ before = trimEnd front := by
  constructor
  · intro h
    obtain ⟨front, whole, before⟩ := Heading.eq_of_customId? h
    unfold customId? at h
    split at h
    · split at h
      · split at h
        · rename_i valid
          obtain ⟨-, rfl⟩ := Prod.mk.inj (Option.some.inj h)
          simp only [Bool.and_eq_true, Bool.not_eq_true', List.isEmpty_eq_false_iff, List.all_eq_true] at valid
          exact ⟨front, ⟨whole, valid.1, valid.2⟩, before⟩
        · cases h
      · cases h
    · cases h
  · rintro ⟨front, h, rfl⟩
    exact h.customId?

theorem customId?_eq_none_iff {text : List Char} : customId? text = none ↔ ∀ front id, ¬ EndsIn text front id := by
  constructor
  · intro h front id ending
    rw [ending.customId?] at h
    cases h
  · intro h
    cases found : customId? text with
    | none => rfl
    | some parts =>
      obtain ⟨front, ending, -⟩ := customId?_eq_some_iff.1 found
      exact absurd ending (h front parts.2)

end Slug

namespace Heading

/-! ### The last text of a heading -/

open Html.Node (Rootless roots)

mutual

theorem lastAt?_of_rootless : (n : Node) → roots n = [] → lastAt? n = n.texts.length.ppred
  | .text _, _ => rfl
  | .element _ _ cs, h => lastAtAll?_of_rootless cs h

/-- Without roots the last text that is reached through elements is the last one of all. -/
theorem lastAtAll?_of_rootless : (ns : List Node) → Rootless ns → lastAtAll? ns = (Node.textsAll ns).length.ppred
  | [], _ => rfl
  | n :: ns, h => by
    obtain ⟨first, rest⟩ := Rootless.cons_iff.1 h
    rw [lastAtAll?, lastAt?_of_rootless n first, lastAtAll?_of_rootless ns rest, Node.textsAll, List.length_append]
    cases (Node.textsAll ns).length <;> rfl

end

theorem set_length_pred {α : Type} {l : List α} {i : Nat} (h : i + 1 = l.length) (a : α) :
    l.set i a = l.take i ++ [a] := by
  rw [List.set_eq_take_append_cons_drop, if_pos (by omega), h, List.drop_length]

variable {cs : List Node} {last : String}

/-- The texts of a forest without roots in front of the last one, which may be replaced. -/
theorem textsAll_of_lastTextAll? (rootless : Rootless cs) (h : lastTextAll? cs = some last) :
    ∃ front, Node.textsAll cs = front ++ [last] ∧ ∀ s, Node.textsAll (setLastTextAll s cs) = front ++ [s] := by
  rw [lastTextAll?_eq, Option.bind_eq_some_iff] at h
  obtain ⟨i, place, there⟩ := h
  have length : i + 1 = (Node.textsAll cs).length :=
    Nat.ppred_eq_some.1 ((lastAtAll?_of_rootless cs rootless).symm.trans place)
  refine ⟨(Node.textsAll cs).take i, ?_, fun s => ?_⟩
  · obtain ⟨inside, rfl⟩ := List.getElem?_eq_some_iff.1 there
    rw [← set_length_pred length, List.set_getElem_self]
  · rw [textsAll_setLastTextAll cs place, set_length_pred length]

/-! ### What the walk finds -/

/-- A heading as the walk finds it, and the ids that are taken then. -/
structure Visit where
  taken : Slugger
  heading : Element

namespace Visit

/-- The id that the heading gets, and the ids that are taken then. -/
def granted (v : Visit) : String × Slugger := (wish v.heading).grant v.taken

/-- What the list of headings says of the heading. -/
def entry (v : Visit) : Entry :=
  ⟨v.heading.headingLevel?.getD 0, v.granted.1, shown ⟨v.heading.tag, v.heading.properties, content v.heading⟩⟩

/-- The heading when the walk has gone through it. -/
def settled (v : Visit) : Element :=
  ⟨v.heading.tag, withId v.granted.1 v.heading, (assignAll v.granted.2 (content v.heading)).nodes⟩

end Visit

/-- What the walk over a forest finds at its headings, in document order. -/
def visits (s : Slugger) (forest : List Node) : List Visit :=
  match forest with
  | [] => []
  | .element t p cs :: ns =>
    if (Element.headingLevel? ⟨t, p, cs⟩).isSome then
      let v : Visit := ⟨s, ⟨t, p, cs⟩⟩
      let below := assignAll v.granted.2 (content ⟨t, p, cs⟩)
      v :: visits v.granted.2 (content ⟨t, p, cs⟩) ++ visits below.slugger ns
    else visits s cs ++ visits (assignAll s cs).slugger ns
  | .root _ :: ns | .text _ :: ns => visits s ns
termination_by Node.sizeAll forest
decreasing_by
  all_goals simp only [Node.sizeAll, Node.size, sizeAll_content]; omega

/-- What an element is apart from its content. -/
def kind (e : Element) : String × Properties := (e.tag, e.properties)

/-- The headings apart from their contents. -/
theorem seesNoText_kinds : SeesNoText fun ns => (headings ns).map kind where
  text _ _ := rfl
  element t p {cs ds} same := by
    by_cases h : (Element.headingLevel? ⟨t, p, cs⟩).isSome
    · rw [headings_heading h, headings_heading h, List.map_cons, List.map_cons, same]
      rfl
    · rw [headings_plain h, headings_plain h, same]
  cons {n m ns ms} first rest := by
    rw [headings_cons, headings_cons m, List.map_append, List.map_append, first, rest]

/-- The walk visits every heading, and its results are those of its visits. -/
theorem assignAll_eq_visits (s : Slugger) (forest : List Node) :
    (visits s forest).map (kind ·.heading) = (headings forest).map kind ∧
      (assignAll s forest).entries = (visits s forest).map Visit.entry ∧
      headings (assignAll s forest).nodes = (visits s forest).map Visit.settled := by
  induction forest using wishes.induct generalizing s with
  | case1 =>
    rw [assignAll, visits]
    exact ⟨rfl, rfl, rfl⟩
  | case2 t p cs ns h ih₁ ih₂ =>
    obtain ⟨depth, hd⟩ := Option.isSome_iff_exists.1 h
    obtain ⟨kinds₁, entries₁, settled₁⟩ := ih₁ ((wish ⟨t, p, cs⟩).grant s).2
    obtain ⟨kinds₂, entries₂, settled₂⟩ :=
      ih₂ (assignAll ((wish ⟨t, p, cs⟩).grant s).2 (content ⟨t, p, cs⟩)).slugger
    rw [seesNoText_kinds.content] at kinds₁
    rw [assignAll_heading hd, visits, if_pos h, headings_cons _ ns, headings_cons _ (assignAll _ ns).nodes,
      headings_heading h, headings_heading h]
    simp only [List.cons_append, List.map_cons, List.map_append, entries₁, entries₂, settled₁, settled₂]
    refine ⟨?_, ?_, rfl⟩
    · rw [← kinds₁, ← kinds₂]
      rfl
    · have level : (Element.headingLevel? ⟨t, p, cs⟩).getD 0 = depth := by rw [hd]; rfl
      rw [← level]
      rfl
  | case3 t p cs ns h ih₁ ih₂ =>
    obtain ⟨kinds₁, entries₁, settled₁⟩ := ih₁ s
    obtain ⟨kinds₂, entries₂, settled₂⟩ := ih₂ (assignAll s cs).slugger
    rw [assignAll_plain (Option.not_isSome_iff_eq_none.1 h), visits, if_neg h, headings_cons _ ns,
      headings_cons _ (assignAll _ ns).nodes, headings_plain h, headings_plain h]
    simp only [List.map_append, kinds₁, kinds₂, entries₁, entries₂, settled₁, settled₂, and_self]
  | case4 cs ns ih =>
    rw [assignAll_root, visits]
    exact ih s
  | case5 v ns ih =>
    rw [assignAll_text, visits]
    exact ih s

/-! ### The rule for full texts -/

/-- The id and the text of a heading come from its full text: from the id in braces that it ends in, or from the text
itself, and then only the headings within it change. -/
structure Decides (v : Visit) (entry : Entry) (after : Element) : Prop where
  custom : ∀ front id, Slug.EndsIn v.heading.textContent.toList front id →
    entry.slug = .ofList id ∧ entry.text = .ofList (trim front)
  slug : (∀ front id, ¬ Slug.EndsIn v.heading.textContent.toList front id) →
    entry.slug = (v.taken.slug v.heading.textContent).1 ∧ entry.text = shown v.heading ∧
      after.children = (assignAll (v.taken.slug v.heading.textContent).2 v.heading.children).nodes

/-- The id in braces at the end of the full text of a heading, and the text in front of it. -/
def fullId? (e : Element) : Option (String × String) :=
  (Slug.customId? e.textContent.toList).map fun found => (.ofList found.2, .ofList (trim found.1))

/-- The id in braces at the end of the last text of a heading, and the text of the heading without it. -/
def lastId? (e : Element) : Option (String × String) :=
  (customId? e.children).map fun found => (found.1, shown ⟨e.tag, e.properties, found.2⟩)

section

variable {e : Element} {id text : String}

theorem fullId?_of_endsIn {front id : List Char} (h : Slug.EndsIn e.textContent.toList front id) :
    fullId? e = some (.ofList id, .ofList (trim front)) := by
  have trimmed : trim (trimEnd front) = trim front := trim_append_trimEnd [] front
  rw [fullId?, h.customId?, Option.map_some, trimmed]

theorem fullId?_eq_none_iff : fullId? e = none ↔ ∀ front id, ¬ Slug.EndsIn e.textContent.toList front id := by
  rw [fullId?, Option.map_eq_none_iff, Slug.customId?_eq_none_iff]

theorem fullId?_eq_some_iff : fullId? e = some (id, text) ↔
    ∃ front cs, Slug.EndsIn e.textContent.toList front cs ∧ id = .ofList cs ∧ text = .ofList (trim front) := by
  constructor
  · intro h
    obtain ⟨found, custom, -⟩ := Option.map_eq_some_iff.1 h
    obtain ⟨front, ending, -⟩ := Slug.customId?_eq_some_iff.1 custom
    obtain ⟨rfl, rfl⟩ := Prod.mk.inj (Option.some.inj (h.symm.trans (fullId?_of_endsIn ending)))
    exact ⟨front, found.2, ending, rfl, rfl⟩
  · rintro ⟨front, cs, ending, rfl, rfl⟩
    exact fullId?_of_endsIn ending

theorem lastId?_of_endsIn {last : String} {front id : List Char} (h : lastTextAll? e.children = some last)
    (ending : Slug.EndsIn last.toList front id) : lastId? e =
      some (.ofList id, shown ⟨e.tag, e.properties, setLastTextAll (.ofList (trimEnd front)) e.children⟩) := by
  have extracted : Slug.extractCustomId last = (.ofList (trimEnd front), some (.ofList id)) := by
    rw [Slug.extractCustomId, ending.customId?]
  simp only [lastId?, customId?, h, extracted, Option.map_some]

theorem lastId?_eq_some_iff : lastId? e = some (id, text) ↔ ∃ last front cs,
    lastTextAll? e.children = some last ∧ Slug.EndsIn last.toList front cs ∧ id = .ofList cs ∧
      text = shown ⟨e.tag, e.properties, setLastTextAll (.ofList (trimEnd front)) e.children⟩ := by
  constructor
  · intro h
    obtain ⟨found, custom, -⟩ := Option.map_eq_some_iff.1 h
    obtain ⟨last, rest, there, extracted, -⟩ := customId?_eq_some custom
    unfold Slug.extractCustomId at extracted
    split at extracted
    · rename_i before cs ending
      obtain ⟨front, ending, -⟩ := Slug.customId?_eq_some_iff.1 ending
      obtain ⟨rfl, rfl⟩ := Prod.mk.inj (Option.some.inj (h.symm.trans (lastId?_of_endsIn there ending)))
      exact ⟨last, front, cs, there, ending, rfl, rfl⟩
    · cases (Prod.mk.inj extracted).2
  · rintro ⟨last, front, cs, there, ending, rfl, rfl⟩
    exact lastId?_of_endsIn there ending

/-- An id at the end of a heading takes a brace with it, so the heading is not left with its text. -/
theorem ne_shown_of_fullId? (h : fullId? e = some (id, text)) : text ≠ shown e := by
  obtain ⟨front, cs, ending, -, rfl⟩ := fullId?_eq_some_iff.1 h
  intro same
  have kept := congrArg (fun s => braces [s]) same
  have lost := congrArg (List.count '\x7d') ending.whole
  simp only [shown, braces_singleton, String.toList_ofList, count_trim] at kept
  simp only [count_trimEnd, List.count_append, List.count_singleton_self] at lost
  omega

theorem ne_shown_of_lastId? (h : lastId? e = some (id, text)) : text ≠ shown e := by
  obtain ⟨found, custom, rest⟩ := Option.map_eq_some_iff.1 h
  obtain ⟨-, rfl⟩ := Prod.mk.inj rest
  obtain ⟨last, rest, there, extracted, replaced⟩ := customId?_eq_some custom
  intro same
  have kept := congrArg (fun s => braces [s]) same
  have moved := braces_setLastTextAll (s := rest) e.children there
  have lost := braces_extractCustomId extracted
  simp only [braces_shown, replaced] at kept
  omega

/-- An id at the end of the last text of a heading is at the end of its full text. -/
theorem fullId?_of_lastId? (rootless : Rootless e.children) (h : lastId? e = some (id, text)) :
    fullId? e = some (id, text) := by
  obtain ⟨last, front', cs, there, ending, rfl, rfl⟩ := lastId?_eq_some_iff.1 h
  obtain ⟨front, whole, replaced⟩ := textsAll_of_lastTextAll? rootless there
  have before : e.textContent.toList = front.flatMap String.toList ++ last.toList := by
    rw [Element.textContent, Node.toList_joined, whole, List.flatMap_append, List.flatMap_singleton]
  have after : shown ⟨e.tag, e.properties, setLastTextAll (.ofList (trimEnd front')) e.children⟩ =
      .ofList (trim (front.flatMap String.toList ++ front')) := by
    rw [shown, Element.textContent, Node.toList_joined, replaced, List.flatMap_append, List.flatMap_singleton,
      String.toList_ofList, trim_append_trimEnd]
  have full := ending.append (front.flatMap String.toList)
  rw [← before] at full
  rw [fullId?_of_endsIn full, after]

/-- In a heading without roots the last text and the full text end in the same id exactly if no id at the end of the
full text begins before the last text. -/
theorem fullId?_eq_lastId?_iff (rootless : Rootless e.children) : fullId? e = lastId? e ↔
    ∀ front id, Slug.EndsIn e.textContent.toList front id →
      ∃ last front', lastTextAll? e.children = some last ∧ Slug.EndsIn last.toList front' id := by
  constructor
  · intro same front id ending
    obtain ⟨last, front', cs, there, ending', ids, -⟩ :=
      lastId?_eq_some_iff.1 (same.symm.trans (fullId?_of_endsIn ending))
    rw [String.ofList_injective ids]
    exact ⟨last, front', there, ending'⟩
  · intro within
    cases found : lastId? e with
    | some parts => exact fullId?_of_lastId? rootless found
    | none =>
      refine fullId?_eq_none_iff.2 fun front id ending => ?_
      obtain ⟨last, front', there, ending'⟩ := within front id ending
      rw [lastId?_of_endsIn there ending'] at found
      cases found

end

/-! ### What the walk does -/

namespace Visit

variable {v : Visit} {id text : String}

theorem entry_of_lastId? (new : v.heading.id? = none) (h : lastId? v.heading = some (id, text)) :
    v.entry.slug = id ∧ v.entry.text = text := by
  obtain ⟨found, custom, parts⟩ := Option.map_eq_some_iff.1 h
  obtain ⟨rfl, rfl⟩ := Prod.mk.inj parts
  simp only [entry, granted, wish, content, identify, new, custom, Wish.grant, and_self]

theorem granted_of_lastId? (new : v.heading.id? = none) (h : lastId? v.heading = none) :
    v.granted = v.taken.slug v.heading.textContent ∧ content v.heading = v.heading.children := by
  have none : customId? v.heading.children = none := Option.map_eq_none_iff.1 h
  simp only [granted, wish, content, identify, new, none, Wish.grant, and_self]

/-- The walk follows the rule for full texts exactly at the headings whose last texts end in the same id as their full
texts. -/
theorem decides_iff (new : v.heading.id? = none) :
    Decides v v.entry v.settled ↔ fullId? v.heading = lastId? v.heading := by
  constructor
  · intro decides
    cases full : fullId? v.heading with
    | some found =>
      obtain ⟨front, cs, ending, hid, htext⟩ := fullId?_eq_some_iff.1 full
      obtain ⟨slug, text⟩ := decides.custom front cs ending
      cases last : lastId? v.heading with
      | some found' =>
        obtain ⟨slug', text'⟩ := entry_of_lastId? new last
        exact congrArg some (Prod.ext ((hid.trans slug.symm).trans slug') ((htext.trans text.symm).trans text'))
      | none =>
        -- the text of the heading is all there, and the rule takes the id off
        obtain ⟨-, whole⟩ := granted_of_lastId? new last
        rw [entry, whole] at text
        exact absurd (htext.trans text.symm) (ne_shown_of_fullId? full)
    | none =>
      obtain ⟨-, text, -⟩ := decides.slug (fullId?_eq_none_iff.1 full)
      cases last : lastId? v.heading with
      | none => rfl
      | some found =>
        -- an id was taken off, and the rule keeps the text
        exact absurd ((entry_of_lastId? new last).2.symm.trans text) (ne_shown_of_lastId? last)
  · intro same
    constructor
    · intro front id ending
      exact entry_of_lastId? new (same.symm.trans (fullId?_of_endsIn ending))
    · intro none
      obtain ⟨slug, whole⟩ := granted_of_lastId? new (same.symm.trans (fullId?_eq_none_iff.2 none))
      rw [settled, entry, slug, whole]
      exact ⟨rfl, rfl, rfl⟩

theorem id?_settled (v : Visit) : v.settled.id? = some v.entry.slug := id?_withId v.taken v.heading _

end Visit

/-- The ids that are taken when the walk over a tree starts: those that headings have. -/
def present (tree : Node) : Slugger := (presentIds tree.children).foldl Slugger.reserve .empty

/-- Every heading without an id gets one when the walk finds it, and the list of headings has it. Id and text follow the
rule for the full text that the heading has then exactly if its last text ends in the same id as its full text; in a
heading without roots, exactly if the last text ends in the id that the full text ends in. -/
theorem decides_assign_iff (tree : Node) {i : Nat} {e : Element} (there : (headings tree.children)[i]? = some e)
    (new : e.id? = none) :
    ∃ v entry after, (visits (present tree) tree.children)[i]? = some v ∧
      v.heading.tag = e.tag ∧ v.heading.properties = e.properties ∧ (assign tree).2[i]? = some entry ∧
      (headings (assign tree).1.children)[i]? = some after ∧ after.id? = some entry.slug ∧
      (Decides v entry after ↔ fullId? v.heading = lastId? v.heading) ∧
      (Rootless v.heading.children → (fullId? v.heading = lastId? v.heading ↔
        ∀ front id, Slug.EndsIn v.heading.textContent.toList front id →
          ∃ last front', lastTextAll? v.heading.children = some last ∧ Slug.EndsIn last.toList front' id)) := by
  obtain ⟨kinds, entries, settled⟩ := assignAll_eq_visits (present tree) tree.children
  have nodes : (assign tree).1.children = (assignAll (present tree) tree.children).nodes := by
    cases tree with
    | root cs => rfl
    | element t p cs => rfl
    | text v => cases there
  have found : ((visits (present tree) tree.children).map (kind ·.heading))[i]? = some (kind e) := by
    rw [kinds, List.getElem?_map, there, Option.map_some]
  rw [List.getElem?_map] at found
  obtain ⟨v, visited, same⟩ := Option.map_eq_some_iff.1 found
  obtain ⟨tag, properties⟩ := Prod.mk.inj same
  have new : v.heading.id? = none := by
    rw [Element.id?, Element.text?, properties]
    exact new
  refine ⟨v, v.entry, v.settled, visited, tag, properties, ?_, ?_, v.id?_settled, Visit.decides_iff new,
    fullId?_eq_lastId?_iff⟩
  · have list : (assign tree).2 = (visits (present tree) tree.children).map Visit.entry := entries
    rw [list, List.getElem?_map, visited, Option.map_some]
  · rw [nodes, settled, List.getElem?_map, visited, Option.map_some]

/-- An id in emphasis is not found: the braces around it stand in other texts. -/
theorem assign_misses_split_id :
    let tree : Node := .root
      [.element "h2" .empty [.text "Setup \x7b#", .element "em" .empty [.text "install"], .text "\x7d"]]
    (visits (present tree) tree.children).map (·.heading.textContent) = ["Setup \x7b#install\x7d"] ∧
      Slug.EndsIn "Setup \x7b#install\x7d".toList "Setup ".toList "install".toList ∧
      (assign tree).2 = [⟨2, "setup-install", "Setup \x7b#install\x7d"⟩] := by
  have valid : "install".toList.all Slug.isIdChar = true := by decide
  exact ⟨by decide +kernel, ⟨by decide +kernel, by decide, List.all_eq_true.1 valid⟩, by decide +kernel⟩

/-- A heading whose last text is in emphasis and ends in an id. -/
def emphasizedEnd : Node :=
  .root [.element "h2" .empty [.text "Setup ", .element "em" .empty [.text "now \x7b#install\x7d"]]]

theorem decides_assign_emphasizedEnd :
    ∃ v entry after, (visits (present emphasizedEnd) emphasizedEnd.children)[0]? = some v ∧
      (assign emphasizedEnd).2[0]? = some entry ∧ (headings (assign emphasizedEnd).1.children)[0]? = some after ∧
      Decides v entry after := by
  have there : (headings emphasizedEnd.children)[0]? =
      some ⟨"h2", .empty, [.text "Setup ", .element "em" .empty [.text "now \x7b#install\x7d"]]⟩ := rfl
  obtain ⟨v, entry, after, visited, -, -, listed, settled, -, decides, -⟩ := decides_assign_iff emphasizedEnd there rfl
  have both : (visits (present emphasizedEnd) emphasizedEnd.children)[0]?.map
      (fun v => (fullId? v.heading, lastId? v.heading)) =
        some (some ("install", "Setup now"), some ("install", "Setup now")) := by
    decide +kernel
  rw [visited] at both
  obtain ⟨full, last⟩ := Prod.mk.inj (Option.some.inj both)
  exact ⟨v, entry, after, visited, listed, settled, decides.2 (full.trans last.symm)⟩

end Heading

end Folio
