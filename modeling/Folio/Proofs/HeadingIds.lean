import Folio.Heading
import Folio.Proofs.Slugger
import Mathlib.Data.List.Induction

/-!
# When the ids of headings are unique

The walk over the headings is a run over a list: `wishes` lists what each heading brings along (an id of its own, an id
at the end of its text, or its text), and `grantAll` hands out the ids from left to right. Ids of their own are taken
from the start and slugs are free when they are made, so the only id that can be handed out twice is one that stands at
the end of a text: it is never looked up. `nodup_assign_iff` says exactly when that goes well.
-/

namespace Folio

open Html

namespace Heading

/-! ### The wishes of headings -/

/-- What decides the id of a heading: an id that it has, an id at the end of its text, or its text. -/
inductive Wish where
  | own (id : String)
  | custom (id : String)
  | slug (text : String)
deriving DecidableEq, Repr

/-- What a heading brings along. -/
def wish (e : Element) : Wish :=
  match e.id? with
  | some id => .own id
  | none =>
    match customId? e.children with
    | some (id, _) => .custom id
    | none => .slug e.textContent

/-- The content of a heading without the id at the end of its text. -/
def content (e : Element) : List Node := (identify .empty e).2.1

theorem sizeAll_content (e : Element) : Node.sizeAll (content e) = Node.sizeAll e.children :=
  sizeAll_identify .empty e

/-- What the headings of a forest bring along, in document order. An id is taken off the text of a heading before the
headings within it are looked at. -/
def wishes (forest : List Node) : List Wish :=
  match forest with
  | [] => []
  | .element t p cs :: ns =>
    if (Element.headingLevel? ⟨t, p, cs⟩).isSome then
      wish ⟨t, p, cs⟩ :: wishes (content ⟨t, p, cs⟩) ++ wishes ns
    else wishes cs ++ wishes ns
  | .root _ :: ns | .text _ :: ns => wishes ns
termination_by Node.sizeAll forest
decreasing_by
  all_goals simp only [Node.sizeAll, Node.size, sizeAll_content]; omega

namespace Wish

/-- The id that a wish gets, and the ids that are taken then. -/
def grant (s : Slugger) : Wish → String × Slugger
  | own id => (id, s)
  | custom id => (id, s.reserve id)
  | slug text => s.slug text

def own? : Wish → Option String
  | own id => some id
  | _ => none

/-- The ids that the wishes get from left to right, and the ids that are taken then. -/
def grantAll (s : Slugger) : List Wish → List String × Slugger
  | [] => ([], s)
  | w :: ws => ((w.grant s).1 :: (grantAll (w.grant s).2 ws).1, (grantAll (w.grant s).2 ws).2)

/-- The ids of their own among wishes. -/
def owned (ws : List Wish) : List String := ws.filterMap own?

variable {s : Slugger} {w : Wish} {ws : List Wish} {id : String}

theorem grantAll_append (s : Slugger) (ws vs : List Wish) :
    grantAll s (ws ++ vs) =
      ((grantAll s ws).1 ++ (grantAll (grantAll s ws).2 vs).1, (grantAll (grantAll s ws).2 vs).2) := by
  induction ws generalizing s with
  | nil => rfl
  | cons w ws ih => simp [grantAll, ih]

theorem length_grantAll (s : Slugger) (ws : List Wish) : (grantAll s ws).1.length = ws.length := by
  induction ws generalizing s with
  | nil => rfl
  | cons w ws ih => simp [grantAll, ih]

theorem isTaken_grant_of_isTaken (h : s.isTaken id = true) : (w.grant s).2.isTaken id = true := by
  cases w with
  | own i => exact h
  | custom i => exact Slugger.isTaken_reserve.2 (.inr h)
  | slug t => exact (Slugger.isTaken_slug s t).2 (.inr h)

theorem isTaken_grantAll_of_isTaken (h : s.isTaken id = true) : (grantAll s ws).2.isTaken id = true := by
  induction ws generalizing s with
  | nil => exact h
  | cons w ws ih => exact ih (isTaken_grant_of_isTaken h)

/-- An id that was handed out is taken, if those of their own are taken from the start. -/
theorem isTaken_grantAll_of_mem (hs : ∀ i ∈ owned ws, s.isTaken i = true) (h : id ∈ (grantAll s ws).1) :
    (grantAll s ws).2.isTaken id = true := by
  induction ws generalizing s with
  | nil => simp [grantAll] at h
  | cons w ws ih =>
    rcases List.mem_cons.1 h with rfl | h
    · show (grantAll (w.grant s).2 ws).2.isTaken (w.grant s).1 = true
      refine isTaken_grantAll_of_isTaken ?_
      cases w with
      | own i => exact hs i (by simp [owned, own?])
      | custom i => exact Slugger.isTaken_reserve.2 (.inl rfl)
      | slug t => exact (Slugger.isTaken_slug s t).2 (.inl rfl)
    · refine ih (fun i hi => isTaken_grant_of_isTaken (hs i ?_)) h
      cases w <;> simp_all [owned, own?]

/-- An id that was handed out was wished for, or was not taken before. -/
theorem mem_grantAll (h : id ∈ (grantAll s ws).1) :
    id ∈ owned ws ∨ .custom id ∈ ws ∨ s.isTaken id = false := by
  induction ws generalizing s with
  | nil => simp [grantAll] at h
  | cons w ws ih =>
    rcases List.mem_cons.1 h with rfl | h
    · cases w with
      | own i => exact .inl (by simp [owned, own?, grant])
      | custom i => exact .inr (.inl (by simp [grant]))
      | slug t => exact .inr (.inr (Slugger.slug_not_isTaken s t))
    · rcases ih h with h | h | h
      · exact .inl (by cases w <;> simp_all [owned, own?])
      · exact .inr (.inl (List.mem_cons_of_mem _ h))
      · refine .inr (.inr (Bool.eq_false_iff.2 fun ht => ?_))
        rw [isTaken_grant_of_isTaken ht] at h
        cases h

theorem getElem?_grantAll_own {i : Nat} (h : ws[i]? = some (.own id)) : (grantAll s ws).1[i]? = some id := by
  induction ws generalizing s i with
  | nil => simp at h
  | cons w ws ih =>
    cases i with
    | zero => obtain rfl : w = .own id := by simpa using h
              rfl
    | succ i => exact ih (by simpa using h)

theorem getElem?_grantAll_custom {i : Nat} (h : ws[i]? = some (.custom id)) :
    (grantAll s ws).1[i]? = some id := by
  induction ws generalizing s i with
  | nil => simp at h
  | cons w ws ih =>
    cases i with
    | zero => obtain rfl : w = .custom id := by simpa using h
              rfl
    | succ i => exact ih (by simpa using h)

/-- No id at the end of a text is one that a heading has, or one that was handed out before. -/
def CustomFree (ws : List Wish) (ids : List String) : Prop :=
  ∀ i c, ws[i]? = some (.custom c) → c ∉ owned ws ∧ c ∉ ids.take i

theorem CustomFree.init (h : CustomFree (ws ++ [w]) (grantAll s (ws ++ [w])).1) :
    CustomFree ws (grantAll s ws).1 := by
  intro i c hi
  have hlt : i < ws.length := (List.getElem?_eq_some_iff.1 hi).1
  obtain ⟨h₁, h₂⟩ := h i c (by rw [List.getElem?_append_left hlt, hi])
  refine ⟨fun hc => h₁ (by simp [owned] at hc ⊢; exact .inl hc), fun hc => h₂ ?_⟩
  rw [grantAll_append, List.take_append_of_le_length (by rw [length_grantAll]; omega)]
  exact hc

/-- Ids that are of their own or free are handed out once. -/
theorem nodup_grantAll (hs : ∀ i ∈ owned ws, s.isTaken i = true) (hnd : (owned ws).Nodup)
    (hfree : CustomFree ws (grantAll s ws).1) : (grantAll s ws).1.Nodup := by
  -- wish by wish from the left: the last id is none of those before it
  induction ws using List.reverseRecOn with
  | nil => simp [grantAll]
  | append_singleton ws w ih =>
    have hown : owned (ws ++ [w]) = owned ws ++ owned [w] := by simp [owned]
    rw [hown] at hs hnd
    have hs' : ∀ i ∈ owned ws, s.isTaken i = true := fun i hi => hs i (List.mem_append_left _ hi)
    have ih := ih hs' (List.nodup_append.1 hnd).1 hfree.init
    rw [grantAll_append]
    refine List.nodup_append.2 ⟨ih, by simp [grantAll], fun a ha b hb => ?_⟩
    obtain rfl : b = (w.grant (grantAll s ws).2).1 := by simpa [grantAll] using hb
    rintro rfl
    cases hw : w with
    | own c =>
      subst hw
      rcases mem_grantAll ha with hc | hc | hc
      · exact (List.nodup_append.1 hnd).2.2 c hc c (by simp [owned, own?]) rfl
      · obtain ⟨i, hi⟩ := List.mem_iff_getElem?.1 hc
        have hlt : i < ws.length := (List.getElem?_eq_some_iff.1 hi).1
        refine (hfree i c (by rw [List.getElem?_append_left hlt]; exact hi)).1 ?_
        rw [hown]
        simp [owned, own?]
      · have := hs c (by simp [owned, own?])
        simp only [grant] at hc
        rw [this] at hc
        cases hc
    | custom c =>
      subst hw
      refine (hfree ws.length c (by simp)).2 ?_
      rw [grantAll_append, ← length_grantAll s ws, List.take_left]
      exact ha
    | slug t =>
      subst hw
      have := isTaken_grantAll_of_mem hs' ha
      rw [grant, Slugger.slug_not_isTaken] at this
      cases this

/-- What is handed out once was free. -/
theorem customFree_of_nodup (hnd : (grantAll s ws).1.Nodup) : CustomFree ws (grantAll s ws).1 := by
  intro i c hi
  have hc := getElem?_grantAll_custom (s := s) hi
  have hlt := (List.getElem?_eq_some_iff.1 hc).1
  refine ⟨fun ho => ?_, fun ht => ?_⟩
  · obtain ⟨w, hw, hwc⟩ := List.mem_filterMap.1 ho
    obtain rfl : w = .own c := by cases w <;> simp_all [own?]
    obtain ⟨k, hk⟩ := List.mem_iff_getElem?.1 hw
    have hck := getElem?_grantAll_own (s := s) hk
    obtain rfl : i = k := (List.getElem?_inj hlt hnd).1 (hc.trans hck.symm)
    simp [hi] at hk
  · obtain ⟨k, hk⟩ := List.mem_iff_getElem?.1 ht
    rw [List.getElem?_take] at hk
    split at hk
    · rename_i hki
      obtain rfl : i = k := (List.getElem?_inj hlt hnd).1 (hc.trans hk.symm)
      omega
    · cases hk

theorem nodup_grantAll_iff (hs : ∀ i ∈ owned ws, s.isTaken i = true) (hnd : (owned ws).Nodup) :
    (grantAll s ws).1.Nodup ↔ CustomFree ws (grantAll s ws).1 :=
  ⟨customFree_of_nodup, nodup_grantAll hs hnd⟩

end Wish

/-! ### What no text decides -/

theorem customId?_eq_some {cs ds : List Node} {id : String} (h : customId? cs = some (id, ds)) :
    ∃ v rest, lastTextAll? cs = some v ∧ Slug.extractCustomId v = (rest, some id) ∧ ds = setLastTextAll rest cs := by
  unfold customId? at h
  split at h
  · cases h
  · rename_i v last
    split at h
    · rename_i rest id' extracted
      cases h
      exact ⟨v, rest, last, extracted, rfl⟩
    · cases h

/-- `f` is the same for forests that differ in their texts alone. -/
structure SeesNoText {α : Type} (f : List Node → α) : Prop where
  text (v w : String) : f [.text v] = f [.text w]
  element (t : String) (p : Properties) {cs ds : List Node} : f cs = f ds → f [.element t p cs] = f [.element t p ds]
  cons {n m : Node} {ns ms : List Node} : f [n] = f [m] → f ns = f ms → f (n :: ns) = f (m :: ms)

namespace SeesNoText

variable {α : Type} {f : List Node → α}

mutual

theorem setLastText (hf : SeesNoText f) (s : String) : (n : Node) → f [Heading.setLastText s n] = f [n]
  | .text v => hf.text s v
  | .root _ => rfl
  | .element t p cs => hf.element t p (hf.setLastTextAll s cs)

/-- Replacing the last text changes nothing else. -/
theorem setLastTextAll (hf : SeesNoText f) (s : String) : (ns : List Node) → f (Heading.setLastTextAll s ns) = f ns
  | [] => rfl
  | n :: ns => by
    rw [Heading.setLastTextAll]
    split
    · exact hf.cons rfl (hf.setLastTextAll s ns)
    · exact hf.cons (hf.setLastText s n) rfl

end

/-- Finding the id of a heading replaces at most the last text. -/
theorem content (hf : SeesNoText f) (e : Element) : f (Heading.content e) = f e.children := by
  unfold Heading.content identify
  split
  · rfl
  · split
    · rename_i found
      obtain ⟨-, rest, -, -, rfl⟩ := customId?_eq_some found
      exact hf.setLastTextAll rest _
    · rfl

end SeesNoText

/-! ### From the tree to the list -/

theorem presentIds_cons (n : Node) (ns : List Node) : presentIds (n :: ns) = presentIds [n] ++ presentIds ns := by
  simp [presentIds, Node.elementsAll]

theorem presentIds_heading {t : String} {p : Properties} {cs : List Node}
    (h : (Element.headingLevel? ⟨t, p, cs⟩).isSome) (q : Properties) (ds : List Node) :
    presentIds [.element t q ds] = (Element.id? ⟨t, q, ds⟩).toList ++ presentIds ds := by
  have h : (Element.headingLevel? ⟨t, q, ds⟩).isSome := h
  simp only [presentIds, Node.elementsAll, Node.elements, List.append_nil, List.filterMap_cons, h, if_true]
  cases Element.id? ⟨t, q, ds⟩ <;> rfl

theorem presentIds_plain {t : String} {p : Properties} {cs : List Node}
    (h : ¬ (Element.headingLevel? ⟨t, p, cs⟩).isSome) (q : Properties) (ds : List Node) :
    presentIds [.element t q ds] = presentIds ds := by
  have h : ¬ (Element.headingLevel? ⟨t, q, ds⟩).isSome := h
  simp [presentIds, Node.elementsAll, Node.elements, h]

theorem seesNoText_presentIds : SeesNoText presentIds where
  text _ _ := rfl
  element t p {cs ds} same := by
    by_cases h : (Element.headingLevel? ⟨t, p, cs⟩).isSome
    · rw [presentIds_heading h, presentIds_heading h, same]
      rfl
    · rw [presentIds_plain h, presentIds_plain h, same]
  cons {n m ns ms} first rest := by rw [presentIds_cons, presentIds_cons m, first, rest]

theorem identify_eq (s : Slugger) (e : Element) :
    identify s e = (((wish e).grant s).1, content e, ((wish e).grant s).2) := by
  unfold content identify wish
  cases e.id? with
  | some id => rfl
  | none => cases customId? e.children <;> rfl

theorem own?_wish (e : Element) : (wish e).own? = e.id? := by
  unfold wish
  split
  · rename_i h
    rw [h]; rfl
  · rename_i h
    rw [h]
    split <;> rfl

/-- The ids that headings have are the wishes of their own. -/
theorem owned_wishes (forest : List Node) : Wish.owned (wishes forest) = presentIds forest := by
  fun_induction wishes forest with
  | case1 => rfl
  | case2 t p cs ns h ih₁ ih₂ =>
    rw [seesNoText_presentIds.content] at ih₁
    rw [presentIds_cons, presentIds_heading h, ← ih₁, ← ih₂, ← own?_wish]
    cases hw : (wish ⟨t, p, cs⟩).own? <;> simp [Wish.owned, hw]
  | case3 t p cs ns h ih₁ ih₂ =>
    rw [presentIds_cons, presentIds_plain h, ← ih₁, ← ih₂]
    simp [Wish.owned]
  | case4 ns cs ih => exact ih
  | case5 ns v ih => exact ih

/-- An id at the end of a text is not empty. -/
theorem ne_empty_of_extractCustomId {s rest id : String} (h : Slug.extractCustomId s = (rest, some id)) : id ≠ "" := by
  unfold Slug.extractCustomId at h
  split at h
  · rename_i before cs hcs
    obtain ⟨-, hid⟩ := Prod.mk.inj h
    obtain rfl := Option.some.inj hid
    unfold Slug.customId? at hcs
    split at hcs
    · split at hcs
      · split at hcs
        · rename_i hne
          obtain ⟨-, rfl⟩ := Prod.mk.inj (Option.some.inj hcs)
          intro he
          simp [String.ofList_eq_empty_iff.1 he] at hne
        · cases hcs
      · cases hcs
    · cases hcs
  · cases (Prod.mk.inj h).2

theorem grant_wish_ne_empty (s : Slugger) (e : Element) : ((wish e).grant s).1 ≠ "" := by
  unfold wish
  split
  · rename_i id h
    unfold Element.id? at h
    have := (Option.filter_eq_some_iff.1 h).2
    rintro rfl
    simp at this
  · split
    · rename_i h
      obtain ⟨_, _, -, hs, -⟩ := customId?_eq_some h
      exact ne_empty_of_extractCustomId hs
    · exact Slugger.slug_ne_empty s _

/-- The properties of a heading with its id. -/
def withId (id : String) (e : Element) : Properties :=
  if e.id?.isSome then e.properties else e.properties.set "id" (.text id)

/-- The step of the walk at an element that is no heading. -/
theorem assignAll_plain {t : String} {p : Properties} {cs : List Node}
    (h : Element.headingLevel? ⟨t, p, cs⟩ = none) (s : Slugger) (ns : List Node) :
    assignAll s (.element t p cs :: ns) =
      let below := assignAll s cs
      let after := assignAll below.slugger ns
      ⟨.element t p below.nodes :: after.nodes, below.entries ++ after.entries, after.slugger⟩ := by
  rw [assignAll, h]

/-- The step of the walk at a heading. -/
theorem assignAll_heading {t : String} {p : Properties} {cs : List Node} {depth : Nat}
    (h : Element.headingLevel? ⟨t, p, cs⟩ = some depth) (s : Slugger) (ns : List Node) :
    assignAll s (.element t p cs :: ns) =
      let granted := (wish ⟨t, p, cs⟩).grant s
      let text := String.ofList (Text.trim (Node.joined (Node.textsAll (content ⟨t, p, cs⟩))).toList)
      let below := assignAll granted.2 (content ⟨t, p, cs⟩)
      let after := assignAll below.slugger ns
      ⟨.element t (withId granted.1 ⟨t, p, cs⟩) below.nodes :: after.nodes,
        ⟨depth, granted.1, text⟩ :: below.entries ++ after.entries, after.slugger⟩ := by
  rw [assignAll, h]
  simp only [identify_eq]
  rfl

theorem assignAll_text (s : Slugger) (v : String) (ns : List Node) :
    assignAll s (.text v :: ns) =
      ⟨.text v :: (assignAll s ns).nodes, (assignAll s ns).entries, (assignAll s ns).slugger⟩ := by
  rw [assignAll]
  intro t p cs h
  cases h

theorem assignAll_root (s : Slugger) (cs ns : List Node) :
    assignAll s (.root cs :: ns) =
      ⟨.root cs :: (assignAll s ns).nodes, (assignAll s ns).entries, (assignAll s ns).slugger⟩ := by
  rw [assignAll]
  intro t p cs h
  cases h

/-- Giving ids to headings changes only their properties and texts. -/
theorem SeesNoText.assignAll {α : Type} {f : List Node → α} (hf : SeesNoText f)
    (properties : ∀ t p q cs, f [.element t p cs] = f [.element t q cs]) (s : Slugger) (forest : List Node) :
    f (Heading.assignAll s forest).nodes = f forest := by
  induction forest using wishes.induct generalizing s with
  | case1 => rw [Heading.assignAll]
  | case2 t p cs ns h ih₁ ih₂ =>
    obtain ⟨depth, hd⟩ := Option.isSome_iff_exists.1 h
    rw [assignAll_heading hd]
    exact hf.cons ((properties ..).trans (hf.element t p ((ih₁ _).trans (hf.content _)))) (ih₂ _)
  | case3 t p cs ns h ih₁ ih₂ =>
    rw [assignAll_plain (Option.not_isSome_iff_eq_none.1 h)]
    exact hf.cons (hf.element t p (ih₁ _)) (ih₂ _)
  | case4 cs ns ih =>
    rw [assignAll_root]
    exact hf.cons rfl (ih _)
  | case5 v ns ih =>
    rw [assignAll_text]
    exact hf.cons rfl (ih _)

/-- The walk hands out the ids that its wishes get. -/
theorem assignAll_eq_grantAll (s : Slugger) (forest : List Node) :
    (assignAll s forest).entries.map (·.slug) = (Wish.grantAll s (wishes forest)).1 ∧
      (assignAll s forest).slugger = (Wish.grantAll s (wishes forest)).2 := by
  induction forest using wishes.induct generalizing s with
  | case1 => simp [assignAll, wishes, Wish.grantAll]
  | case2 t p cs ns h ih₁ ih₂ =>
    obtain ⟨depth, hd⟩ := Option.isSome_iff_exists.1 h
    rw [assignAll_heading hd, wishes, if_pos h]
    simp only [List.cons_append, Wish.grantAll, Wish.grantAll_append, List.map_cons, List.map_append]
    rw [(ih₁ _).1, (ih₂ _).1, (ih₂ _).2, (ih₁ _).2]
    exact ⟨rfl, rfl⟩
  | case3 t p cs ns h ih₁ ih₂ =>
    rw [assignAll_plain (by simpa using h), wishes, if_neg h]
    simp only [Wish.grantAll_append, List.map_append]
    rw [(ih₁ _).1, (ih₂ _).1, (ih₂ _).2, (ih₁ _).2]
    exact ⟨rfl, rfl⟩
  | case4 ns cs ih => rw [assignAll_root, wishes]; exact ih s
  | case5 ns v ih => rw [assignAll_text, wishes]; exact ih s

theorem id?_withId (s : Slugger) (e : Element) (cs : List Node) :
    Element.id? ⟨e.tag, withId ((wish e).grant s).1 e, cs⟩ = some ((wish e).grant s).1 := by
  have hne := grant_wish_ne_empty s e
  cases h : e.id? with
  | some id =>
    have hw : wish e = .own id := by unfold wish; rw [h]
    rw [hw, withId, h]
    exact h
  | none =>
    rw [withId, h]
    simp [Element.id?, Element.text?, Properties.get?_set, PropertyValue.text?, hne]

/-- After the walk every heading has an id, and the ids of the headings are the listed ones in order. -/
theorem ids_assignAll (s : Slugger) (forest : List Node) :
    (∀ e ∈ Node.elementsAll (assignAll s forest).nodes, e.headingLevel?.isSome → e.id?.isSome) ∧
      presentIds (assignAll s forest).nodes = (assignAll s forest).entries.map (·.slug) := by
  induction forest using wishes.induct generalizing s with
  | case1 => simp [assignAll, Node.elementsAll, presentIds]
  | case2 t p cs ns h ih₁ ih₂ =>
    obtain ⟨depth, hd⟩ := Option.isSome_iff_exists.1 h
    rw [assignAll_heading hd]
    have hid := fun ds => id?_withId s ⟨t, p, cs⟩ ds
    refine ⟨?_, ?_⟩
    · simp only [Node.elementsAll, Node.elements, List.cons_append, List.mem_cons, List.mem_append]
      rintro e (rfl | he | he)
      · intro _
        rw [hid]; rfl
      · exact (ih₁ _).1 e he
      · exact (ih₂ _).1 e he
    · simp only [List.cons_append, List.map_cons, List.map_append]
      rw [presentIds_cons, presentIds_heading h, hid, (ih₁ _).2, (ih₂ _).2]
      rfl
  | case3 t p cs ns h ih₁ ih₂ =>
    rw [assignAll_plain (by simpa using h)]
    refine ⟨?_, ?_⟩
    · simp only [Node.elementsAll, Node.elements, List.cons_append, List.mem_cons, List.mem_append]
      rintro e (rfl | he | he)
      · exact fun hl => absurd hl h
      · exact (ih₁ _).1 e he
      · exact (ih₂ _).1 e he
    · rw [presentIds_cons, presentIds_plain h, (ih₁ _).2, (ih₂ _).2, List.map_append]
  | case4 ns cs ih => rw [assignAll_root]; exact ih s
  | case5 ns v ih => rw [assignAll_text]; exact ih s

/-- Where the headings of a tree have different ids, as far as they have any, all of them have an id afterwards and the
list of headings names these ids in order. The ids are different exactly if no id at the end of a text is one that a
heading had or one that was handed out before. -/
theorem nodup_assign_iff (tree : Node) (h : (presentIds tree.children).Nodup) :
    let after := (assign tree).1
    let slugs := (assign tree).2.map (·.slug)
    (∀ e ∈ Node.elementsAll after.children, e.headingLevel?.isSome → e.id?.isSome) ∧
      presentIds after.children = slugs ∧
      (slugs.Nodup ↔ ∀ i id, (wishes tree.children)[i]? = some (.custom id) →
        id ∉ presentIds tree.children ∧ id ∉ slugs.take i) := by
  set s := (presentIds tree.children).foldl Slugger.reserve .empty with hs
  have hchildren : (assign tree).1.children = (assignAll s tree.children).nodes := by
    cases tree with
    | root cs => rfl
    | element t p cs => rfl
    | text v => simp [assign, withChildren, Node.children, assignAll]
  have hentries : (assign tree).2 = (assignAll s tree.children).entries := rfl
  obtain ⟨hall, hids⟩ := ids_assignAll s tree.children
  simp only [hchildren, hentries]
  refine ⟨hall, hids, ?_⟩
  rw [(assignAll_eq_grantAll s tree.children).1, Wish.nodup_grantAll_iff, Wish.CustomFree, owned_wishes]
  · intro id hid
    rw [owned_wishes] at hid
    exact (Slugger.isTaken_foldl_reserve _ _).2 (.inl hid)
  · rw [owned_wishes]
    exact h

/-- An id at the end of a text is not looked up: it repeats the slug of an earlier heading. -/
theorem assign_repeats_custom_id :
    let tree : Node := .root [.element "h2" .empty [.text "Intro"], .element "h2" .empty [.text "Other \x7b#intro\x7d"]]
    (presentIds tree.children).Nodup ∧ presentIds (assign tree).1.children = ["intro", "intro"] ∧
      (assign tree).2.map (·.slug) = ["intro", "intro"] := by
  decide +kernel

/-- A heading with an id, one with an id at the end of its text, and two whose slugs need numbers. -/
def mixedHeadings : Node :=
  .root [.element "h2" .empty [.text "Intro"],
    .element "h3" .empty [.text "Setup ", .element "em" .empty [.text "\x7b#intro-2\x7d"]],
    .element "blockquote" .empty [.element "h2" .empty [.text "Intro"]],
    .element "h2" (.ofList [("id", .text "intro")]) [.text "Hello"]]

theorem nodup_assign_mixedHeadings :
    (presentIds mixedHeadings.children).Nodup ∧ ((assign mixedHeadings).2.map (·.slug)).Nodup := by
  have hnd : (presentIds mixedHeadings.children).Nodup := by decide +kernel
  refine ⟨hnd, (nodup_assign_iff mixedHeadings hnd).2.2.2 fun i id hi => ?_⟩
  have hw : wishes mixedHeadings.children = [.slug "Intro", .custom "intro-2", .slug "Intro", .own "intro"] := by
    decide +kernel
  rw [hw] at hi
  match i with
  | 1 =>
    obtain rfl : id = "intro-2" := by simpa using hi.symm
    decide +kernel
  | 0 | 2 | 3 | i + 4 => simp at hi

end Heading

end Folio
