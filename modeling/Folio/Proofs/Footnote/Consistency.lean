import Folio.Proofs.Footnote.Page
import Folio.Proofs.Text

/-!
# When the links of footnotes are consistent

`Consistent` says what a reader expects of footnotes: links lead to the item with the number that they show, and every
item has one link back for each link to it. The items are counted when the body has been rendered; links within
footnotes come later, start again with the number one and are never counted. `consistent_render_iff` says that this is
what goes wrong, together with identifiers that differ in white space only.
-/

namespace Folio.Rendering

open Html

/-- Does a link lead to an item? -/
def pointsTo (item l : Element) : Bool := (item.text? "id").any fun id => l.text? "href" = some ("#" ++ id)

/-- The links of a page to its footnotes are consistent, where the references have these identifiers. -/
structure Consistent (ids : List String) (page : Html.Node) : Prop where
  /-- There is a link for each reference, in this order. -/
  each : (links page).length = ids.length
  /-- A link leads to an item and shows the place of this item. -/
  leads : ∀ l ∈ links page, ∃ k item, (items page)[k]? = some item ∧ pointsTo item l = true ∧
    l.textContent = toString (k + 1)
  /-- Two references show the same number exactly if their identifiers are the same but for case. -/
  same : ∀ (i j : Nat) (x y : String) (l m : Element), ids[i]? = some x → ids[j]? = some y →
    (links page)[i]? = some l → (links page)[j]? = some m →
    (l.textContent = m.textContent ↔ foldCase x = foldCase y)
  /-- An item has one link back for each link to it. -/
  counted : ∀ item ∈ items page, (backLinks item).length = ((links page).filter (pointsTo item)).length
  /-- A link back names a link to the item. -/
  named : ∀ item ∈ items page, ∀ b ∈ backLinks item, ∃ l ∈ links page, pointsTo item l = true ∧
    ∃ id, l.text? "id" = some id ∧ b.text? "href" = some ("#" ++ id)

/-! ### Links and items by their identifiers -/

section
variable (key id : String) (ordinal occurrence : Nat)

theorem href_referenceLink :
    (referenceLink key ordinal occurrence).text? "href" = some ("#" ++ noteId (footnoteId key)) := rfl

theorem id_referenceLink :
    (referenceLink key ordinal occurrence).text? "id" = some (referenceId (footnoteId key) occurrence) := rfl

theorem textContent_referenceLink : (referenceLink key ordinal occurrence).textContent = toString ordinal := by
  simp [referenceLink, Element.textContent, Node.textsAll, Node.texts, Node.joined]

theorem href_backElement : (backElement id occurrence).text? "href" = some ("#" ++ referenceId id occurrence) := rfl

end

theorem noteId_inj {a b : String} : noteId a = noteId b ↔ a = b := String.append_right_inj _

/-- A link leads to the items whose identifiers make the same id. -/
theorem pointsTo_referenceLink {item : Element} {k : String} (h : item.text? "id" = some (noteId (footnoteId k)))
    (key : String) (ordinal occurrence : Nat) :
    pointsTo item (referenceLink key ordinal occurrence) = decide (footnoteId key = footnoteId k) := by
  rw [pointsTo, h, href_referenceLink]
  simp [noteId_inj]

theorem length_filter_pointsTo {item : Element} {k : String} (h : item.text? "id" = some (noteId (footnoteId k)))
    (c : Context) (ids : List String) :
    ((c.tally ids).1.filter (pointsTo item)).length =
      (ids.map foldCase).countP fun key => footnoteId key = footnoteId k := by
  induction ids generalizing c with
  | nil => rfl
  | cons id ids ih =>
    rw [Context.tally_cons, List.filter_cons, List.map_cons, List.countP_cons, pointsTo_referenceLink h,
      ← ih (c.reference id).2]
    split <;> simp

/-- If what an identifier counts for is counted only as this identifier, there is no other of that kind. -/
theorem eq_of_countP_le_count {q : String → Bool} {k : String} (hk : q k = true) {keys : List String}
    (h : keys.countP q ≤ keys.count k) : ∀ x ∈ keys, q x = true → x = k := by
  induction keys with
  | nil => simp
  | cons a keys ih =>
    have mono : keys.count k ≤ keys.countP q :=
      List.countP_mono_left fun x _ hx => by rw [LawfulBEq.eq_of_beq hx, hk]
    rw [List.countP_cons, List.count_cons] at h
    by_cases ha : a = k
    · subst ha
      simp only [hk, if_true, beq_self_eq_true] at h
      exact fun x hx hq => (List.mem_cons.1 hx).elim id (ih (by omega) x · hq)
    · have no : ¬ q a = true := by
        intro hq
        simp only [hq, if_true, beq_false_of_ne ha] at h
        simp at h
        omega
      simp only [no, beq_false_of_ne ha] at h
      intro x hx hq
      rcases List.mem_cons.1 hx with rfl | hx
      · exact absurd hq no
      · exact ih (by simpa using h) x hx hq

/-- Among the occurrences of an identifier there is one of each number. -/
theorem exists_occurrence {k : String} {keys : List String} {n : Nat} (h : n < keys.count k) :
    ∃ i, keys[i]? = some k ∧ (keys.take (i + 1)).count k = n + 1 := by
  induction keys using List.reverseRecOn with
  | nil => simp at h
  | append_singleton keys a ih =>
    rcases Nat.lt_or_ge n (keys.count k) with hn | hn
    · obtain ⟨i, hi, hc⟩ := ih hn
      have lt := (List.getElem?_eq_some_iff.1 hi).1
      exact ⟨i, by rwa [List.getElem?_append_left lt], by rwa [List.take_append_of_le_length lt]⟩
    · rw [List.count_append, List.count_singleton] at h
      have ha : a = k := by
        by_contra ha
        rw [if_neg (by simpa using ha)] at h
        omega
      subst ha
      rw [if_pos (beq_self_eq_true a)] at h
      refine ⟨keys.length, by simp, ?_⟩
      rw [List.take_of_length_le (by simp), List.count_append, List.count_singleton_self]
      omega

/-! ### The page -/

variable {body : List Markdown.Node}

/-- What is known of the page: its links are those of two tallies, its items are those of the listed footnotes. -/
structure Shown (body : List Markdown.Node) (page : Html.Node) (c c' : Context) : Prop where
  fresh : c.Counted []
  links_eq : links page = (c.tally (allReferences body)).1 ++ (c'.tally (nestedReferences body)).1
  items_eq : (items page).map itemView = (listedNotes body).map noteView

namespace Shown
variable {page : Html.Node} {c c' : Context}

/-- Every item is one of an identifier that the body refers to. -/
theorem item (h : Shown body page c c') {item : Element} (hi : item ∈ items page) :
    ∃ k ∈ bodyKeys body, item.text? "id" = some (noteId (footnoteId k)) ∧
      backLinks item = (List.range ((bodyKeys body).count k)).map fun i => backElement (footnoteId k) (i + 1) := by
  have mem : itemView item ∈ (listedNotes body).map noteView := h.items_eq ▸ List.mem_map_of_mem hi
  obtain ⟨note, hn, hv⟩ := List.mem_map.1 mem
  obtain ⟨k, hk, rfl⟩ := List.mem_map.1 hn
  rw [itemView, noteView, Prod.mk.injEq, Prod.mk.injEq] at hv
  exact ⟨k, List.mem_eraseDups.1 hk, hv.2.1.symm, hv.2.2.symm⟩

/-- Every identifier that the body refers to has an item, at its place in the order of the first references. -/
theorem getElem?_items (h : Shown body page c c') {k : String} (hk : k ∈ bodyKeys body) :
    ∃ item, (items page)[(bodyKeys body).eraseDups.idxOf k]? = some item ∧
      item.text? "id" = some (noteId (footnoteId k)) ∧ (backLinks item).length = (bodyKeys body).count k := by
  have view : ((items page).map itemView)[(bodyKeys body).eraseDups.idxOf k]? =
      some (noteView ⟨k, (bodyKeys body).count k, (note? body k).getD []⟩) := by
    rw [h.items_eq, listedNotes, List.getElem?_map, List.getElem?_map,
      List.getElem?_idxOf (List.mem_eraseDups.2 hk)]
    rfl
  rw [List.getElem?_map, Option.map_eq_some_iff] at view
  obtain ⟨item, hitem, hv⟩ := view
  rw [itemView, noteView, Prod.mk.injEq, Prod.mk.injEq] at hv
  exact ⟨item, hitem, hv.2.1, by rw [hv.2.2, backElements, List.length_map, List.length_range]⟩

theorem length_filter_links (h : Shown body page c c') {item : Element} {k : String}
    (hi : item.text? "id" = some (noteId (footnoteId k))) :
    ((links page).filter (pointsTo item)).length =
      ((bodyKeys body).countP fun key => footnoteId key = footnoteId k) +
        ((nestedReferences body).map foldCase).countP fun key => footnoteId key = footnoteId k := by
  rw [h.links_eq, List.filter_append, List.length_append, length_filter_pointsTo hi, length_filter_pointsTo hi]
  rfl

/-- What is counted agrees only if nothing is referred to within a listed footnote, and identifiers of the body that
make the same id are the same. -/
theorem separate (h : Shown body page c c') (hc : Consistent ids page) :
    nestedReferences body = [] ∧ ∀ x ∈ bodyKeys body, ∀ y ∈ bodyKeys body, footnoteId x = footnoteId y → x = y := by
  have count : ∀ k ∈ bodyKeys body, ((bodyKeys body).countP fun key => footnoteId key = footnoteId k) +
      (((nestedReferences body).map foldCase).countP fun key => footnoteId key = footnoteId k) =
        (bodyKeys body).count k := by
    intro k hk
    obtain ⟨item, hat, hid, hback⟩ := h.getElem?_items hk
    rw [← hback, hc.counted item (List.mem_of_getElem? hat), h.length_filter_links hid]
  constructor
  · by_contra hne
    obtain ⟨l, hl⟩ : ∃ l, l ∈ (c'.tally (nestedReferences body)).1 :=
      List.exists_mem_of_length_pos (by rw [Context.length_tally]; exact List.length_pos_iff.2 hne)
    obtain ⟨x, hx, ordinal, occurrence, rfl⟩ := Context.mem_tally hl
    obtain ⟨_, item, hat, hto, _⟩ := hc.leads _ (h.links_eq ▸ List.mem_append_right _ hl)
    obtain ⟨k, hk, hid, _⟩ := h.item (List.mem_of_getElem? hat)
    rw [pointsTo_referenceLink hid, decide_eq_true_eq] at hto
    have nested : 0 < ((nestedReferences body).map foldCase).countP fun key => footnoteId key = footnoteId k :=
      List.countP_pos_iff.2 ⟨foldCase x, List.mem_map_of_mem hx, decide_eq_true hto⟩
    have mono : (bodyKeys body).count k ≤ (bodyKeys body).countP fun key => footnoteId key = footnoteId k :=
      List.countP_mono_left fun y _ hy => by rw [LawfulBEq.eq_of_beq hy]; exact decide_eq_true rfl
    have := count k hk
    omega
  · intro x hx y hy hxy
    refine eq_of_countP_le_count (q := fun key => footnoteId key = footnoteId y) (by simp) ?_ x hx (by simpa using hxy)
    have := count y hy
    omega

/-- Where only the body has references, each has its link. -/
theorem getElem?_links (h : Shown body page c c') (hnested : nestedReferences body = []) {i : Nat} {x : String}
    (hx : (allReferences body)[i]? = some x) :
    (links page)[i]? = some (referenceLink (foldCase x) ((bodyKeys body).eraseDups.idxOf (foldCase x) + 1)
      (((bodyKeys body).take (i + 1)).count (foldCase x))) := by
  rw [h.links_eq, hnested, Context.tally_nil, List.append_nil, Context.getElem?_tally h.fresh _ hx, List.map_take]
  rfl

/-- Without references in footnotes, and if identifiers make ids of their own, everything agrees. -/
theorem consistent (h : Shown body page c c') (hnested : nestedReferences body = [])
    (hinj : ∀ x ∈ bodyKeys body, ∀ y ∈ bodyKeys body, footnoteId x = footnoteId y → x = y) :
    Consistent (allReferences body ++ nestedReferences body) page := by
  have length : (links page).length = (allReferences body).length := by
    rw [h.links_eq, hnested, Context.tally_nil, List.append_nil, Context.length_tally]
  rw [hnested, List.append_nil]
  refine ⟨length, fun l hl => ?_, fun i j x y l m hx hy hl hm => ?_, fun item hitem => ?_, fun item hitem b hb => ?_⟩
  · obtain ⟨i, hi⟩ := List.mem_iff_getElem?.1 hl
    have lt : i < (allReferences body).length := length ▸ (List.getElem?_eq_some_iff.1 hi).1
    have hx := List.getElem?_eq_getElem lt
    obtain rfl := Option.some.inj (hi.symm.trans (h.getElem?_links hnested hx))
    obtain ⟨item, hat, hid, _⟩ := h.getElem?_items (List.mem_map_of_mem (List.mem_of_getElem? hx))
    exact ⟨_, item, hat, by rw [pointsTo_referenceLink hid]; exact decide_eq_true rfl, textContent_referenceLink ..⟩
  · obtain rfl := Option.some.inj (hl.symm.trans (h.getElem?_links hnested hx))
    obtain rfl := Option.some.inj (hm.symm.trans (h.getElem?_links hnested hy))
    have mem : foldCase x ∈ (bodyKeys body).eraseDups :=
      List.mem_eraseDups.2 (List.mem_map_of_mem (List.mem_of_getElem? hx))
    rw [textContent_referenceLink, textContent_referenceLink, Text.toString_inj, Nat.add_right_cancel_iff]
    exact List.idxOf_inj mem
  · obtain ⟨k, hk, hid, hback⟩ := h.item hitem
    rw [hback, List.length_map, List.length_range, h.length_filter_links hid, hnested, List.map_nil, List.countP_nil,
      Nat.add_zero]
    refine List.countP_congr fun x hx => ?_
    rw [beq_iff_eq, decide_eq_true_eq]
    exact ⟨congrArg _, hinj x hx k hk⟩
  · obtain ⟨k, hk, hid, hback⟩ := h.item hitem
    obtain ⟨n, hn, rfl⟩ := List.mem_map.1 (hback ▸ hb)
    obtain ⟨i, hi, hc⟩ := exists_occurrence (List.mem_range.1 hn)
    rw [bodyKeys, List.getElem?_map, Option.map_eq_some_iff] at hi
    obtain ⟨x, hx, rfl⟩ := hi
    have hl := h.getElem?_links hnested hx
    rw [hc] at hl
    exact ⟨_, List.mem_of_getElem? hl, by rw [pointsTo_referenceLink hid]; exact decide_eq_true rfl, _,
      id_referenceLink .., href_backElement ..⟩

end Shown

/-- Is every reference of a document defined outside of other footnotes? -/
def Defined (body : List Markdown.Node) : Prop :=
  ∀ identifier label, .footnoteReference identifier label ∈ Markdown.Node.leavesAll body →
    ∃ d ∈ allOuterNotes body, d.1 = foldCase identifier

/-- A test for documents without markup and with a definition for every reference. -/
def isProper (body : List Markdown.Node) : Bool :=
  (Markdown.Node.leavesAll body).all fun
    | .html _ => false
    | .footnoteReference identifier _ => (allOuterNotes body).any fun d => d.1 = foldCase identifier
    | _ => true

theorem noHtml_of_isProper (h : isProper body = true) : NoHtml (Markdown.Node.leavesAll body) :=
  fun _ hv => Bool.false_ne_true (List.all_eq_true.1 h _ hv)

theorem defined_of_isProper (h : isProper body = true) : Defined body := by
  intro identifier label hl
  obtain ⟨d, hd, hk⟩ := List.any_eq_true.1 (List.all_eq_true.1 h _ hl)
  exact ⟨d, hd, of_decide_eq_true hk⟩

theorem shown_render (options : Options) (p : Option Markdown.Position)
    (hhtml : NoHtml (Markdown.Node.leavesAll body))
    (hdefined : Defined body) :
    ∃ c', Shown body (render options (.branch .root p body)).value (start options p body) c' := by
  have found : ∀ x ∈ allReferences body, (note? body (foldCase x)).isSome := by
    intro x hx
    obtain ⟨label, hl⟩ := leaf_of_allReferences hx
    obtain ⟨d, hd, hk⟩ := hdefined x label hl
    rw [note?, List.lookup_isSome_iff]
    exact ⟨d, hd, by simp [hk]⟩
  obtain ⟨c', -, hlinks, hitems⟩ := links_and_items_render hhtml options p
  rw [foundNotes_eq_listedNotes found] at hitems
  exact ⟨c', counted_start options p body, hlinks, hitems⟩

theorem nestedReferences_eq_nil_iff : nestedReferences body = [] ↔
    ∀ x ∈ allReferences body, ∀ content, note? body (foldCase x) = some content → allReferences content = [] := by
  simp only [nestedReferences, listedNotes, bodyKeys, List.flatMap_eq_nil_iff, List.forall_mem_map,
    List.mem_eraseDups]
  refine forall₂_congr fun x _ => ?_
  cases note? body (foldCase x) with
  | none => simp [allReferences]
  | some content => simp

/-- The links of footnotes are consistent exactly if no footnote that the body refers to has references of its own, and
identifiers that the body refers to differ in more than their white space. -/
theorem consistent_render_iff (options : Options) (p : Option Markdown.Position) (body : List Markdown.Node)
    (hhtml : NoHtml (Markdown.Node.leavesAll body))
    (hdefined : Defined body) :
    Consistent (allReferences body ++ nestedReferences body) (render options (.branch .root p body)).value ↔
      (∀ x ∈ allReferences body, ∀ content, note? body (foldCase x) = some content → allReferences content = []) ∧
      ∀ x ∈ allReferences body, ∀ y ∈ allReferences body, footnoteId (foldCase x) = footnoteId (foldCase y) →
        foldCase x = foldCase y := by
  obtain ⟨c', shown⟩ := shown_render options p hhtml hdefined
  rw [← nestedReferences_eq_nil_iff]
  have keys : (∀ x ∈ bodyKeys body, ∀ y ∈ bodyKeys body, footnoteId x = footnoteId y → x = y) ↔
      ∀ x ∈ allReferences body, ∀ y ∈ allReferences body, footnoteId (foldCase x) = footnoteId (foldCase y) →
        foldCase x = foldCase y := by
    simp only [bodyKeys, List.forall_mem_map]
  rw [← keys]
  exact ⟨shown.separate, fun h => shown.consistent h.1 h.2⟩

/-- A document with two footnotes and three references, one of them in capitals. -/
def twoNotes : List Markdown.Node :=
  [.branch .paragraph none [.leaf (.footnoteReference "A" none) none, .leaf (.footnoteReference "b" none) none],
    .branch (.footnoteDefinition "b" none) none [.branch .paragraph none [.leaf (.text "Second.") none]],
    .branch (.footnoteDefinition "a" none) none [.leaf .thematicBreak none],
    .branch .blockquote none [.branch .paragraph none [.leaf (.footnoteReference "a" none) none]]]

theorem consistent_render_twoNotes :
    NoHtml (Markdown.Node.leavesAll twoNotes) ∧ Defined twoNotes ∧
    Consistent (allReferences twoNotes ++ nestedReferences twoNotes)
      (render {} (.branch .root none twoNotes)).value := by
  have proper : isProper twoNotes = true := by decide +kernel
  have hhtml := noHtml_of_isProper proper
  have hdefined := defined_of_isProper proper
  refine ⟨hhtml, hdefined, (consistent_render_iff {} none twoNotes hhtml hdefined).2 ⟨?_, by decide +kernel⟩⟩
  exact nestedReferences_eq_nil_iff.1 (by decide +kernel)

/-- A footnote that refers to another one. -/
def nestedNote : List Markdown.Node :=
  [.branch .paragraph none [.leaf (.footnoteReference "a" none) none],
    .branch (.footnoteDefinition "a" none) none [.branch .paragraph none [.leaf (.footnoteReference "b" none) none]],
    .branch (.footnoteDefinition "b" none) none [.branch .paragraph none [.leaf (.text "Note.") none]]]

/-- The link within the first footnote leads nowhere: the second one is not listed. -/
theorem not_consistent_render_nestedNote :
    NoHtml (Markdown.Node.leavesAll nestedNote) ∧ Defined nestedNote ∧
    ¬ Consistent (allReferences nestedNote ++ nestedReferences nestedNote)
      (render {} (.branch .root none nestedNote)).value := by
  have proper : isProper nestedNote = true := by decide +kernel
  have hhtml := noHtml_of_isProper proper
  have hdefined := defined_of_isProper proper
  obtain ⟨c', shown⟩ := shown_render {} none hhtml hdefined
  exact ⟨hhtml, hdefined, fun h => absurd (shown.separate h).1 (by decide +kernel)⟩

end Folio.Rendering
