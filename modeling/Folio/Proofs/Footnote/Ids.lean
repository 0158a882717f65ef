import Folio.Proofs.Footnote.Consistency
import Mathlib.Data.List.Nodup

/-!
# The ids of footnotes

A page gives an id to every link to a footnote and to every item of the list of footnotes. The id of a link is that of
its footnote, and from the second link on a number follows behind a hyphen. Nothing looks whether an id is taken, and
an identifier may end in a hyphen and a number itself: `nodup_footnoteIds_iff` says when all ids are distinct.
-/

namespace Folio.Rendering

open Html

/-- The ids of the links to footnotes and of the items. -/
def footnoteIds (page : Html.Node) : List String := (links page ++ items page).filterMap (·.text? "id")

/-- The folded identifiers of the references that a page shows: first those of the body, then those within the listed
footnotes. -/
def shownKeys (body : List Markdown.Node) : List String :=
  (allReferences body ++ nestedReferences body).map foldCase

/-! ### Occurrences -/

/-- References, each with its number among those to its footnote, behind some other ones. -/
def occurrences (before : List String) : List String → List (String × Nat)
  | [] => []
  | key :: keys => (key, before.count key + 1) :: occurrences (before ++ [key]) keys

theorem occurrences_append (before keys keys' : List String) :
    occurrences before (keys ++ keys') = occurrences before keys ++ occurrences (before ++ keys) keys' := by
  induction keys generalizing before with
  | nil => simp [occurrences]
  | cons key keys ih => simp [occurrences, ih]

theorem mem_occurrences {before keys : List String} {key : String} {n : Nat} :
    (key, n) ∈ occurrences before keys ↔ before.count key < n ∧ n ≤ before.count key + keys.count key := by
  induction keys generalizing before with
  | nil => simp [occurrences]
  | cons first keys ih =>
    rw [occurrences, List.mem_cons, ih, Prod.mk.injEq, List.count_append, List.count_singleton, List.count_cons]
    by_cases h : first = key
    · subst h
      simp only [beq_self_eq_true, if_true, true_and]
      omega
    · simp only [beq_false_of_ne h, Ne.symm h, Bool.false_eq_true, if_false, false_and, false_or]
      omega

theorem nodup_occurrences (before keys : List String) : (occurrences before keys).Nodup := by
  induction keys generalizing before with
  | nil => exact List.nodup_nil
  | cons key keys ih =>
    refine List.nodup_cons.2 ⟨?_, ih _⟩
    rw [mem_occurrences, List.count_append, List.count_singleton_self]
    omega

/-- The ids of the links of a tally are made of the references and their numbers. -/
theorem ids_tally {before : List String} {c : Context} (h : ∀ k, c.count k = before.count k) (ids : List String) :
    (c.tally ids).1.filterMap (·.text? "id") =
      (occurrences before (ids.map foldCase)).map fun o => referenceId (footnoteId o.1) o.2 := by
  induction ids generalizing before c with
  | nil => rfl
  | cons id ids ih =>
    have counted (k : String) : (c.reference id).2.count k = (before ++ [foldCase id]).count k := by
      rw [Context.count_reference, h, List.count_append, List.count_singleton]
      simp only [beq_iff_eq, eq_comm (a := k)]
    have first : (c.reference id).1.2 = before.count (foldCase id) + 1 := by rw [← h]; rfl
    rw [Context.tally_cons, List.map_cons, occurrences, List.map_cons, ← ih counted, ← first]
    exact List.filterMap_cons_some (id_referenceLink ..)

/-! ### Ids -/

theorem hyphen_notMem_toString (n : Nat) : '-' ∉ (toString n).toList :=
  fun h => Text.ne_of_mem_toString h (by decide) rfl

/-- The number behind the last hyphen can be read off a text. -/
theorem append_number_inj {a b : String} {m n : Nat} (h : a ++ ("-" ++ toString m) = b ++ ("-" ++ toString n)) :
    a = b ∧ m = n := by
  have chars : a.toList ++ '-' :: (toString m).toList = b.toList ++ '-' :: (toString n).toList := by
    simpa using congrArg String.toList h
  -- Where one part is longer than the other, its rest would put a hyphen into a number.
  have none {s t : List Char} {k : Nat} (rest : '-' :: s = t ++ '-' :: (toString k).toList)
      (digits : '-' ∉ s) : t = [] := by
    cases t with
    | nil => rfl
    | cons c t =>
      obtain ⟨-, rfl⟩ := List.cons.inj rest
      exact absurd (List.mem_append_right t List.mem_cons_self) digits
  have same : a.toList = b.toList := by
    rcases List.append_eq_append_iff.1 chars with ⟨t, left, rest⟩ | ⟨t, left, rest⟩
    · rw [left, none rest (hyphen_notMem_toString m), List.append_nil]
    · rw [left, none rest (hyphen_notMem_toString n), List.append_nil]
  rw [same, List.append_cancel_left_eq, List.cons.injEq, String.toList_inj] at chars
  exact ⟨String.toList_inj.1 same, Text.toString_inj.1 chars.2⟩

theorem referenceId_inj {a b : String} {m n : Nat} : referenceId a m = referenceId b n ↔
    a ++ (if m = 1 then "" else "-" ++ toString m) = b ++ (if n = 1 then "" else "-" ++ toString n) := by
  unfold referenceId
  rw [String.append_assoc, String.append_assoc]
  exact String.append_right_inj _

theorem referenceId_ne_noteId (a b : String) (n : Nat) : referenceId a n ≠ noteId b := by
  intro h
  have link : "user-content-fnref-" = "user-content-fn" ++ "ref-" := by decide +kernel
  have item : "user-content-fn-" = "user-content-fn" ++ "-" := by decide +kernel
  unfold referenceId noteId at h
  rw [link, item, String.append_assoc, String.append_assoc, String.append_assoc] at h
  have rest := (String.append_right_inj _).1 h
  have first := congrArg (fun s => s.toList.head?) rest
  simp at first

/-- Numbered identifiers have ids of their own if these differ without a number, and none is another one with a number
of this one behind it. -/
theorem injOn_referenceId_iff (keys : List String) :
    (∀ o ∈ occurrences [] keys, ∀ o' ∈ occurrences [] keys,
      referenceId (footnoteId o.1) o.2 = referenceId (footnoteId o'.1) o'.2 → o = o') ↔
    (∀ x ∈ keys, ∀ y ∈ keys, footnoteId x = footnoteId y → x = y) ∧
      ∀ x ∈ keys, ∀ y ∈ keys, ∀ n, 2 ≤ n → n ≤ keys.count y → footnoteId x ≠ footnoteId y ++ "-" ++ toString n := by
  have mem (key : String) (n : Nat) : (key, n) ∈ occurrences [] keys ↔ 1 ≤ n ∧ n ≤ keys.count key := by
    rw [mem_occurrences, List.count_nil, Nat.zero_add]
    exact Iff.rfl
  have first {key : String} (h : key ∈ keys) : (key, 1) ∈ occurrences [] keys :=
    (mem key 1).2 ⟨Nat.le_refl 1, List.count_pos_iff.2 h⟩
  constructor
  · intro inj
    refine ⟨fun x hx y hy same => ?_, fun x hx y hy n two le same => ?_⟩
    · have : (x, 1) = (y, 1) := inj _ (first hx) _ (first hy) (by rw [same])
      exact congrArg Prod.fst this
    · have link : referenceId (footnoteId x) 1 = referenceId (footnoteId y) n := by
        rw [referenceId_inj, if_pos rfl, if_neg (by omega), same, String.append_empty, String.append_assoc]
      have : (x, 1) = (y, n) := inj _ (first hx) _ ((mem y n).2 ⟨by omega, le⟩) link
      have := congrArg Prod.snd this
      dsimp only at this
      omega
  · rintro ⟨apart, unnumbered⟩ ⟨x, m⟩ hx ⟨y, n⟩ hy same
    obtain ⟨hm, hm'⟩ := (mem x m).1 hx
    obtain ⟨hn, hn'⟩ := (mem y n).1 hy
    have hx : x ∈ keys := List.count_pos_iff.1 (by omega)
    have hy : y ∈ keys := List.count_pos_iff.1 (by omega)
    rw [referenceId_inj] at same
    by_cases one : m = 1 <;> by_cases one' : n = 1
    · rw [if_pos one, if_pos one', String.append_empty, String.append_empty] at same
      rw [apart x hx y hy same, one, one']
    · rw [if_pos one, if_neg one', String.append_empty, ← String.append_assoc] at same
      exact absurd same (unnumbered x hx y hy n (by omega) hn')
    · rw [if_neg one, if_pos one', String.append_empty, ← String.append_assoc] at same
      exact absurd same.symm (unnumbered y hy x hx m (by omega) hm')
    · rw [if_neg one, if_neg one'] at same
      obtain ⟨same, number⟩ := append_number_inj same
      exact Prod.ext (apart x hx y hy same) number

/-! ### Pages -/

variable {body : List Markdown.Node}

theorem footnoteIds_render (options : Options) (p : Option Markdown.Position)
    (hhtml : NoHtml (Markdown.Node.leavesAll body)) :
    footnoteIds (render options (.branch .root p body)).value =
      ((occurrences [] (shownKeys body)).map fun o => referenceId (footnoteId o.1) o.2) ++
        (foundNotes body).map fun note => noteId (footnoteId note.identifier) := by
  obtain ⟨c, count, hlinks, hitems⟩ := links_and_items_render hhtml options p
  have fresh : ∀ k, (start options p body).count k = ([] : List String).count k :=
    (counted_start options p body).count_eq
  have ids : (items (render options (.branch .root p body)).value).filterMap (·.text? "id") =
      (foundNotes body).map fun note => noteId (footnoteId note.identifier) := by
    have views := congrArg (List.filterMap fun v : String × Option String × List Element => v.2.1) hitems
    rw [List.filterMap_map, List.filterMap_map] at views
    exact views.trans (congrFun List.filterMap_eq_map _)
  have keys : shownKeys body = bodyKeys body ++ (nestedReferences body).map foldCase := List.map_append
  rw [footnoteIds, List.filterMap_append, ids, hlinks, List.filterMap_append, ids_tally fresh, ids_tally count,
    ← List.map_append, keys, occurrences_append]
  rfl

/-- Every footnote is listed once, for an identifier that the body refers to. -/
theorem nodup_identifiers_foundNotes (body : List Markdown.Node) :
    ((foundNotes body).map (·.identifier)).Nodup ∧ ∀ note ∈ foundNotes body, note.identifier ∈ shownKeys body := by
  have listed : (listedNotes body).map (·.identifier) = (bodyKeys body).eraseDups := by
    rw [listedNotes, List.map_map]
    exact List.map_id _
  constructor
  · have sub : ((foundNotes body).map (·.identifier)).Sublist (bodyKeys body).eraseDups :=
      listed ▸ List.filter_sublist.map _
    exact sub.nodup (nodup_eraseDups _)
  · intro note hnote
    have mem : note.identifier ∈ (bodyKeys body).eraseDups :=
      listed ▸ List.mem_map_of_mem (List.mem_filter.1 hnote).1
    rw [shownKeys, List.map_append]
    exact List.mem_append_left _ (List.mem_eraseDups.1 mem)

/-- The ids of footnotes are distinct exactly if the identifiers that are shown differ in more than their white space,
and none is that of a footnote with a hyphen and one of the numbers of its references behind it. -/
theorem nodup_footnoteIds_iff (options : Options) (p : Option Markdown.Position) (body : List Markdown.Node)
    (hhtml : NoHtml (Markdown.Node.leavesAll body)) :
    (footnoteIds (render options (.branch .root p body)).value).Nodup ↔
      (∀ x ∈ shownKeys body, ∀ y ∈ shownKeys body, footnoteId x = footnoteId y → x = y) ∧
        ∀ x ∈ shownKeys body, ∀ y ∈ shownKeys body, ∀ n, 2 ≤ n → n ≤ (shownKeys body).count y →
          footnoteId x ≠ footnoteId y ++ "-" ++ toString n := by
  rw [footnoteIds_render options p hhtml, ← injOn_referenceId_iff,
    ← List.nodup_map_iff_inj_on (nodup_occurrences [] (shownKeys body)), List.nodup_append]
  refine and_iff_left_of_imp fun distinct => ⟨?_, ?_⟩
  · obtain ⟨once, shown⟩ := nodup_identifiers_foundNotes body
    rw [List.nodup_map_iff_inj_on (nodup_occurrences [] (shownKeys body)), injOn_referenceId_iff] at distinct
    have ids : ((foundNotes body).map fun note => noteId (footnoteId note.identifier)) =
        ((foundNotes body).map (·.identifier)).map fun key => noteId (footnoteId key) := by rw [List.map_map]; rfl
    rw [ids]
    refine once.map_on fun x hx y hy same => ?_
    obtain ⟨note, hnote, rfl⟩ := List.mem_map.1 hx
    obtain ⟨note', hnote', rfl⟩ := List.mem_map.1 hy
    exact distinct.1 _ (shown note hnote) _ (shown note' hnote') (noteId_inj.1 same)
  · intro a ha b hb
    obtain ⟨o, -, rfl⟩ := List.mem_map.1 ha
    obtain ⟨note, -, rfl⟩ := List.mem_map.1 hb
    exact referenceId_ne_noteId _ _ _

/-- A document whose second footnote has the name of a numbered reference to a footnote that is referred to once. -/
def numberedNames : List Markdown.Node :=
  [.branch .paragraph none [.leaf (.footnoteReference "a" none) none, .leaf (.footnoteReference "A-2" none) none,
      .leaf (.footnoteReference "a-2" none) none],
    .branch (.footnoteDefinition "a" none) none [.branch .paragraph none [.leaf (.text "One.") none]],
    .branch (.footnoteDefinition "a-2" none) none [.branch .paragraph none [.leaf (.text "Two.") none]]]

theorem nodup_footnoteIds_numberedNames :
    NoHtml (Markdown.Node.leavesAll numberedNames) ∧
      (footnoteIds (render {} (.branch .root none numberedNames)).value).Nodup := by
  have hhtml : NoHtml (Markdown.Node.leavesAll numberedNames) := noHtml_of_isProper (by decide +kernel)
  exact ⟨hhtml, (nodup_footnoteIds_iff {} none numberedNames hhtml).2 (by decide +kernel)⟩

/-- A document whose second footnote has the name of the second reference to the first one. -/
def takenName : List Markdown.Node :=
  [.branch .paragraph none [.leaf (.footnoteReference "a" none) none, .leaf (.footnoteReference "a" none) none,
      .leaf (.footnoteReference "a-2" none) none],
    .branch (.footnoteDefinition "a" none) none [.branch .paragraph none [.leaf (.text "One.") none]],
    .branch (.footnoteDefinition "a-2" none) none [.branch .paragraph none [.leaf (.text "Two.") none]]]

/-- The second link to the first footnote and the link to the second one have the same id. -/
theorem not_nodup_footnoteIds_takenName :
    NoHtml (Markdown.Node.leavesAll takenName) ∧ Defined takenName ∧
      ¬ (footnoteIds (render {} (.branch .root none takenName)).value).Nodup := by
  have proper : isProper takenName = true := by decide +kernel
  have hhtml := noHtml_of_isProper proper
  refine ⟨hhtml, defined_of_isProper proper, ?_⟩
  rw [footnoteIds_render {} none hhtml]
  decide +kernel

end Folio.Rendering
