import Folio.Tracker
import Mathlib.Data.List.Find
import Mathlib.Data.List.Nodup
import Mathlib.Data.List.Induction

/-!
# The active section and its history

The tracker keeps a flag for each section and the place of the active one, and forgets the events themselves. `Shows`
ties a tracker to the ids that are registered and to what the events have said of each. `Shows.answer_cases` is all that
an event can bring about; from it, `Shows` is kept by every event, and the active section is a matter of the history
alone (`activeId?_run`).
-/

namespace Folio.Tracker

/-- A section has become visible or hidden. -/
structure Event where
  id : String
  visible : Bool
deriving DecidableEq, Repr

/-- What comes of an event. -/
def answer (t : Tracker) (e : Event) : Observation := (t.observe e.id e.visible).value

/-- A tracker after events. -/
def run (t : Tracker) (es : List Event) : Tracker := es.foldl (fun t e => (t.answer e).tracker) t

/-- What the latest event on a section says. -/
def latest? (id : String) (es : List Event) : Option Bool := (es.reverse.find? (·.id = id)).map (·.visible)

/-- Whether events leave a section visible. -/
def leaveVisible (es : List Event) (id : String) : Bool := latest? id es = some true

/-- The first of some ids that events leave visible. -/
def firstVisible? (ids : List String) (es : List Event) : Option String := ids.find? (leaveVisible es)

/-- What is said of sections after one more event. -/
def noted (e : Event) (shown : String → Bool) (id : String) : Bool := if e.id = id then e.visible else shown id

theorem leaveVisible_concat (es : List Event) (e : Event) : leaveVisible (es ++ [e]) = noted e (leaveVisible es) := by
  funext id
  rw [leaveVisible, latest?, List.reverse_append, List.reverse_singleton, List.singleton_append, noted]
  by_cases h : e.id = id
  · simp [h]
  · simp [h, leaveVisible, latest?]

theorem run_concat (t : Tracker) (es : List Event) (e : Event) : t.run (es ++ [e]) = ((t.run es).answer e).tracker := by
  rw [run, List.foldl_concat]
  rfl

/-! ### Registered ids -/

/-- Sections with ids, visible as is said. -/
def sectionsOf (ids : List String) (shown : String → Bool) : List Section := ids.map fun id => ⟨id, shown id⟩

theorem any_eq_decide (ss : List Section) (id : String) : ss.any (·.id = id) = decide (id ∈ ss.map (·.id)) := by
  rw [Bool.eq_iff_iff, List.any_eq_true, decide_eq_true_iff, List.mem_map]
  exact exists_congr fun s => and_congr_right fun _ => decide_eq_true_iff

/-- Registering adds each new id once and in order, so whatever is first among the ids is first among the registered
ones. -/
theorem register_spec (ss : List Section) (ids : List String) :
    ∃ new, register ss ids = ss ++ sectionsOf new (fun _ => false) ∧
      ((ss.map (·.id)).Nodup → (ss.map (·.id) ++ new).Nodup) ∧
      ∀ p : String → Bool, (ss.map (·.id) ++ new).find? p = (ss.map (·.id) ++ ids).find? p := by
  induction ids generalizing ss with
  | nil => exact ⟨[], (List.append_nil ss).symm, by simp, by simp⟩
  | cons id ids ih =>
    rw [register, any_eq_decide]
    by_cases known : id ∈ ss.map (·.id)
    · obtain ⟨new, registered, nodup, first⟩ := ih ss
      rw [decide_eq_true known, if_pos rfl]
      refine ⟨new, registered, nodup, fun p => ?_⟩
      -- what is said of the id has been found at its first place if it is found at all
      rw [first, List.find?_append, List.find?_append, List.find?_cons]
      cases hp : p id with
      | false => rfl
      | true =>
        have found : ((ss.map (·.id)).find? p).isSome := List.find?_isSome.2 ⟨id, known, hp⟩
        rw [Option.or_of_isSome found, Option.or_of_isSome found]
    · obtain ⟨new, registered, nodup, first⟩ := ih (ss ++ [⟨id, false⟩])
      rw [decide_eq_false known, if_neg Bool.false_ne_true]
      simp only [List.map_append, List.map_singleton, List.append_assoc, List.singleton_append] at registered nodup first
      refine ⟨id :: new, registered, fun h => nodup ?_, first⟩
      exact List.nodup_append.2 ⟨h, List.nodup_singleton id, by simpa using known⟩

/-! ### What a tracker shows -/

/-- A tracker of ids knows which of them are visible. The first of these is the active one; if none is, one of the ids
may be active still. -/
structure Shows (t : Tracker) (ids : List String) (shown : String → Bool) : Prop where
  nodup : ids.Nodup
  sections : t.sections = sectionsOf ids shown
  within : ∀ i, t.active = some i → i < ids.length
  first : ∀ i, ids.findIdx? shown = some i → t.active = some i

/-- A new tracker shows nothing. -/
theorem exists_shows_ofIds (ids : List String) :
    ∃ own, Shows (ofIds ids) own (leaveVisible []) ∧ ∀ p : String → Bool, own.find? p = ids.find? p := by
  obtain ⟨own, registered, nodup, first⟩ := register_spec [] ids
  refine ⟨own, ⟨nodup List.nodup_nil, registered, fun i h => ?_, fun i h => ?_⟩, first⟩
  · cases h
  · obtain ⟨hi, visible, -⟩ := List.findIdx?_eq_some_iff_getElem.1 h
    cases visible

theorem idAt?_sectionsOf (ids : List String) (shown : String → Bool) (i : Nat) :
    idAt? (sectionsOf ids shown) i = ids[i]? := by
  rw [idAt?, sectionsOf, List.getElem?_map, Option.map_map]
  exact Option.map_id' ..

theorem findIdx?_sectionsOf (ids : List String) (shown : String → Bool) :
    (sectionsOf ids shown).findIdx? (·.visible) = ids.findIdx? shown := List.findIdx?_map

theorem sectionsOf_noted {ids : List String} {e : Event} (h : e.id ∉ ids) (shown : String → Bool) :
    sectionsOf ids (noted e shown) = sectionsOf ids shown := by
  refine List.map_congr_left fun id hid => ?_
  have other : e.id ≠ id := ne_of_mem_of_not_mem hid h |>.symm
  rw [noted, if_neg other]

theorem mark_sectionsOf {ids : List String} (nodup : ids.Nodup) (e : Event) (shown : String → Bool) :
    mark e.id e.visible (sectionsOf ids shown) = sectionsOf ids (noted e shown) := by
  induction ids with
  | nil => rfl
  | cons id ids ih =>
    obtain ⟨new, nodup⟩ := List.nodup_cons.1 nodup
    have rest := ih nodup
    rw [sectionsOf, sectionsOf] at rest
    rw [sectionsOf, sectionsOf, List.map_cons, List.map_cons, mark, noted]
    by_cases h : id = e.id
    · subst h
      have kept := sectionsOf_noted new shown
      rw [sectionsOf, sectionsOf] at kept
      rw [if_pos rfl, if_pos rfl, kept]
    · rw [if_neg h, if_neg (Ne.symm h), rest]

namespace Shows

variable {t : Tracker} {ids : List String} {shown : String → Bool}

theorem activeId? (h : Shows t ids shown) : t.activeId? = t.active.bind (ids[·]?) := by
  rw [Tracker.activeId?, h.sections]
  exact congrArg t.active.bind (funext (idAt?_sectionsOf ids shown))

theorem getElem?_of_findIdx? {i : Nat} (h : ids.findIdx? shown = some i) : ∃ id, ids[i]? = some id := by
  obtain ⟨hi, -⟩ := List.findIdx?_eq_some_iff_getElem.1 h
  exact ⟨_, List.getElem?_eq_getElem hi⟩

/-- All that an event can bring about. -/
theorem answer_cases (h : Shows t ids shown) (e : Event) :
    (t.answer e = ⟨⟨sectionsOf ids (noted e shown), t.active⟩, [], false⟩ ∧
      ∀ i, ids.findIdx? (noted e shown) = some i → t.active = some i) ∨
    ∃ i id, ids.findIdx? (noted e shown) = some i ∧ ids[i]? = some id ∧ t.active ≠ some i ∧
      t.answer e = ⟨⟨sectionsOf ids (noted e shown), some i⟩, [⟨t.activeId?, id⟩], true⟩ := by
  have own : t.sections.map (·.id) = ids := by rw [h.sections, sectionsOf, List.map_map]; exact List.map_id' ..
  rw [answer, observe, any_eq_decide, own]
  by_cases known : e.id ∈ ids
  · rw [decide_eq_true known, h.sections, mark_sectionsOf h.nodup]
    simp only [Bool.not_true, Bool.false_eq_true, if_false, findIdx?_sectionsOf]
    cases first : ids.findIdx? (noted e shown) with
    | none => exact .inl ⟨rfl, fun i hi => by cases hi⟩
    | some i =>
      obtain ⟨id, at_i⟩ := getElem?_of_findIdx? first
      by_cases same : t.active = some i
      · refine .inl ⟨?_, fun j hj => same.trans hj⟩
        dsimp only
        rw [if_pos same]
        rfl
      · refine .inr ⟨i, id, rfl, at_i, same, ?_⟩
        have previous : t.active.bind (idAt? (sectionsOf ids (noted e shown))) = t.activeId? := by
          rw [h.activeId?]
          exact congrArg t.active.bind (funext (idAt?_sectionsOf ids _))
        dsimp only
        rw [if_neg same, previous, idAt?_sectionsOf, at_i]
        rfl
  · refine .inl ⟨?_, fun i hi => h.first i ?_⟩
    · rw [decide_eq_false known, sectionsOf_noted known, ← h.sections]
      rfl
    · have kept := findIdx?_sectionsOf ids (noted e shown)
      rw [sectionsOf_noted known, findIdx?_sectionsOf] at kept
      exact kept.trans hi

theorem answer (h : Shows t ids shown) (e : Event) : Shows (t.answer e).tracker ids (noted e shown) := by
  rcases h.answer_cases e with ⟨same, first⟩ | ⟨i, id, first, at_i, -, moved⟩
  · rw [same]
    exact ⟨h.nodup, rfl, h.within, first⟩
  · rw [moved]
    refine ⟨h.nodup, rfl, fun j hj => ?_, fun j hj => first.symm.trans hj⟩
    obtain rfl : i = j := Option.some.inj hj
    exact (List.getElem?_eq_some_iff.1 at_i).1

theorem activeId?_of_first (h : Shows t ids shown) {id : String} (first : ids.find? shown = some id) :
    t.activeId? = some id := by
  rw [List.find?_eq_bind_findIdx?_getElem?] at first
  obtain ⟨i, hi, at_i⟩ := Option.bind_eq_some_iff.1 first
  rw [h.activeId?, h.first i hi]
  exact at_i

/-- The first visible id becomes the active one; while none is visible the active one stays. -/
theorem activeId?_answer (h : Shows t ids shown) (e : Event) :
    (t.answer e).tracker.activeId? = (ids.find? (noted e shown)).or t.activeId? := by
  cases first : ids.find? (noted e shown) with
  | some id => exact (h.answer e).activeId?_of_first first
  | none =>
    rcases h.answer_cases e with ⟨same, -⟩ | ⟨i, id, hi, at_i, -⟩
    · rw [(h.answer e).activeId?, same, h.activeId?]
      rfl
    · rw [List.find?_eq_bind_findIdx?_getElem?, hi] at first
      exact absurd (first.symm.trans at_i) (Option.some_ne_none id).symm

theorem run (h : Shows t ids (leaveVisible [])) (es : List Event) : Shows (t.run es) ids (leaveVisible es) := by
  induction es using List.reverseRecOn with
  | nil => exact h
  | append_singleton es e ih =>
    rw [run_concat, leaveVisible_concat]
    exact ih.answer e

end Shows

/-! ### The active section -/

variable (ids : List String)

theorem activeId?_run_of_first {es : List Event} {id : String} (first : firstVisible? ids es = some id) :
    ((ofIds ids).run es).activeId? = some id := by
  obtain ⟨own, new, same⟩ := exists_shows_ofIds ids
  exact (new.run es).activeId?_of_first ((same _).trans first)

theorem activeId?_run_concat (es : List Event) (e : Event) :
    ((ofIds ids).run (es ++ [e])).activeId? =
      (firstVisible? ids (es ++ [e])).or ((ofIds ids).run es).activeId? := by
  obtain ⟨own, new, same⟩ := exists_shows_ofIds ids
  rw [run_concat, (new.run es).activeId?_answer, ← leaveVisible_concat, same, firstVisible?]

/-- The active section stays what it is as long as none is visible. -/
theorem activeId?_run_append {before later : List Event}
    (hidden : ∀ k < later.length, firstVisible? ids (before ++ later.take (k + 1)) = none) :
    ((ofIds ids).run (before ++ later)).activeId? = ((ofIds ids).run before).activeId? := by
  induction later using List.reverseRecOn with
  | nil => rw [List.append_nil]
  | append_singleton later e ih =>
    have last := hidden later.length (by simp)
    rw [List.take_of_length_le (by simp)] at last
    rw [← List.append_assoc] at last ⊢
    rw [activeId?_run_concat, last, Option.none_or]
    refine ih fun k hk => ?_
    have hidden := hidden k (by simp; omega)
    rwa [List.take_append_of_le_length (by omega)] at hidden

/-- The active section is the first registered one that is visible now, or else was the active one when last a
registered one was visible. So events that leave the same sections visible, and not none, come to the same active
section. -/
theorem activeId?_run (es : List Event) :
    (∀ id, firstVisible? ids es = some id → ((ofIds ids).run es).activeId? = some id) ∧
    (∀ before later, es = before ++ later → (firstVisible? ids before).isSome →
      (∀ k < later.length, firstVisible? ids (before ++ later.take (k + 1)) = none) →
      ((ofIds ids).run es).activeId? = ((ofIds ids).run before).activeId?) ∧
    ((∀ k ≤ es.length, firstVisible? ids (es.take k) = none) → ((ofIds ids).run es).activeId? = none) ∧
    ∀ others, (∀ id ∈ ids, latest? id others = some true ↔ latest? id es = some true) →
      (∃ id ∈ ids, latest? id es = some true) →
      ((ofIds ids).run others).activeId? = ((ofIds ids).run es).activeId? := by
  refine ⟨fun id => activeId?_run_of_first ids, ?_, fun hidden => ?_, fun others same visible => ?_⟩
  · rintro before later rfl - hidden
    exact activeId?_run_append ids hidden
  · have kept : ((ofIds ids).run ([] ++ es)).activeId? = ((ofIds ids).run []).activeId? :=
      activeId?_run_append ids fun k hk => hidden (k + 1) hk
    exact kept
  · have alike : firstVisible? ids others = firstVisible? ids es :=
      List.find?_congr fun id hid => decide_eq_decide.2 (same id hid)
    have found : (firstVisible? ids es).isSome := by
      obtain ⟨id, hid, shown⟩ := visible
      exact List.find?_isSome.2 ⟨id, hid, decide_eq_true shown⟩
    obtain ⟨id, first⟩ := Option.isSome_iff_exists.1 found
    rw [activeId?_run_of_first ids first, activeId?_run_of_first ids (alike.trans first)]

/-- The section `b` comes and goes; an unregistered one stays visible meanwhile. -/
def passing : List Event := [⟨"b", true⟩, ⟨"x", true⟩, ⟨"b", false⟩]

theorem activeId?_run_passing :
    ((ofIds ["a", "b", "a"]).run passing).activeId? = some "b" ∧
      ((ofIds ["a", "b", "a"]).run (passing ++ [⟨"b", true⟩, ⟨"a", true⟩])).activeId? = some "a" ∧
      ((ofIds ["a", "b", "a"]).run [⟨"x", true⟩]).activeId? = none ∧
      ((ofIds ["a", "b", "a"]).run [⟨"a", true⟩, ⟨"b", true⟩]).activeId? =
        ((ofIds ["a", "b", "a"]).run (passing ++ [⟨"b", true⟩, ⟨"a", true⟩])).activeId? := by
  obtain ⟨-, kept, -⟩ := activeId?_run ["a", "b", "a"] passing
  obtain ⟨now, -, -, order⟩ := activeId?_run ["a", "b", "a"] (passing ++ [⟨"b", true⟩, ⟨"a", true⟩])
  obtain ⟨-, -, never, -⟩ := activeId?_run ["a", "b", "a"] [⟨"x", true⟩]
  obtain ⟨start, -⟩ := activeId?_run ["a", "b", "a"] (passing.take 2)
  refine ⟨?_, now "a" (by decide), never (by decide), order _ (by decide) (by decide)⟩
  rw [kept (passing.take 2) (passing.drop 2) rfl (by decide) (by decide)]
  exact start "b" (by decide)

end Folio.Tracker
