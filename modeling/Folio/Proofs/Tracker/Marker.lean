import Folio.Proofs.Tracker.History
import Mathlib.Data.Finset.Option

/-!
# The marker

The view hears of the tracker by moves alone. Each move takes the marker from where the move before has put it, so
whoever carries the moves out one after the other has the active section marked at any time, and nothing else
(`foldl_replay_moves`).
-/

namespace Folio.Tracker

/-- The moves that events bring about, in order. -/
def moves (t : Tracker) : List Event → List Move
  | [] => []
  | e :: es => (t.answer e).moves ++ moves (t.answer e).tracker es

/-- The marked entries once a move is carried out. -/
def Move.replay (marked : Finset String) (m : Move) : Finset String := insert m.next (marked \ m.previous.toFinset)

/-- A move goes on from where another has ended, and it goes somewhere else. -/
def Move.Follows (m m' : Move) : Prop := m'.previous = some m.next ∧ m'.previous ≠ some m'.next

theorem run_cons (t : Tracker) (e : Event) (es : List Event) : t.run (e :: es) = (t.answer e).tracker.run es := rfl

namespace Shows

variable {t : Tracker} {ids : List String} {shown : String → Bool}

/-- An event leaves the marker where it is, or moves it once, from the active section to the next one. -/
theorem answer_moves (h : Shows t ids shown) (e : Event) :
    ((t.answer e).moves = [] ∧ (t.answer e).moved = false ∧ (t.answer e).tracker.activeId? = t.activeId?) ∨
    ∃ id, (t.answer e).moves = [⟨t.activeId?, id⟩] ∧ (t.answer e).moved = true ∧
      (t.answer e).tracker.activeId? = some id ∧ t.activeId? ≠ some id := by
  rcases h.answer_cases e with ⟨same, -⟩ | ⟨i, id, first, at_i, other, moved⟩
  · refine .inl ?_
    rw [(h.answer e).activeId?, same, h.activeId?]
    exact ⟨rfl, rfl, rfl⟩
  · refine .inr ⟨id, ?_⟩
    rw [(h.answer e).activeId?, moved]
    refine ⟨rfl, rfl, at_i, fun there => other ?_⟩
    rw [h.activeId?] at there
    obtain ⟨j, active, at_j⟩ := Option.bind_eq_some_iff.1 there
    -- no id stands at two places
    rw [active, (List.getElem?_inj (h.within j active) h.nodup).1 (at_j.trans at_i.symm)]

/-- The moves form a chain that starts at the active section. -/
theorem isChain_moves (h : Shows t ids shown) (es : List Event) :
    (t.moves es).IsChain Move.Follows ∧
      ∀ m ∈ (t.moves es).head?, m.previous = t.activeId? ∧ m.previous ≠ some m.next := by
  induction es generalizing t shown with
  | nil => exact ⟨.nil, by simp [moves]⟩
  | cons e es ih =>
    obtain ⟨chain, starts⟩ := ih (h.answer e)
    rw [moves]
    rcases h.answer_moves e with ⟨none, -, same⟩ | ⟨id, one, -, active, other⟩
    · rw [none, List.nil_append]
      rw [same] at starts
      exact ⟨chain, starts⟩
    · rw [one, List.singleton_append]
      rw [active] at starts
      refine ⟨List.isChain_cons.2 ⟨fun m hm => ?_, chain⟩, fun m hm => ?_⟩
      · exact starts m hm
      · obtain rfl : ⟨t.activeId?, id⟩ = m := Option.some.inj hm
        exact ⟨rfl, other⟩

/-- Where the active section is marked, carrying out the moves marks the active section that events lead to. -/
theorem foldl_replay_moves (h : Shows t ids shown) (es : List Event) :
    (t.moves es).foldl Move.replay t.activeId?.toFinset = (t.run es).activeId?.toFinset := by
  induction es generalizing t shown with
  | nil => rfl
  | cons e es ih =>
    have rest := ih (h.answer e)
    rw [moves, List.foldl_append, run_cons]
    rcases h.answer_moves e with ⟨none, -, same⟩ | ⟨id, one, -, active, other⟩
    · rwa [none, List.foldl_nil, ← same]
    · have step : Move.replay t.activeId?.toFinset ⟨t.activeId?, id⟩ = (some id).toFinset := by
        rw [Move.replay, Finset.sdiff_self, insert_empty_eq, Option.toFinset_some]
      rwa [one, List.foldl_cons, List.foldl_nil, step, ← active]

end Shows

/-! ### Teardown -/

theorem answer_clear (t : Tracker) (e : Event) : t.clear.answer e = ⟨t.clear, [], false⟩ := rfl

theorem run_clear (t : Tracker) (es : List Event) : t.clear.run es = t.clear := by
  induction es with
  | nil => rfl
  | cons e es ih => rw [run_cons, answer_clear, ih]

theorem moves_clear (t : Tracker) (es : List Event) : t.clear.moves es = [] := by
  induction es with
  | nil => rfl
  | cons e es ih => rw [moves, answer_clear, ih]; rfl

/-- The marker is on the active section at all times. An event moves it at most once, and says so; moves follow one
another; to carry them out, where nothing is marked at first, marks the active section and nothing else. A tracker that
has forgotten its sections moves nothing any more. -/
theorem moves_run (ids : List String) (es : List Event) :
    (∀ e, (((ofIds ids).run es).answer e).moves.length ≤ 1 ∧
      ((((ofIds ids).run es).answer e).moved = true ↔ (((ofIds ids).run es).answer e).moves.length = 1)) ∧
    ((ofIds ids).moves es).head?.bind (·.previous) = none ∧
    ((ofIds ids).moves es).IsChain Move.Follows ∧
    ((ofIds ids).moves es).foldl Move.replay ∅ = ((ofIds ids).run es).activeId?.toFinset ∧
    ∀ later, ((ofIds ids).run es).clear.moves later = [] ∧
      (((ofIds ids).run es).clear.run later).activeId? = none := by
  obtain ⟨own, new, -⟩ := exists_shows_ofIds ids
  obtain ⟨chain, starts⟩ := new.isChain_moves es
  refine ⟨fun e => ?_, ?_, chain, new.foldl_replay_moves es, fun later => ?_⟩
  · rcases (new.run es).answer_moves e with ⟨none, quiet, -⟩ | ⟨id, one, moved, -⟩
    · rw [none, quiet]
      decide
    · rw [one, moved]
      exact ⟨Nat.le_refl 1, by simp⟩
  · cases first : ((ofIds ids).moves es).head? with
    | none => rfl
    | some m => exact (starts m first).1
  · rw [moves_clear, run_clear]
    exact ⟨rfl, rfl⟩

end Folio.Tracker
