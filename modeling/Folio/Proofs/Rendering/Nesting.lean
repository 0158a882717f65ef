import Folio.Html.Node
import Mathlib.Data.List.Basic

/-!
# Pairs of tags

A text with tags in it is a list of pieces; a nesting is what the tags make of it when they are paired. `nest` pairs the
tags of any text. It loses no start tag and no part, and keeps their order (`kept_nest`); what is nested
properly is paired as it is (`nest_piecesAll`).
-/

namespace Folio.Rendering

variable {α β : Type}

/-- A piece of a text: a start tag, an end tag, or a part that is no tag. -/
inductive Piece (α : Type) where
  | start (t : String)
  | stop (t : String)
  | part (a : α)

namespace Piece

def isStop : Piece α → Bool
  | .stop _ => true
  | _ => false

def part? : Piece α → Option α
  | .part a => some a
  | _ => none

def map (f : α → β) : Piece α → Piece β
  | .start t => .start t
  | .stop t => .stop t
  | .part a => .part (f a)

end Piece

/-- A part, or a pair of tags with what stands between them. -/
inductive Nest (α : Type) where
  | part (a : α)
  | pair (t : String) (inner : List (Nest α))

namespace Nest

mutual

/-- The pieces of a nesting. -/
def pieces : Nest α → List (Piece α)
  | .part a => [.part a]
  | .pair t inner => .start t :: (piecesAll inner ++ [.stop t])

def piecesAll : List (Nest α) → List (Piece α)
  | [] => []
  | n :: ns => pieces n ++ piecesAll ns

end

mutual

def map (f : α → β) : Nest α → Nest β
  | .part a => .part (f a)
  | .pair t inner => .pair t (mapAll f inner)

def mapAll (f : α → β) : List (Nest α) → List (Nest β)
  | [] => []
  | n :: ns => map f n :: mapAll f ns

end

theorem piecesAll_append (ns ms : List (Nest α)) : piecesAll (ns ++ ms) = piecesAll ns ++ piecesAll ms := by
  induction ns with
  | nil => rfl
  | cons n ns ih => rw [List.cons_append, piecesAll, ih, piecesAll, List.append_assoc]

theorem mapAll_eq_map (f : α → β) (ns : List (Nest α)) : mapAll f ns = ns.map (map f) := by
  induction ns with
  | nil => rfl
  | cons n ns ih => rw [mapAll, ih, List.map_cons]

end Nest

/-! ### Pairing -/

/-- A pair that is open: its name, and what stands before it, in reverse. -/
abbrev Opened (α : Type) := String × List (Nest α)

/-- Ends the pairs that are still open. `done` has what stands in the innermost one in reverse. -/
def endAll (done : List (Nest α)) : List (Opened α) → List (Nest α)
  | [] => done.reverse
  | (t, before) :: stack => endAll (.pair t done.reverse :: before) stack

/-- Pairs tags. An end tag ends the innermost open pair if it has its name, and is passed by otherwise. -/
def pairUp (stack : List (Opened α)) (done : List (Nest α)) : List (Piece α) → List (Nest α)
  | [] => endAll done stack
  | .part a :: ps => pairUp stack (.part a :: done) ps
  | .start t :: ps => pairUp ((t, done) :: stack) [] ps
  | .stop t :: ps =>
    match stack with
    | [] => pairUp [] done ps
    | (u, before) :: rest =>
      if u = t then pairUp rest (.pair u done.reverse :: before) ps
      else pairUp ((u, before) :: rest) done ps

/-- The nesting of a text. -/
def nest (ps : List (Piece α)) : List (Nest α) := pairUp [] [] ps

theorem endAll_map (f : α → β) (done : List (Nest α)) (stack : List (Opened α)) :
    endAll (done.map (.map f)) (stack.map fun e => (e.1, e.2.map (.map f))) = (endAll done stack).map (.map f) := by
  induction stack generalizing done with
  | nil => exact List.map_reverse.symm
  | cons e stack ih =>
    rw [List.map_cons, endAll, endAll, ← ih, List.map_cons, Nest.map, Nest.mapAll_eq_map, List.map_reverse]

theorem pairUp_map (f : α → β) (stack : List (Opened α)) (done : List (Nest α)) (ps : List (Piece α)) :
    pairUp (stack.map fun e => (e.1, e.2.map (.map f))) (done.map (.map f)) (ps.map (.map f)) =
      (pairUp stack done ps).map (.map f) := by
  induction ps generalizing stack done with
  | nil => exact endAll_map f done stack
  | cons p ps ih =>
    cases p with
    | start t => exact ih ((t, done) :: stack) []
    | part a => exact ih stack (.part a :: done)
    | stop t =>
      cases stack with
      | nil => exact ih [] done
      | cons e stack =>
        have closed := ih stack (.pair e.1 done.reverse :: e.2)
        rw [List.map_cons, Nest.map, Nest.mapAll_eq_map, List.map_reverse] at closed
        have passed := ih (e :: stack) done
        show (if e.1 = t then _ else _) = (if e.1 = t then _ else _ : List (Nest α)).map _
        split
        · exact closed
        · exact passed

theorem nest_map (f : α → β) (ps : List (Piece α)) : nest (ps.map (.map f)) = (nest ps).map (.map f) :=
  pairUp_map f [] [] ps

/-- What is nested properly is paired as it is. -/
theorem pairUp_piecesAll (stack : List (Opened α)) (done : List (Nest α)) (ps : List (Piece α)) :
    (ns : List (Nest α)) → pairUp stack done (Nest.piecesAll ns ++ ps) = pairUp stack (ns.reverse ++ done) ps
  | [] => rfl
  | .part a :: ns => by
    rw [Nest.piecesAll, Nest.pieces, List.append_assoc, List.singleton_append, pairUp, pairUp_piecesAll,
      List.reverse_cons, List.append_assoc]
    rfl
  | .pair t inner :: ns => by
    have whole : Nest.piecesAll (.pair t inner :: ns) ++ ps =
        .start t :: (Nest.piecesAll inner ++ .stop t :: (Nest.piecesAll ns ++ ps)) := by
      simp [Nest.piecesAll, Nest.pieces]
    -- What the pair holds leaves it on top of the stack, so its end tag finds it there.
    rw [whole, pairUp, pairUp_piecesAll _ _ _ inner, List.append_nil, pairUp, if_pos rfl, List.reverse_reverse,
      pairUp_piecesAll _ _ _ ns, List.reverse_cons, List.append_assoc]
    rfl

theorem nest_piecesAll (ns : List (Nest α)) : nest (Nest.piecesAll ns) = ns := by
  have paired := pairUp_piecesAll [] [] [] ns
  rw [List.append_nil, List.append_nil, pairUp, endAll, List.reverse_reverse] at paired
  exact paired

/-! ### What pairing keeps -/

/-- The start tags and the parts of a text. -/
def kept (ps : List (Piece α)) : List (Piece α) := ps.filter (!·.isStop)

theorem kept_append (ps qs : List (Piece α)) : kept (ps ++ qs) = kept ps ++ kept qs := List.filter_append ..

theorem filterMap_kept (ps : List (Piece α)) : (kept ps).filterMap Piece.part? = ps.filterMap Piece.part? := by
  rw [kept, List.filterMap_filter]
  congr 1
  funext p
  cases p <;> rfl

/-- What pairs that are open keep, the innermost one being the last. -/
def keptOpen : List (Opened α) → List (Piece α)
  | [] => []
  | (t, before) :: stack => keptOpen stack ++ (kept (Nest.piecesAll before.reverse) ++ [.start t])

theorem kept_pair (t : String) (inner : List (Nest α)) :
    kept (Nest.piecesAll [.pair t inner]) = .start t :: kept (Nest.piecesAll inner) := by
  simp [Nest.piecesAll, Nest.pieces, kept, Piece.isStop]

/-- Ending a pair loses nothing. -/
theorem keptOpen_cons (t : String) (before done : List (Nest α)) (stack : List (Opened α)) :
    keptOpen ((t, before) :: stack) ++ kept (Nest.piecesAll done.reverse) =
      keptOpen stack ++ kept (Nest.piecesAll (Nest.pair t done.reverse :: before).reverse) := by
  rw [List.reverse_cons, Nest.piecesAll_append, kept_append, kept_pair, keptOpen]
  simp

theorem kept_endAll (done : List (Nest α)) (stack : List (Opened α)) :
    kept (Nest.piecesAll (endAll done stack)) = keptOpen stack ++ kept (Nest.piecesAll done.reverse) := by
  induction stack generalizing done with
  | nil => rfl
  | cons e stack ih => rw [endAll, ih, ← keptOpen_cons]

theorem kept_pairUp (stack : List (Opened α)) (done : List (Nest α)) (ps : List (Piece α)) :
    kept (Nest.piecesAll (pairUp stack done ps)) =
      keptOpen stack ++ (kept (Nest.piecesAll done.reverse) ++ kept ps) := by
  induction ps generalizing stack done with
  | nil => rw [pairUp, kept_endAll, show kept ([] : List (Piece α)) = [] from rfl, List.append_nil]
  | cons p ps ih =>
    cases p with
    | part a =>
      rw [pairUp, ih, List.reverse_cons, Nest.piecesAll_append, kept_append, List.append_assoc]
      rfl
    | start t =>
      rw [pairUp, ih, keptOpen]
      simp [kept, Nest.piecesAll, Piece.isStop]
    | stop t =>
      have dropped : kept (.stop t :: ps) = kept ps := List.filter_cons_of_neg (by simp [Piece.isStop])
      -- Ending a pair moves what it holds from the stack to the nodes that are done.
      rw [dropped]
      cases stack with
      | nil => rw [pairUp, ih]
      | cons e stack =>
        rw [pairUp]
        split
        · rw [ih, ← List.append_assoc, ← keptOpen_cons, List.append_assoc]
        · rw [ih]

/-- Pairing keeps the start tags and the parts in their order. -/
theorem kept_nest (ps : List (Piece α)) : kept (Nest.piecesAll (nest ps)) = kept ps := kept_pairUp [] [] ps

/-- The parts of nestings. -/
def partsOf (ts : List (Nest α)) : List α := (Nest.piecesAll ts).filterMap Piece.part?

theorem partsOf_cons_part (a : α) (ts : List (Nest α)) : partsOf (.part a :: ts) = a :: partsOf ts := rfl

theorem partsOf_cons_pair (t : String) (inner ts : List (Nest α)) :
    partsOf (.pair t inner :: ts) = partsOf inner ++ partsOf ts := by
  rw [partsOf, Nest.piecesAll, Nest.pieces, List.filterMap_append, List.filterMap_cons_none rfl, List.filterMap_append,
    List.filterMap_cons_none rfl, List.filterMap_nil, List.append_nil]
  rfl

theorem partsOf_nest (ps : List (Piece α)) : partsOf (nest ps) = ps.filterMap Piece.part? := by
  rw [partsOf, ← filterMap_kept, kept_nest, filterMap_kept]

end Folio.Rendering
