import Folio.Proofs.Fragment.Printing
import Folio.Proofs.Rendering
import Folio.Proofs.Rendering.Nesting

/-!
# Tags around rendered text

Tags that stand one by one in running text enclose what stands between them. The siblings are rendered as the nesting
of the tags and the parts between them: each part once, in order, and in the element of the tags that it stands between
(`run_renderChildren_tagged`).
-/

namespace Folio.Rendering

open Html

variable {α : Type}

namespace Nest

mutual

/-- The nodes of a nesting, given those of the parts. A pair of tags is an element without properties. -/
def nodes (f : α → List Html.Node) : Nest α → List Html.Node
  | .part a => f a
  | .pair t inner => [.element t .empty (nodesAll f inner)]

def nodesAll (f : α → List Html.Node) : List (Nest α) → List Html.Node
  | [] => []
  | n :: ns => nodes f n ++ nodesAll f ns

end

theorem nodesAll_append (f : α → List Html.Node) (ns ms : List (Nest α)) :
    nodesAll f (ns ++ ms) = nodesAll f ns ++ nodesAll f ms := by
  induction ns with
  | nil => rfl
  | cons n ns ih => rw [List.cons_append, nodesAll, ih, nodesAll, List.append_assoc]

end Nest

/-- The tag of a piece is that of an element with content. -/
def Piece.IsPlain : Piece α → Prop
  | .start t | .stop t => Fragment.IsTagName t.toList
  | .part _ => True

/-! ### Placeholders -/

/-- The element that a placeholder is read as. -/
def slotNode (i : Nat) : Html.Node := .element slotTag (.ofList [(slotIndex, .text (toString i))]) []

theorem number?_toString (i : Nat) : number? (toString i) = some i := by
  have digits : (toString i).toList = Nat.toDigits 10 i := by rw [Nat.toString_eq_repr, Nat.toList_repr]
  have nonempty : (toString i).toList ≠ [] := digits ▸ Nat.toDigits_ne_nil
  have all : (toString i).toList.all Char.isDigit = true :=
    List.all_eq_true.2 fun c hc => Text.isDigit_of_mem_toString hc
  have value {ds : List Char} (h : ∀ c ∈ ds, c.isDigit = true) (n : Nat) :
      ds.foldl (fun n c => n * 10 + Text.hexValue c) n = Nat.ofDigitChars 10 ds n := by
    induction ds generalizing n with
    | nil => rfl
    | cons c ds ih =>
      obtain ⟨hc, hds⟩ := List.forall_mem_cons.1 h
      rw [List.foldl_cons, ih hds, Nat.ofDigitChars_cons, Text.hexValue, if_pos hc, Nat.mul_comm]
      rfl
  rw [number?]
  split
  · rename_i ds h
    exact absurd rfl (Text.ne_of_mem_toString (h ▸ List.mem_cons_self : '+' ∈ (toString i).toList) (by decide))
  · rw [List.isEmpty_eq_false_iff.2 nonempty, all, if_neg (by decide), Entity.number,
      value (fun c hc => Text.isDigit_of_mem_toString hc), digits, Nat.ofDigitChars_toDigits (by decide) (by decide)]

theorem properties_slotIndex (i : Nat) :
    Fragment.properties [(slotIndex.toList, some (toString i).toList)] = .ofList [(slotIndex, .text (toString i))] := by
  have arranged (v : List Char) : Fragment.arrange [(slotIndex.toList, some v)] = [(slotIndex.toList, some v)] := rfl
  have lowered : Text.lower slotIndex.toList = slotIndex.toList := by decide
  have plain : '&' ∉ (toString i).toList := fun h => Text.ne_of_mem_toString h (by decide) rfl
  rw [Fragment.properties, arranged, List.map_singleton, Fragment.property, lowered, if_neg (by decide),
    Option.getD_some, Fragment.decode_of_notMem plain, String.ofList_toList, String.ofList_toList]

theorem build_placeholder (stack : List Fragment.Frame) (done : List Html.Node) (i : Nat) (rest : List Char) :
    Fragment.build stack done (Fragment.tokens ((placeholder i).toList ++ rest)) =
      Fragment.build stack (slotNode i :: done) (Fragment.tokens rest) := by
  have whole : (placeholder i).toList ++ rest =
      '<' :: (slotTag.toList ++ (Fragment.quotedAttribute slotIndex.toList (toString i).toList ++
        '>' :: '<' :: '/' :: (slotTag.toList ++ '>' :: rest))) := by
    simp [placeholder, Fragment.quotedAttribute, String.toList_append]
  have name : Fragment.IsName slotTag.toList := ⟨by decide, List.all_eq_true.1 (by decide), by decide⟩
  have key : Fragment.IsName slotIndex.toList := ⟨by decide, List.all_eq_true.1 (by decide), by decide⟩
  have noQuote : '"' ∉ (toString i).toList := fun h => Text.ne_of_mem_toString h (by decide) rfl
  have noEnd : '>' ∉ slotTag.toList := by decide
  have opens : ¬ (false || Fragment.voidNames.contains (String.ofList slotTag.toList)) = true := by decide
  have lowered : Text.lower slotTag.toList = slotTag.toList := by decide
  rw [whole, Fragment.tokens_startTag_attribute name key noQuote, Fragment.tokens_close noEnd, Fragment.build,
    if_neg opens, Fragment.build, if_pos rfl, properties_slotIndex, Fragment.element, lowered, String.ofList_toList]
  rfl

/-! ### Markup of tags and placeholders -/

/-- A sibling that has been rendered: its number, the sibling itself, and its nodes. -/
structure Part where
  number : Nat
  source : Markdown.Node
  nodes : List Html.Node

def Piece.slot : Piece Part → Slot
  | .start t => .markup ("<" ++ t ++ ">")
  | .stop t => .markup ("</" ++ t ++ ">")
  | .part p => .rendered p.nodes

/-- The markup of a piece. -/
def Piece.written : Piece Part → List Char
  | .start t => '<' :: (t.toList ++ ['>'])
  | .stop t => '<' :: '/' :: (t.toList ++ ['>'])
  | .part p => (placeholder p.number).toList

/-- The nodes of nestings, with the parts as placeholders are read. -/
def shell (ts : List (Nest Part)) : List Html.Node := Nest.nodesAll (fun p => [slotNode p.number]) ts

/-- The frame of a pair that is open. -/
def frame (e : Opened Part) : Fragment.Frame := ⟨e.1.toList, .empty, (shell e.2.reverse).reverse⟩

theorem shell_reverse_cons (t : Nest Part) (ts : List (Nest Part)) :
    shell (t :: ts).reverse = shell ts.reverse ++ shell [t] := by
  rw [List.reverse_cons, shell, Nest.nodesAll_append]
  rfl

theorem closeAll_frames {stack : List (Opened Part)} (h : ∀ e ∈ stack, Fragment.IsTagName e.1.toList)
    (done : List (Nest Part)) :
    Fragment.closeAll (shell done.reverse).reverse (stack.map frame) = shell (endAll done stack) := by
  induction stack generalizing done with
  | nil => exact List.reverse_reverse _
  | cons e stack ih =>
    obtain ⟨he, hstack⟩ := List.forall_mem_cons.1 h
    rw [endAll, ← ih hstack, shell_reverse_cons, List.reverse_append, List.map_cons, Fragment.closeAll, frame,
      Fragment.element, Fragment.lower_of_isLower he.lower, String.ofList_toList, List.reverse_reverse]
    rfl

/-- Reading markup pairs the tags in it. -/
theorem build_written {zs : List (Piece Part)} (hzs : ∀ z ∈ zs, z.IsPlain) {stack : List (Opened Part)}
    (hstack : ∀ e ∈ stack, Fragment.IsTagName e.1.toList) (done : List (Nest Part)) :
    Fragment.build (stack.map frame) (shell done.reverse).reverse (Fragment.tokens (zs.flatMap Piece.written)) =
      shell (pairUp stack done zs) := by
  -- The reader and the pairing take the same steps: `frame` carries the stack of one to that of the other.
  induction zs generalizing stack done with
  | nil => rw [List.flatMap_nil, Fragment.tokens_nil, Fragment.build, closeAll_frames hstack, pairUp]
  | cons z zs ih =>
    obtain ⟨hz, behind⟩ := List.forall_mem_cons.1 hzs
    rw [List.flatMap_cons]
    cases z with
    | part p =>
      have next := ih behind hstack (.part p :: done)
      rw [shell_reverse_cons, List.reverse_append] at next
      rw [Piece.written, build_placeholder, pairUp, ← next]
      rfl
    | start t =>
      have opens : ¬ (false || Fragment.voidNames.contains (String.ofList t.toList)) = true := by
        rw [hz.notVoid]
        decide
      have named : ∀ e ∈ (t, done) :: stack, Fragment.IsTagName e.1.toList := List.forall_mem_cons.2 ⟨hz, hstack⟩
      have next := ih behind named []
      rw [Piece.written, List.cons_append, List.append_assoc, List.singleton_append,
        Fragment.tokens_startTag hz.isName, Fragment.build, if_neg opens, pairUp, ← next]
      rfl
    | stop t =>
      have noEnd : '>' ∉ t.toList := fun h => Fragment.ne_of_isLower (hz.lower _ h) (by decide) rfl
      rw [Piece.written, List.cons_append, List.cons_append, List.append_assoc, List.singleton_append,
        Fragment.tokens_close noEnd]
      cases stack with
      | nil => exact ih behind hstack done
      | cons e stack =>
        obtain ⟨he, below⟩ := List.forall_mem_cons.1 hstack
        have same : (frame e).name = t.toList ↔ e.1 = t := String.toList_inj
        rw [pairUp, List.map_cons, Fragment.build]
        by_cases ht : e.1 = t
        · have next := ih behind below (.pair e.1 done.reverse :: e.2)
          rw [shell_reverse_cons, List.reverse_append] at next
          rw [if_pos (same.2 ht), if_pos ht, ← next, frame, Fragment.element, Fragment.lower_of_isLower he.lower,
            String.ofList_toList, List.reverse_reverse]
          rfl
        · rw [if_neg (same.not.2 ht), if_neg ht]
          exact ih behind hstack done

/-! ### Rendering parts in turn -/

/-- From a state a step gives a result, leaves a state, and writes lines. -/
def Runs {α : Type} (x : Render α) (c : Context) (a : α) (c' : Context) (log : List LogLine) : Prop :=
  x.run c = ⟨(a, c'), log⟩

namespace Runs

variable {β : Type} {x : Render α} {a : α} {c c₁ c₂ : Context} {first rest : List LogLine}

theorem bind {f : α → Render β} {b : β} (h : Runs x c a c₁ first) (next : Runs (f a) c₁ b c₂ rest) :
    Runs (x >>= f) c b c₂ (first ++ rest) := by
  have second : (f a).run c₁ = ⟨(b, c₂), rest⟩ := next
  rw [Runs, StateT.run_bind, h]
  show Logged.bind _ _ = _
  rw [Logged.bind]
  dsimp only
  rw [second]

theorem bind_pure {f : α → β} (h : Runs x c a c₁ first) : Runs (x >>= fun a => pure (f a)) c (f a) c₁ first := by
  have last : Runs (pure (f a)) c₁ (f a) c₁ [] := rfl
  have whole := h.bind (f := fun a => pure (f a)) last
  rw [List.append_nil] at whole
  exact whole

theorem map {f : α → β} (h : Runs x c a c₁ first) : Runs (f <$> x) c (f a) c₁ first := h.bind_pure (f := f)

end Runs

/-- Parts are rendered one after the other, and numbered, from a number and a state on. -/
inductive InTurn : Nat → Context → List Part → Context → List LogLine → Prop where
  | nil (k : Nat) (c : Context) : InTurn k c [] c []
  | cons {k : Nat} {c c₁ c₂ : Context} {source : Markdown.Node} {nodes : List Html.Node} {ps : List Part}
      {first rest : List LogLine} (h : Runs (renderNode source) c nodes c₁ first)
      (behind : InTurn (k + 1) c₁ ps c₂ rest) : InTurn k c (⟨k, source, nodes⟩ :: ps) c₂ (first ++ rest)

theorem InTurn.of_append {k : Nat} {c c' : Context} {ps qs : List Part} {log : List LogLine}
    (h : InTurn k c (ps ++ qs) c' log) : ∃ c₁ first rest, InTurn k c ps c₁ first ∧
      InTurn (k + ps.length) c₁ qs c' rest ∧ log = first ++ rest := by
  induction ps generalizing k c log with
  | nil => exact ⟨c, [], log, .nil k c, h, rfl⟩
  | cons p ps ih =>
    cases h with
    | cons h behind =>
      obtain ⟨c₁, first, rest, before, after, rfl⟩ := ih behind
      refine ⟨c₁, _, rest, .cons h before, ?_, (List.append_assoc ..).symm⟩
      rw [List.length_cons, ← Nat.add_assoc, Nat.add_right_comm]
      exact after

mutual

/-- The nodes of a nesting. -/
def renderNest : Nest Markdown.Node → Render (List Html.Node)
  | .part n => renderNode n
  | .pair t inner => do
    let children ← renderNests inner
    pure [.element t .empty children]

/-- The nodes of nestings, rendered from left to right. -/
def renderNests : List (Nest Markdown.Node) → Render (List Html.Node)
  | [] => pure []
  | t :: ts => do
    let first ← renderNest t
    let rest ← renderNests ts
    pure (first ++ rest)

end

/-- Nestings are rendered to the nodes of their parts, each within the elements of the tags around it. -/
theorem runs_renderNests {k : Nat} {c c' : Context} {log : List LogLine} : (ts : List (Nest Part)) →
    InTurn k c (partsOf ts) c' log →
    Runs (renderNests (Nest.mapAll Part.source ts)) c (Nest.nodesAll Part.nodes ts) c' log
  | [], h => by
    cases h
    rfl
  | .part p :: ts, h => by
    rw [partsOf_cons_part] at h
    cases h with
    | cons h behind => exact h.bind (runs_renderNests ts behind).bind_pure
  | .pair t inner :: ts, h => by
    rw [partsOf_cons_pair] at h
    obtain ⟨c₁, first, rest, before, after, rfl⟩ := h.of_append
    have whole := (runs_renderNests inner before).bind_pure (f := fun cs => [Html.Node.element t .empty cs])
    exact whole.bind (runs_renderNests ts after).bind_pure

/-! ### Filling -/

/-- The slots of parts of which as many as a number have been taken before. -/
def slotsFrom (k : Nat) (ps : List Part) : List (Option (List Html.Node)) :=
  List.replicate k none ++ ps.map fun p => some p.nodes

theorem takeSlot_slotsFrom (k : Nat) (source : Markdown.Node) (nodes : List Html.Node) (ps : List Part) :
    takeSlot (.ofList [(slotIndex, .text (toString k))]) (slotsFrom k (⟨k, source, nodes⟩ :: ps)) =
      (nodes, slotsFrom (k + 1) ps) := by
  have named : (((Properties.ofList [(slotIndex, .text (toString k))]).get? slotIndex).bind
      PropertyValue.text?).bind number? = some k := number?_toString k
  have found : (slotsFrom k (⟨k, source, nodes⟩ :: ps))[k]? = some (some nodes) := by
    simp [slotsFrom]
  have taken : (slotsFrom k (⟨k, source, nodes⟩ :: ps)).set k none = slotsFrom (k + 1) ps := by
    simp [slotsFrom, List.replicate_succ']
  rw [takeSlot, named]
  dsimp only
  rw [found, taken]
  rfl

/-- Filling puts the nodes of every part where its placeholder stands. -/
theorem fillAll_shell {k : Nat} {c c' : Context} {log : List LogLine} (qs : List Part) : (ts : List (Nest Part)) →
    (∀ t, .start t ∈ Nest.piecesAll ts → t ≠ slotTag) → InTurn k c (partsOf ts) c' log →
    fillAll (slotsFrom k (partsOf ts ++ qs)) (shell ts) =
      (Nest.nodesAll Part.nodes ts, slotsFrom (k + (partsOf ts).length) qs)
  | [], _, _ => rfl
  | .part p :: ts, other, h => by
    rw [partsOf_cons_part] at h ⊢
    cases h with
    | @cons _ _ _ _ source nodes _ _ _ h behind =>
      have rest := fillAll_shell qs ts (fun t ht => other t (List.mem_cons_of_mem _ ht)) behind
      have first : fill (slotsFrom k (⟨k, source, nodes⟩ :: (partsOf ts ++ qs))) (slotNode k) =
          (nodes, slotsFrom (k + 1) (partsOf ts ++ qs)) := by
        rw [slotNode, fill, if_pos rfl, takeSlot_slotsFrom]
      have start : shell (.part ⟨k, source, nodes⟩ :: ts) = slotNode k :: shell ts := rfl
      rw [start, List.cons_append, fillAll, first]
      dsimp only
      rw [rest, List.length_cons, Nat.add_right_comm]
      rfl
  | .pair t inner :: ts, other, h => by
    rw [partsOf_cons_pair] at h ⊢
    obtain ⟨c₁, first, rest, before, after, rfl⟩ := h.of_append
    have within (u : String) (hu : .start u ∈ Nest.piecesAll inner) : u ≠ slotTag :=
      other u (List.mem_append_left _ (List.mem_cons_of_mem _ (List.mem_append_left _ hu)))
    have inside := fillAll_shell (partsOf ts ++ qs) inner within before
    have behind := fillAll_shell qs ts (fun t ht => other t (List.mem_append_right _ ht)) after
    -- The parts within the pair come first in the slots, those behind it follow.
    have start : shell (.pair t inner :: ts) = .element t .empty (shell inner) :: shell ts := rfl
    rw [start, List.append_assoc, fillAll, fill, if_neg (other t List.mem_cons_self), inside]
    dsimp only
    rw [behind, List.length_append, Nat.add_assoc]
    rfl

/-! ### Siblings -/

/-- A piece stands for a sibling: a tag for markup that is just this tag, a part for other running text. -/
inductive Stands : Piece Markdown.Node → Markdown.Node → Prop where
  | start {t : String} (h : Fragment.IsTagName t.toList) (p : Option Markdown.Position) :
      Stands (.start t) (.leaf (.html ("<" ++ t ++ ">")) p)
  | stop {t : String} (h : Fragment.IsTagName t.toList) (p : Option Markdown.Position) :
      Stands (.stop t) (.leaf (.html ("</" ++ t ++ ">")) p)
  | part {n : Markdown.Node} (h : isPhrasing n = true) (hn : isHtml n = false) : Stands (.part n) n

theorem isPlain_map {β : Type} {f : α → β} {z : Piece α} : (z.map f).IsPlain ↔ z.IsPlain := by cases z <;> rfl

theorem Stands.isPhrasing {p : Piece Markdown.Node} {n : Markdown.Node} (h : Stands p n) : isPhrasing n = true := by
  cases h with
  | part h => exact h
  | _ => rfl

theorem Stands.isPlain {p : Piece Markdown.Node} {n : Markdown.Node} (h : Stands p n) : p.IsPlain := by
  cases h with
  | start h | stop h => exact h
  | part => trivial

section
variable {ps : List (Piece Markdown.Node)} {ns : List Markdown.Node}

theorem isPlain_of_stands (h : List.Forall₂ Stands ps ns) : ∀ p ∈ ps, p.IsPlain := by
  induction h with
  | nil => exact List.forall_mem_nil _
  | cons hp _ ih => exact List.forall_mem_cons.2 ⟨hp.isPlain, ih⟩

theorem isPhrasing_of_stands (h : List.Forall₂ Stands ps ns) : ns.all isPhrasing = true := by
  induction h with
  | nil => rfl
  | cons hp _ ih => rw [List.all_cons, hp.isPhrasing, ih, Bool.and_self]

theorem filterMap_part?_of_stands (h : List.Forall₂ Stands ps ns) :
    ps.filterMap Piece.part? = ns.filter (!isHtml ·) := by
  induction h with
  | nil => rfl
  | cons hp _ ih =>
    cases hp with
    | start | stop => exact ih
    | part _ hn =>
      rw [List.filter_cons_of_pos (by rw [hn]; rfl), ← ih]
      rfl

end

theorem renderPart_of_not_isHtml {n : Markdown.Node} (h : isHtml n = false) :
    renderPart true n = Slot.rendered <$> renderNode n := by
  rcases n with ⟨l, p⟩ | _
  · cases l with
    | html => cases h
    | _ => rfl
  · rfl

/-- The siblings are rendered in turn. -/
theorem exists_parts {ps : List (Piece Markdown.Node)} {ns : List Markdown.Node} (h : List.Forall₂ Stands ps ns)
    (k : Nat) (c : Context) : ∃ (zs : List (Piece Part)) (c' : Context) (log : List LogLine),
      zs.map (.map Part.source) = ps ∧ Runs (renderEach true ns) c (zs.map Piece.slot) c' log ∧
      InTurn k c (zs.filterMap Piece.part?) c' log := by
  induction h generalizing k c with
  | nil => exact ⟨[], c, [], rfl, rfl, .nil k c⟩
  | @cons p n ps ns hp _ ih =>
    cases hp with
    | @start t ht p =>
      obtain ⟨zs, c', log, hzs, rest, turn⟩ := ih k c
      have first : Runs (renderPart true (.leaf (.html ("<" ++ t ++ ">")) p)) c (Piece.start t).slot c [] := rfl
      exact ⟨.start t :: zs, c', log, congrArg (_ :: ·) hzs, renderEach_cons .. ▸ first.bind rest.bind_pure, turn⟩
    | @stop t ht p =>
      obtain ⟨zs, c', log, hzs, rest, turn⟩ := ih k c
      have first : Runs (renderPart true (.leaf (.html ("</" ++ t ++ ">")) p)) c (Piece.stop t).slot c [] := rfl
      exact ⟨.stop t :: zs, c', log, congrArg (_ :: ·) hzs, renderEach_cons .. ▸ first.bind rest.bind_pure, turn⟩
    | part _ hn =>
      have first : Runs (renderNode n) c ((renderNode n).run c).value.1 ((renderNode n).run c).value.2
        ((renderNode n).run c).log := rfl
      obtain ⟨zs, c', log, hzs, rest, turn⟩ := ih (k + 1) ((renderNode n).run c).value.2
      refine ⟨.part ⟨k, n, ((renderNode n).run c).value.1⟩ :: zs, c', _, congrArg (_ :: ·) hzs, ?_, .cons first turn⟩
      rw [renderEach_cons, renderPart_of_not_isHtml hn]
      exact first.map.bind rest.bind_pure

theorem toList_markupOf {zs : List (Piece Part)} {k : Nat} {c c' : Context} {log : List LogLine}
    (h : InTurn k c (zs.filterMap Piece.part?) c' log) :
    (markupOf k (zs.map Piece.slot)).toList = zs.flatMap Piece.written := by
  induction zs generalizing k c log with
  | nil => rfl
  | cons z zs ih =>
    cases z with
    | start t | stop t =>
      rw [List.map_cons, Piece.slot, markupOf, String.toList_append, ih h]
      simp [Piece.written, String.toList_append]
    | part p =>
      cases h with
      | cons first behind =>
        rw [List.map_cons, Piece.slot, markupOf, String.toList_append, ih behind]
        rfl

theorem renderedOf_map_slot (zs : List (Piece Part)) :
    renderedOf (zs.map Piece.slot) = (zs.filterMap Piece.part?).map fun p => some p.nodes := by
  induction zs with
  | nil => rfl
  | cons z zs ih =>
    cases z with
    | start t | stop t => exact ih
    | part p => exact congrArg (_ :: ·) ih

theorem ne_slotTag {t : String} (h : Fragment.IsTagName t.toList) : t ≠ slotTag := by
  rintro rfl
  exact absurd (h.lower '-' (by decide)) (by decide)

/-- Slots are put together as their nesting. -/
theorem assemble_map_slot {zs : List (Piece Part)} (hzs : ∀ z ∈ zs, z.IsPlain) {c c' : Context} {log : List LogLine}
    (h : InTurn 0 c (zs.filterMap Piece.part?) c' log) :
    assemble (zs.map Piece.slot) = Nest.nodesAll Part.nodes (nest zs) := by
  have read : Fragment.parse (markupOf 0 (zs.map Piece.slot)) = shell (nest zs) := by
    rw [Fragment.parse, toList_markupOf h]
    exact @build_written zs hzs [] (List.forall_mem_nil _) []
  have same : partsOf (nest zs) = zs.filterMap Piece.part? := partsOf_nest zs
  have other (t : String) (ht : .start t ∈ Nest.piecesAll (nest zs)) : t ≠ slotTag := by
    have mem : .start t ∈ kept (Nest.piecesAll (nest zs)) := List.mem_filter.2 ⟨ht, rfl⟩
    rw [kept_nest] at mem
    exact ne_slotTag (hzs _ (List.mem_filter.1 mem).1)
  have filled := fillAll_shell [] (nest zs) other (same.symm ▸ h)
  have slots : renderedOf (zs.map Piece.slot) = slotsFrom 0 (partsOf (nest zs) ++ []) := by
    rw [renderedOf_map_slot, same, List.append_nil]
    rfl
  rw [assemble, slots, read, filled]

/-- Tags that stand one by one among several siblings of running text enclose what stands between them. The siblings
are rendered as their nesting, which has all those that are no tags in their order, and in which tags that are nested
properly are paired as they are. -/
theorem run_renderChildren_tagged {ps : List (Piece Markdown.Node)} {ns : List Markdown.Node}
    (h : List.Forall₂ Stands ps ns) (several : 2 ≤ ns.length) (tagged : ns.any isHtml = true) {c : Context}
    (allowed : c.options.allowRawHtml = true) :
    (renderChildren ns).run c = (renderNests (nest ps)).run c ∧ partsOf (nest ps) = ns.filter (!isHtml ·) ∧
      ∀ ts, ps = Nest.piecesAll ts → nest ps = ts := by
  refine ⟨?_, ?_, ?_⟩
  · obtain ⟨zs, c', log, rfl, run, turn⟩ := exists_parts h 0 c
    have plain (z : Piece Part) (hz : z ∈ zs) : z.IsPlain :=
      isPlain_map.1 (isPlain_of_stands h _ (List.mem_map_of_mem hz))
    have mixed : (c.options.allowRawHtml && isMixed ns) = true := by
      rw [allowed, isMixed, tagged, isPhrasing_of_stands h,
        decide_eq_true (show 1 < ns.length from several)]
      rfl
    have left : Runs (renderChildren ns) c (assemble (zs.map Piece.slot)) c' log := by
      have start : Runs (get : Render Context) c c c [] := rfl
      refine start.bind ?_
      rw [mixed]
      exact run.map
    have right := runs_renderNests (nest zs) ((partsOf_nest zs).symm ▸ turn)
    rw [assemble_map_slot plain turn] at left
    rw [nest_map, ← Nest.mapAll_eq_map]
    exact left.trans right.symm
  · rw [partsOf_nest, filterMap_part?_of_stands h]
  · rintro ts rfl
    exact nest_piecesAll ts

theorem run_renderChildren_subscript :
    let ns : List Markdown.Node := [.leaf (.text "H") none, .leaf (.html "<sub>") none,
      .branch .emphasis none [.leaf (.text "2") none], .leaf (.html "</sub>") none, .leaf (.text "O") none]
    let ps : List (Piece Markdown.Node) := [.part (.leaf (.text "H") none), .start "sub",
      .part (.branch .emphasis none [.leaf (.text "2") none]), .stop "sub", .part (.leaf (.text "O") none)]
    let c : Context := { options := {} }
    List.Forall₂ Stands ps ns ∧ 2 ≤ ns.length ∧ ns.any isHtml = true ∧ c.options.allowRawHtml = true ∧
      (renderChildren ns).run c =
        ⟨([.text "H", .element "sub" .empty [.element "em" .empty [.text "2"]], .text "O"], c), []⟩ := by
  intro ns ps c
  have sub : Fragment.IsTagName "sub".toList := ⟨by decide, List.all_eq_true.1 (by decide), by decide⟩
  have stands : List.Forall₂ Stands ps ns := .cons (.part rfl rfl) (.cons (.start sub none) (.cons (.part rfl rfl)
    (.cons (.stop sub none) (.cons (.part rfl rfl) .nil))))
  refine ⟨stands, by decide, rfl, rfl, ?_⟩
  rw [(run_renderChildren_tagged stands (by decide) rfl (c := c) rfl).1]
  rfl

end Folio.Rendering
