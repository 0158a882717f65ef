import Folio.Heading
import Folio.Proofs.Highlighting.Ends

/-!
# Trees with answers

`answered` says without a walk what becomes of a tree: code that was asked for gets the markup of the answer for its
content, and nothing else changes. `asked` lists the calls that are made for it, with what comes of them. A block may
stand within code that gets new content; it is gone before the walk comes to it, so there is no call for it. As long as
no answer holds a block, the walk comes to an end: it makes these calls up to the first failure, and without a failure it
leaves this tree (`finishes_forest`).
-/

namespace Folio.CodeBlock

open Html Heading

variable (a : Adapter) (document : String)

/-- The content that a node gets, if there is some for the first code. -/
def swapFor? (n : Node) (swap : Option (List Node)) : Option (List Node) := if isCode n then swap else none

mutual

/-- The calls for the blocks of a tree that are left when the walk comes to them, in document order and behind the calls
before, and what comes of them. -/
def asked (before : List HighlightCall) : Node → List Exchange
  | .element t _ cs =>
    match blockCall? t cs with
    | some c =>
      let x := exchange a before c
      x :: askedAll (before ++ [c]) x.markup? cs
    | none => askedAll before none cs
  | _ => []

/-- The calls for the blocks of a forest, the first code of which may get other content. -/
def askedAll (before : List HighlightCall) (swap : Option (List Node)) : List Node → List Exchange
  | [] => []
  | n :: ns =>
    let first := if (swapFor? n swap).isSome then [] else asked before n
    first ++ askedAll (before ++ first.map Exchange.call) (swapBehind n swap) ns

end

mutual

/-- A tree in which code that was asked for has the markup of the answer for its content. -/
def answered (before : List HighlightCall) : Node → Node
  | .element t p cs =>
    match blockCall? t cs with
    | some c => .element t p (answeredAll (before ++ [c]) (exchange a before c).markup? cs)
    | none => .element t p (answeredAll before none cs)
  | n => n

/-- Such a forest. Its first code gets other content, if there is some for it. -/
def answeredAll (before : List HighlightCall) (swap : Option (List Node)) : List Node → List Node
  | [] => []
  | n :: ns =>
    match swapFor? n swap with
    | some content => withChildren (fun _ => content) n :: answeredAll before none ns
    | none =>
      answered before n :: answeredAll (before ++ (asked a before n).map Exchange.call) (swapBehind n swap) ns

end

variable {a document}

/-! ### What is asked -/

section

variable {before : List HighlightCall} {swap : Option (List Node)} {n : Node} {content : List Node}

theorem askedAll_cons_of_some (h : swapFor? n swap = some content) (ns : List Node) :
    askedAll a before swap (n :: ns) = askedAll a before (swapBehind n swap) ns := by
  rw [askedAll, h, Option.isSome_some, if_pos rfl, List.map_nil, List.append_nil, List.nil_append]

theorem askedAll_cons_of_none (h : swapFor? n swap = none) (ns : List Node) :
    askedAll a before swap (n :: ns) =
      asked a before n ++ askedAll a (before ++ (asked a before n).map Exchange.call) (swapBehind n swap) ns := by
  rw [askedAll, h, Option.isSome_none, if_neg Bool.false_ne_true]

@[simp] theorem swapFor?_none (n : Node) : swapFor? n none = none := ite_self _

theorem swapFor?_of_other (other : n.element? = none) (swap : Option (List Node)) : swapFor? n swap = none :=
  if_neg (not_isCode_of_other other)

theorem askedAll_cons_of_other (other : n.element? = none) (ns : List Node) :
    askedAll a before swap (n :: ns) = askedAll a before swap ns := by
  have nothing : asked a before n = [] := by
    cases n with
    | element t p cs => cases other
    | _ => rfl
  rw [askedAll_cons_of_none (swapFor?_of_other other swap), nothing, List.nil_append, List.map_nil, List.append_nil,
    swapBehind_of_not_isCode (not_isCode_of_other other)]

theorem answeredAll_cons_of_other (other : n.element? = none) (ns : List Node) :
    answeredAll a before swap (n :: ns) = n :: answeredAll a before swap ns := by
  cases n with
  | element t p cs => cases other
  | _ =>
    rw [answeredAll, swapFor?_of_other other, swapBehind_of_not_isCode (not_isCode_of_other other), answered, asked]
    · rw [List.map_nil, List.append_nil]
    all_goals exact fun _ _ _ => Node.noConfusion

end

mutual

theorem asked_eq_exchanges (before : List HighlightCall) : (n : Node) →
    asked a before n = exchanges a before ((asked a before n).map Exchange.call)
  | .text _ => rfl
  | .root _ => rfl
  | .element t p cs => by
    rw [asked]
    cases blockCall? t cs with
    | none => exact askedAll_eq_exchanges before none cs
    | some c => exact congrArg (exchange a before c :: ·) (askedAll_eq_exchanges (before ++ [c]) _ cs)

theorem askedAll_eq_exchanges (before : List HighlightCall) (swap : Option (List Node)) : (ns : List Node) →
    askedAll a before swap ns = exchanges a before ((askedAll a before swap ns).map Exchange.call)
  | [] => rfl
  | n :: ns => by
    cases swapped : swapFor? n swap with
    | some content =>
      rw [askedAll_cons_of_some swapped]
      exact askedAll_eq_exchanges before (swapBehind n swap) ns
    | none =>
      rw [askedAll_cons_of_none swapped, List.map_append, exchanges_append, ← asked_eq_exchanges before n,
        ← askedAll_eq_exchanges _ (swapBehind n swap) ns]

end

mutual

theorem sublist_asked (before : List HighlightCall) : (n : Node) →
    ((asked a before n).map Exchange.call).Sublist (calls [n])
  | .text _ => .slnil
  | .root _ => .slnil
  | .element t p cs => by
    rw [asked, calls_element]
    cases blockCall? t cs with
    | none => exact sublist_askedAll before none cs
    | some c => exact (sublist_askedAll _ _ cs).cons_cons c

/-- The calls are made for blocks of the tree in document order. -/
theorem sublist_askedAll (before : List HighlightCall) (swap : Option (List Node)) : (ns : List Node) →
    ((askedAll a before swap ns).map Exchange.call).Sublist (calls ns)
  | [] => .slnil
  | n :: ns => by
    rw [calls_cons]
    cases swapped : swapFor? n swap with
    | some content =>
      rw [askedAll_cons_of_some swapped]
      exact (sublist_askedAll before _ ns).trans (List.sublist_append_right _ _)
    | none =>
      rw [askedAll_cons_of_none swapped, List.map_append]
      exact (sublist_asked before n).append (sublist_askedAll _ _ ns)

end

mutual

theorem map_call_asked (before : List HighlightCall) : (n : Node) → IsApart [n] →
    (asked a before n).map Exchange.call = calls [n]
  | .text _, _ => rfl
  | .root _, _ => rfl
  | .element t p cs, apart => by
    rw [asked, calls_element]
    cases call : blockCall? t cs with
    | none => exact map_call_askedAll before cs (IsApart.element_iff.1 apart).2
    | some c =>
      have below := sublist_askedAll (a := a) (before ++ [c]) (exchange a before c).markup? cs
      rw [apart.calls_eq_nil call, List.sublist_nil] at below
      rw [apart.calls_eq_nil call]
      exact congrArg (c :: ·) below

/-- If no block stands within another one, all blocks are left when the walk comes to them. -/
theorem map_call_askedAll (before : List HighlightCall) : (ns : List Node) → IsApart ns →
    (askedAll a before none ns).map Exchange.call = calls ns
  | [], _ => rfl
  | n :: ns, apart => by
    obtain ⟨first, rest⟩ := IsApart.cons_iff.1 apart
    rw [askedAll_cons_of_none (swapFor?_none n), List.map_append, map_call_asked before n first, swapBehind_none,
      map_call_askedAll _ ns rest, calls_cons n ns]

end

theorem askedAll_of_isApart {ns : List Node} (apart : IsApart ns) (before : List HighlightCall) :
    askedAll a before none ns = exchanges a before (calls ns) := by
  rw [askedAll_eq_exchanges, map_call_askedAll before ns apart]

/-! ### Blocks without markup -/

mutual

theorem answered_eq_self (before : List HighlightCall) : (n : Node) → (∀ x ∈ asked a before n, x.markup? = none) →
    answered a before n = n
  | .text _, _ => rfl
  | .root _, _ => rfl
  | .element t p cs, without => by
    rw [asked] at without
    rw [answered]
    cases call : blockCall? t cs with
    | none =>
      rw [call] at without
      exact congrArg (Node.element t p) (answeredAll_eq_self before cs without)
    | some c =>
      rw [call] at without
      obtain ⟨own, below⟩ := List.forall_mem_cons.1 without
      rw [own] at below
      dsimp only
      rw [own, answeredAll_eq_self _ cs below]

/-- Blocks that are not asked for, and those for which there is no markup, stay as they are. -/
theorem answeredAll_eq_self (before : List HighlightCall) : (ns : List Node) →
    (∀ x ∈ askedAll a before none ns, x.markup? = none) → answeredAll a before none ns = ns
  | [], _ => rfl
  | n :: ns, without => by
    rw [askedAll_cons_of_none (swapFor?_none n), swapBehind_none] at without
    obtain ⟨own, rest⟩ := List.forall_mem_append.1 without
    rw [answeredAll, swapFor?_none, swapBehind_none]
    dsimp only
    rw [answered_eq_self before n own, answeredAll_eq_self _ ns rest]

end

/-! ### The walk over a forest -/

theorem ends_of_calls_eq_nil (s : Progress) : (ns : List Node) → calls ns = [] →
    Ends a document none s ns ⟨ns, s, none⟩
  | [], _ => .nil none s
  | .text v :: ns, quiet => .other rfl (ends_of_calls_eq_nil s ns quiet)
  | .root cs :: ns, quiet => .other rfl (ends_of_calls_eq_nil s ns quiet)
  | .element t p cs :: ns, quiet => by
    rw [calls_cons_element, List.append_eq_nil_iff, List.append_eq_nil_iff, Option.toList_eq_nil_iff] at quiet
    obtain ⟨⟨call, below⟩, behind⟩ := quiet
    have rest : Ends a document (swapBehind (.element t p cs) none) s ns ⟨ns, s, none⟩ :=
      (swapBehind_none _).symm ▸ ends_of_calls_eq_nil s ns behind
    exact .element p (.silent s (fun _ => rfl) call) (ends_of_calls_eq_nil s cs below) rfl rest

/-- A walk comes to an end with what is done then, and unless it is stopped it leaves the given nodes. -/
def Finishes (a : Adapter) (document : String) (swap : Option (List Node)) (s : Progress) (ns : List Node)
    (done : Progress × Option PipelineError) (ms : List Node) : Prop :=
  ∃ w, Ends a document swap s ns w ∧ (w.progress, w.stop) = done ∧ (w.stop = none → w.nodes = ms)

namespace Finishes

variable {swap swap' : Option (List Node)} {s s' : Progress} {t : String} {p : Properties} {n : Node}
  {ns ms ms' cs cs' : List Node} {xs ys : List Exchange} {done : Progress × Option PipelineError}

theorem other (other : n.element? = none) (rest : Finishes a document swap s ns done ms) :
    Finishes a document swap s (n :: ns) done (n :: ms) := by
  obtain ⟨w, ends, done, nodes⟩ := rest
  exact ⟨_, .other other ends, done, fun goesOn => congrArg (n :: ·) (nodes goesOn)⟩

theorem element (p : Properties) (enters : Enters a document swap s t cs swap' s' cs')
    (inner : Finishes a document swap' s' cs' (s'.upTo document xs) ms)
    (rest : firstFailure? document xs = none →
      Finishes a document (swapBehind (.element t p cs) swap) (s'.record xs) ns ((s'.record xs).upTo document ys) ms') :
    Finishes a document swap s (.element t p cs :: ns) (s'.upTo document (xs ++ ys)) (.element t p ms :: ms') := by
  obtain ⟨w, ends, done, nodes⟩ := inner
  obtain ⟨progress, stop⟩ := Prod.mk.inj done
  cases first : firstFailure? document xs with
  | some e =>
    have stopped : w.stop = some e := stop.trans first
    refine ⟨_, .stopped p ns enters ends (by rw [stopped]; rfl), ?_, fun goesOn => nomatch stopped.symm.trans goesOn⟩
    rw [Progress.upTo_append_of_some first]
    exact Prod.ext progress stopped
  | none =>
    have goesOn : w.stop = none := stop.trans first
    rw [untilFailure_of_none first] at progress
    obtain ⟨w', ends', done', nodes'⟩ := rest first
    rw [← progress] at ends'
    refine ⟨_, .element p enters ends goesOn ends', ?_, fun goesOn' => ?_⟩
    · rw [Progress.upTo_append_of_none first]
      exact done'
    · exact congr (congrArg (fun ms => (Node.element t p ms :: ·)) (nodes goesOn)) (nodes' goesOn')

end Finishes

/-- As long as no answer holds a block, the walk comes to an end: it makes the calls in order, and without a failure it
leaves the markup of the answers in their places. -/
theorem finishes_forest (swap : Option (List Node)) (quiet : ∀ content ∈ swap, calls content = []) (s : Progress) :
    (ns : List Node) → IsPlain (untilFailure document (askedAll a s.calls swap ns)) →
    Finishes a document swap s ns (s.upTo document (askedAll a s.calls swap ns)) (answeredAll a s.calls swap ns)
  | [], _ => ⟨_, .nil swap s, (Progress.upTo_nil document s).symm, fun _ => rfl⟩
  | .text v :: ns, plain => by
    rw [askedAll_cons_of_other rfl] at plain ⊢
    rw [answeredAll_cons_of_other rfl]
    exact .other rfl (finishes_forest swap quiet s ns plain)
  | .root cs :: ns, plain => by
    rw [askedAll_cons_of_other rfl] at plain ⊢
    rw [answeredAll_cons_of_other rfl]
    exact .other rfl (finishes_forest swap quiet s ns plain)
  | .element t p cs :: ns, plain => by
    have nothing : ∀ content ∈ (none : Option (List Node)), calls content = [] := fun _ h => nomatch h
    cases swapped : swapFor? (.element t p cs) swap with
    | some content =>
      obtain ⟨code, rfl⟩ := Option.ite_none_right_eq_some.1 swapped
      obtain rfl : t = "code" := of_decide_eq_true code
      -- the content is that of an answer, so there is nothing to ask for in it
      have inner : Finishes a document none s content (s.upTo document []) content :=
        ⟨_, ends_of_calls_eq_nil s content (quiet content rfl), (Progress.upTo_nil document s).symm, fun _ => rfl⟩
      rw [askedAll_cons_of_some swapped, swapBehind_of_isCode code] at plain ⊢
      rw [answeredAll, swapped, ← List.nil_append (askedAll a s.calls none ns)]
      refine .element p (.swapped content s cs) inner fun _ => ?_
      rw [swapBehind_of_isCode code, Progress.record_nil]
      exact finishes_forest none nothing s ns plain
    | none =>
      have behind : ∀ content ∈ swapBehind (.element t p cs) swap, calls content = [] := by
        unfold swapBehind
        split
        · exact nothing
        · exact quiet
      rw [askedAll_cons_of_none swapped, asked] at plain ⊢
      rw [answeredAll, swapped, answered, asked]
      cases call : blockCall? t cs with
      | none =>
        rw [call] at plain
        dsimp only at plain ⊢
        have kept : t = "code" → swap = none := fun code => (if_pos (decide_eq_true code)).symm.trans swapped
        refine .element p (.silent s kept call) (finishes_forest none nothing s cs plain.of_append) fun first => ?_
        rw [untilFailure_append_of_none first, isPlain_append_iff] at plain
        exact finishes_forest (swapBehind (.element t p cs) swap) behind (s.record _) ns plain.2
      | some c =>
        rw [call] at plain
        dsimp only at plain ⊢
        rw [List.cons_append] at plain ⊢
        cases fails : (exchange a s.calls c).failure? document with
        | some e =>
          exact ⟨_, .failed p ns call fails, (Progress.upTo_of_failure fails _).symm, fun goesOn => nomatch goesOn⟩
        | none =>
          rw [untilFailure, fails, Option.isSome_none, if_neg Bool.false_ne_true] at plain
          obtain ⟨own, plain⟩ := isPlain_cons_iff.1 plain
          rw [Progress.upTo_of_answer fails]
          have inner := finishes_forest _ own (s.record [exchange a s.calls c]) cs plain.of_append
          refine .element p (.asked call fails) inner fun first => ?_
          rw [untilFailure_append_of_none first, isPlain_append_iff] at plain
          rw [Progress.record_record]
          exact finishes_forest (swapBehind (.element t p cs) swap) behind (s.record _) ns plain.2

end Folio.CodeBlock
