import Folio.CodeBlock.Highlighting
import Folio.Proofs.Html.Forest

/-!
# Calls and what comes of them

`calls` lists the calls for the blocks of a tree. An exchange is a call with its answer, and `exchanges` lists those of
calls that are made one after the other, as a highlighter may remember what it was asked before. What has been done
grows by the exchanges up to the first one that fails (`Progress.record`, `untilFailure`).
-/

namespace Folio.CodeBlock

open Html

/-! ### Calls -/

/-- The call for an element, if it is a block that names its language. -/
def blockCall? (tag : String) (children : List Node) : Option HighlightCall :=
  if tag = "pre" then call? children else none

/-- The calls for the blocks of a forest that are reached through elements. -/
def calls (forest : List Node) : List HighlightCall :=
  (Node.elementsAll forest).filterMap fun e => blockCall? e.tag e.children

/-- No block stands within another one. -/
def IsApart (forest : List Node) : Prop :=
  ∀ e ∈ Node.elementsAll forest, e.tag = "pre" → ∀ d ∈ Node.elementsAll e.children, d.tag ≠ "pre"

instance (forest : List Node) : Decidable (IsApart forest) :=
  inferInstanceAs (Decidable (∀ e ∈ Node.elementsAll forest, _))

theorem eq_pre_of_blockCall? {t : String} {cs : List Node} {c : HighlightCall} (h : blockCall? t cs = some c) :
    t = "pre" := (Option.ite_none_right_eq_some.1 h).1

theorem calls_append (ns ms : List Node) : calls (ns ++ ms) = calls ns ++ calls ms := by
  rw [calls, Node.elementsAll_append, List.filterMap_append]
  rfl

theorem calls_cons (n : Node) (ns : List Node) : calls (n :: ns) = calls [n] ++ calls ns := calls_append [n] ns

theorem calls_element (t : String) (p : Properties) (cs : List Node) :
    calls [.element t p cs] = (blockCall? t cs).toList ++ calls cs := by
  rw [calls, Node.elementsAll, Node.elements, Node.elementsAll, List.append_nil, List.filterMap_cons]
  dsimp only
  cases blockCall? t cs <;> rfl

theorem calls_eq_nil_of_forall {forest : List Node} (h : ∀ d ∈ Node.elementsAll forest, d.tag ≠ "pre") :
    calls forest = [] := by
  rw [calls, List.filterMap_eq_nil_iff]
  intro e he
  exact if_neg (h e he)

namespace IsApart

variable {n : Node} {ns cs : List Node} {t : String} {p : Properties}

theorem append_iff {ms : List Node} : IsApart (ns ++ ms) ↔ IsApart ns ∧ IsApart ms := by
  rw [IsApart, Node.elementsAll_append]
  exact List.forall_mem_append

theorem cons_iff : IsApart (n :: ns) ↔ IsApart [n] ∧ IsApart ns := by
  rw [← List.singleton_append, append_iff]

theorem element_iff : IsApart [.element t p cs] ↔
    (t = "pre" → ∀ d ∈ Node.elementsAll cs, d.tag ≠ "pre") ∧ IsApart cs := by
  rw [IsApart, Node.elementsAll, Node.elements, Node.elementsAll, List.append_nil]
  exact List.forall_mem_cons

theorem calls_eq_nil (h : IsApart [.element t p cs]) {c : HighlightCall} (call : blockCall? t cs = some c) :
    calls cs = [] :=
  calls_eq_nil_of_forall ((element_iff.1 h).1 (eq_pre_of_blockCall? call))

end IsApart

/-! ### Exchanges -/

/-- A call and what comes of it. -/
structure Exchange where
  call : HighlightCall
  result : Except CallError Highlight

namespace Exchange

/-- The markup of the answer. -/
def markup? (x : Exchange) : Option (List Node) :=
  match x.result with
  | .ok (.markup html) => some (Fragment.parse html)
  | _ => none

def failure? (document : String) (x : Exchange) : Option PipelineError :=
  match x.result with
  | .ok _ => none
  | .error e => some (e.toPipelineError x.call.language document)

def isUnknown (x : Exchange) : Bool :=
  match x.result with
  | .ok .unsupported => true
  | _ => false

def warning (x : Exchange) : Warning := .unsupportedLanguage x.call.language

end Exchange

section

variable (a : Adapter) (document : String)

/-- A call behind others. -/
def exchange (before : List HighlightCall) (c : HighlightCall) : Exchange := ⟨c, a.call before c⟩

/-- Calls one after the other, behind others. -/
def exchanges (before : List HighlightCall) : List HighlightCall → List Exchange
  | [] => []
  | c :: cs => exchange a before c :: exchanges (before ++ [c]) cs

/-- The exchanges up to the first one that fails. -/
def untilFailure : List Exchange → List Exchange
  | [] => []
  | x :: xs => x :: if (x.failure? document).isSome then [] else untilFailure xs

def firstFailure? (xs : List Exchange) : Option PipelineError := xs.findSome? (Exchange.failure? document)

/-- No answer holds a block. -/
def IsPlain (xs : List Exchange) : Prop := ∀ x ∈ xs, ∀ content ∈ x.markup?, calls content = []

instance (xs : List Exchange) : Decidable (IsPlain xs) :=
  inferInstanceAs (Decidable (∀ x ∈ xs, ∀ content ∈ x.markup?, calls content = []))

/-- What has been done once more exchanges are made. -/
def Progress.record (s : Progress) (xs : List Exchange) : Progress where
  calls := s.calls ++ xs.map Exchange.call
  count := s.count + xs.countP fun x => x.markup?.isSome
  warnings := s.warnings ++ (xs.filter Exchange.isUnknown).map Exchange.warning

end

variable {a : Adapter} {document : String}

@[simp] theorem call_exchange (before : List HighlightCall) (c : HighlightCall) : (exchange a before c).call = c := rfl

theorem exchanges_append (before cs ds : List HighlightCall) :
    exchanges a before (cs ++ ds) = exchanges a before cs ++ exchanges a (before ++ cs) ds := by
  induction cs generalizing before with
  | nil => rw [List.append_nil]; rfl
  | cons c cs ih => rw [List.cons_append, exchanges, ih, exchanges, List.append_assoc]; rfl

@[simp] theorem map_call_exchanges (before cs : List HighlightCall) :
    (exchanges a before cs).map Exchange.call = cs := by
  induction cs generalizing before with
  | nil => rfl
  | cons c cs ih => exact congrArg (c :: ·) (ih _)

theorem result_of_exchanges {before cs : List HighlightCall} {front back : List Exchange} {x : Exchange}
    (h : exchanges a before cs = front ++ x :: back) :
    x.result = a.call (before ++ front.map Exchange.call) x.call := by
  have made := congrArg (List.map Exchange.call) h
  rw [map_call_exchanges, List.map_append, List.map_cons] at made
  rw [made, exchanges_append] at h
  have length := congrArg List.length (map_call_exchanges (a := a) before (front.map Exchange.call))
  rw [List.length_map, List.length_map] at length
  obtain ⟨-, same⟩ := List.append_inj h length
  obtain ⟨first, -⟩ := List.cons_eq_cons.1 same
  exact (congrArg Exchange.result first).symm

/-! ### Failures -/

section

variable {xs ys : List Exchange} {x : Exchange}

theorem firstFailure?_append :
    firstFailure? document (xs ++ ys) = (firstFailure? document xs).or (firstFailure? document ys) :=
  List.findSome?_append

theorem firstFailure?_eq_none_iff : firstFailure? document xs = none ↔ ∀ x ∈ xs, x.failure? document = none :=
  List.findSome?_eq_none_iff

theorem untilFailure_append (xs ys : List Exchange) :
    untilFailure document (xs ++ ys) =
      if (firstFailure? document xs).isSome then untilFailure document xs else xs ++ untilFailure document ys := by
  induction xs with
  | nil => rfl
  | cons x xs ih =>
    rw [List.cons_append, untilFailure, untilFailure, ih, firstFailure?, firstFailure?, List.findSome?_cons]
    cases x.failure? document with
    | some e => rfl
    | none =>
      change x :: (if (xs.findSome? (Exchange.failure? document)).isSome then _ else _) = _
      split <;> rfl

theorem untilFailure_append_of_some {e : PipelineError} (h : firstFailure? document xs = some e) (ys : List Exchange) :
    untilFailure document (xs ++ ys) = untilFailure document xs := by
  rw [untilFailure_append, h, Option.isSome_some, if_pos rfl]

theorem untilFailure_append_of_none (h : firstFailure? document xs = none) (ys : List Exchange) :
    untilFailure document (xs ++ ys) = xs ++ untilFailure document ys := by
  rw [untilFailure_append, h, Option.isSome_none, if_neg Bool.false_ne_true]

theorem untilFailure_of_none (h : firstFailure? document xs = none) : untilFailure document xs = xs := by
  have none := untilFailure_append_of_none h []
  rwa [List.append_nil, untilFailure, List.append_nil] at none

theorem mem_of_mem_untilFailure (h : x ∈ untilFailure document xs) : x ∈ xs := by
  induction xs with
  | nil => exact h
  | cons y ys ih =>
    rw [untilFailure, List.mem_cons] at h
    rcases h with rfl | h
    · exact List.mem_cons_self
    · split at h
      · nomatch h
      · exact List.mem_cons_of_mem _ (ih h)

/-- A first failure among exchanges, and the exchanges up to it. -/
theorem untilFailure_append_cons {e : PipelineError} (goesOn : ∀ y ∈ xs, y.failure? document = none)
    (fails : x.failure? document = some e) (ys : List Exchange) :
    firstFailure? document (xs ++ x :: ys) = some e ∧ untilFailure document (xs ++ x :: ys) = xs ++ [x] := by
  have none : firstFailure? document xs = none := firstFailure?_eq_none_iff.2 goesOn
  constructor
  · rw [firstFailure?_append, none, Option.none_or, firstFailure?, List.findSome?_cons, fails]
  · rw [untilFailure_append_of_none none, untilFailure, fails]
    rfl

theorem isPlain_cons_iff : IsPlain (x :: xs) ↔ (∀ content ∈ x.markup?, calls content = []) ∧ IsPlain xs :=
  List.forall_mem_cons

theorem isPlain_append_iff : IsPlain (xs ++ ys) ↔ IsPlain xs ∧ IsPlain ys := List.forall_mem_append

theorem IsPlain.of_append (h : IsPlain (untilFailure document (xs ++ ys))) : IsPlain (untilFailure document xs) := by
  cases first : firstFailure? document xs with
  | some e => rwa [untilFailure_append_of_some first] at h
  | none =>
    rw [untilFailure_append_of_none first, isPlain_append_iff] at h
    rw [untilFailure_of_none first]
    exact h.1

end

/-! ### Progress -/

namespace Progress

variable (s : Progress) (xs ys : List Exchange)

@[simp] theorem record_nil : s.record [] = s := by
  obtain ⟨calls, count, warnings⟩ := s
  simp [record]

@[simp] theorem record_record : (s.record xs).record ys = s.record (xs ++ ys) := by
  simp [record, Nat.add_assoc]

@[simp] theorem calls_record : (s.record xs).calls = s.calls ++ xs.map Exchange.call := rfl

end Progress

/-- What has been done after exchanges up to the first failure, and the failure. -/
def Progress.upTo (document : String) (s : Progress) (xs : List Exchange) : Progress × Option PipelineError :=
  (s.record (untilFailure document xs), firstFailure? document xs)

namespace Progress

variable {s : Progress} {xs : List Exchange} {x : Exchange}

@[simp] theorem upTo_nil (document : String) (s : Progress) : s.upTo document [] = (s, none) :=
  congrArg (·, none) (record_nil s)

theorem upTo_append_of_some {e : PipelineError} (h : firstFailure? document xs = some e) (ys : List Exchange) :
    s.upTo document (xs ++ ys) = (s.record (untilFailure document xs), some e) := by
  rw [upTo, untilFailure_append_of_some h, firstFailure?_append, h, Option.some_or]

theorem upTo_append_of_none (h : firstFailure? document xs = none) (ys : List Exchange) :
    s.upTo document (xs ++ ys) = (s.record xs).upTo document ys := by
  rw [upTo, untilFailure_append_of_none h, firstFailure?_append, h, Option.none_or, upTo, record_record]

theorem upTo_of_failure {e : PipelineError} (fails : x.failure? document = some e) (ys : List Exchange) :
    s.upTo document (x :: ys) = (s.record [x], some e) := by
  rw [upTo, untilFailure, firstFailure?, List.findSome?_cons, fails]
  rfl

theorem upTo_of_answer (answered : x.failure? document = none) (ys : List Exchange) :
    s.upTo document (x :: ys) = (s.record [x]).upTo document ys := by
  have first : firstFailure? document [x] = none := firstFailure?_eq_none_iff.2 (List.forall_mem_singleton.2 answered)
  exact upTo_append_of_none first ys

end Progress

/-- An answer is recorded; it is markup, or a failure, or neither. -/
theorem ask_eq (a : Adapter) (document : String) (c : HighlightCall) (s : Progress) :
    ask a document c s =
      let x := exchange a s.calls c
      (s.record [x], x.markup?, x.failure? document) := by
  unfold ask exchange
  rcases a.call s.calls c with e | html | _ <;> simp [Progress.record, Exchange.markup?, Exchange.failure?] <;> rfl

/-- How a call that fails ends a walk. -/
theorem failure?_cases {before : List HighlightCall} {c : HighlightCall} {e : PipelineError}
    (fails : (exchange a before c).failure? document = some e) :
    (a.highlighter before c = .silent ∧ e = .highlightTimeout c.language document a.timeout) ∨
      (a.highlighter before c ≠ .silent ∧ ∃ reason, e = .highlight c.language document reason) := by
  unfold Exchange.failure? exchange Adapter.call at fails
  cases answer : a.highlighter before c with
  | silent =>
    rw [answer] at fails
    exact .inl ⟨rfl, (Option.some.inj fails).symm⟩
  | failed reason | panicked =>
    rw [answer] at fails
    exact .inr ⟨Answer.noConfusion, _, (Option.some.inj fails).symm⟩
  | markup html | unsupported =>
    rw [answer] at fails
    cases fails

end Folio.CodeBlock
