import Folio.Proofs.Highlighting.Exchanges

/-!
# Walks that come to an end

`Ends` says without a walker how a walk over a forest comes to an end, one rule for each way in which it goes on. A walk
comes to an end just if these rules derive what it comes to (`walk_eq_some_iff`), so what holds of all walks that end is
shown rule by rule: no call is taken back (`Ends.calls_prefix`), a block is asked for (`Ends.length_lt`), and markup that
is put into a forest is walked over as well (`Ends.content`). There is no end if every call is answered with a block
(`walk_eq_none`).
-/

namespace Folio.CodeBlock

open Html

/-! ### Code -/

def isCode (n : Node) : Bool := n.element?.any fun e => e.tag = "code"

/-- The content for the first code behind a node. -/
def swapBehind (n : Node) (swap : Option (List Node)) : Option (List Node) := if isCode n then none else swap

@[simp] theorem swapBehind_none (n : Node) : swapBehind n none = none := ite_self _

theorem swapBehind_of_isCode {n : Node} (h : isCode n) (swap : Option (List Node)) : swapBehind n swap = none :=
  if_pos h

theorem swapBehind_of_not_isCode {n : Node} (h : ¬ isCode n) (swap : Option (List Node)) :
    swapBehind n swap = swap := if_neg h

theorem swapBehind_eq (n : Node) (swap : Option (List Node)) :
    (if (n.element?.any fun e => e.tag = "code") && swap.isSome then none else swap) = swapBehind n swap := by
  cases swap with
  | none => rw [ite_self, swapBehind_none]
  | some content => rw [Option.isSome_some, Bool.and_true]; rfl

theorem firstCode?_cons_of_not {n : Node} (h : ¬ isCode n) (ns : List Node) :
    firstCode? (n :: ns) = firstCode? ns := by
  rw [firstCode?, List.filterMap_cons]
  cases n with
  | element t p cs =>
    have ht : ¬ decide (t = "code") = true := h
    exact List.find?_cons_of_neg ht
  | _ => rfl

theorem isSome_firstCode?_of_call? {cs : List Node} {c : HighlightCall} (h : call? cs = some c) :
    (firstCode? cs).isSome := by
  unfold call? at h
  cases code : firstCode? cs with
  | none =>
    rw [code] at h
    cases h
  | some e => rfl

theorem isSome_firstCode?_of_blockCall? {t : String} {cs : List Node} {c : HighlightCall}
    (h : blockCall? t cs = some c) : (firstCode? cs).isSome :=
  isSome_firstCode?_of_call? (Option.ite_none_right_eq_some.1 h).2

/-! ### The rules -/

/-- What is walked over below an element: the content that its code gets; all that is there, if it is not asked for; or
all that is there with the markup of the answer for the first code, if the call does not fail. -/
inductive Enters (a : Adapter) (document : String) :
    Option (List Node) → Progress → String → List Node → Option (List Node) → Progress → List Node → Prop
  | swapped (content : List Node) (s : Progress) (cs : List Node) :
    Enters a document (some content) s "code" cs none s content
  | silent {swap : Option (List Node)} {t : String} {cs : List Node} (s : Progress)
      (kept : t = "code" → swap = none) (call : blockCall? t cs = none) : Enters a document swap s t cs none s cs
  | asked {swap : Option (List Node)} {s : Progress} {t : String} {cs : List Node} {c : HighlightCall}
      (call : blockCall? t cs = some c) (answered : (exchange a s.calls c).failure? document = none) :
    Enters a document swap s t cs (exchange a s.calls c).markup? (s.record [exchange a s.calls c]) cs

/-- A walk over a forest that comes to an end. -/
inductive Ends (a : Adapter) (document : String) : Option (List Node) → Progress → List Node → Walk → Prop
  | nil (swap : Option (List Node)) (s : Progress) : Ends a document swap s [] ⟨[], s, none⟩
  | other {swap : Option (List Node)} {s : Progress} {n : Node} {ns : List Node} {w : Walk}
      (other : n.element? = none) (rest : Ends a document swap s ns w) :
    Ends a document swap s (n :: ns) ⟨n :: w.nodes, w.progress, w.stop⟩
  | failed {swap : Option (List Node)} {s : Progress} {t : String} (p : Properties) {cs : List Node} (ns : List Node)
      {c : HighlightCall} {e : PipelineError} (call : blockCall? t cs = some c)
      (fails : (exchange a s.calls c).failure? document = some e) :
    Ends a document swap s (.element t p cs :: ns) ⟨.element t p cs :: ns, s.record [exchange a s.calls c], some e⟩
  | stopped {swap swap' : Option (List Node)} {s s' : Progress} {t : String} (p : Properties) {cs cs' : List Node}
      (ns : List Node) {w : Walk} (enters : Enters a document swap s t cs swap' s' cs')
      (inner : Ends a document swap' s' cs' w) (stop : w.stop.isSome) :
    Ends a document swap s (.element t p cs :: ns) ⟨.element t p w.nodes :: ns, w.progress, w.stop⟩
  | element {swap swap' : Option (List Node)} {s s' : Progress} {t : String} (p : Properties) {cs cs' ns : List Node}
      {w w' : Walk} (enters : Enters a document swap s t cs swap' s' cs') (inner : Ends a document swap' s' cs' w)
      (goesOn : w.stop = none) (rest : Ends a document (swapBehind (.element t p cs) swap) w.progress ns w') :
    Ends a document swap s (.element t p cs :: ns) ⟨.element t p w.nodes :: w'.nodes, w'.progress, w'.stop⟩

variable {a : Adapter} {document : String} {swap swap' : Option (List Node)} {s s' : Progress} {t : String}
  {p : Properties} {n : Node} {ns cs cs' : List Node} {c : HighlightCall} {w w' : Walk}

/-! ### Walkers -/

def Walk.under (t : String) (p : Properties) (w : Walk) : Walk := ⟨[.element t p w.nodes], w.progress, w.stop⟩

theorem askFor_eq (t : String) (cs : List Node) (s : Progress) :
    askFor a document t cs s = match blockCall? t cs with
      | some c => (s.record [exchange a s.calls c], (exchange a s.calls c).markup?,
          (exchange a s.calls c).failure? document)
      | none => (s, none, none) := by
  unfold askFor blockCall?
  cases (if t = "pre" then call? cs else none) with
  | none => rfl
  | some c => exact ask_eq a document c s

theorem walkNode_of_failure (deeper : Walker) (swap : Option (List Node)) (p : Properties) {e : PipelineError}
    (call : blockCall? t cs = some c) (fails : (exchange a s.calls c).failure? document = some e) :
    walkNode a document deeper swap s (.element t p cs) =
      some ⟨[.element t p cs], s.record [exchange a s.calls c], some e⟩ := by
  have ht : t ≠ "code" := eq_pre_of_blockCall? call ▸ by decide
  rw [walkNode, if_neg ht, askFor_eq, call]
  dsimp only
  rw [fails]

theorem walkNode_of_enters (p : Properties) (enters : Enters a document swap s t cs swap' s' cs') :
    walkNode a document (walk a document) swap s (.element t p cs) =
      (walkAll a document (walk a document) swap' s' cs').map (Walk.under t p) := by
  cases enters with
  | swapped content s cs =>
    rw [walkNode, if_pos rfl, ← walk]
    dsimp only
    cases walk a document cs' s <;> rfl
  | silent s kept call =>
    have swapped : (if t = "code" then swap else none) = none := ite_eq_right_iff.2 kept
    rw [walkNode, swapped, askFor_eq, call]
    dsimp only
    cases walkAll a document (walk a document) none s cs <;> rfl
  | asked call answered =>
    have ht : t ≠ "code" := eq_pre_of_blockCall? call ▸ by decide
    rw [walkNode, if_neg ht, askFor_eq, call]
    dsimp only
    rw [answered]
    dsimp only
    cases walkAll a document (walk a document) _ _ cs <;> rfl

theorem walkAll_cons (deeper : Walker) (swap : Option (List Node)) (s : Progress) (n : Node) (ns : List Node) :
    walkAll a document deeper swap s (n :: ns) =
      (walkNode a document deeper swap s n).bind fun first =>
        if first.stop.isSome then some ⟨first.nodes ++ ns, first.progress, first.stop⟩
        else (walkAll a document deeper (swapBehind n swap) first.progress ns).map fun rest =>
          ⟨first.nodes ++ rest.nodes, rest.progress, rest.stop⟩ := by
  rw [walkAll, swapBehind_eq]
  refine Option.bind_congr fun first _ => ?_
  split
  · rfl
  · cases walkAll a document deeper (swapBehind n swap) first.progress ns <;> rfl

theorem walkAll_cons_of_isSome {deeper : Walker} (first : walkNode a document deeper swap s n = some w)
    (stop : w.stop.isSome) (ns : List Node) :
    walkAll a document deeper swap s (n :: ns) = some ⟨w.nodes ++ ns, w.progress, w.stop⟩ := by
  rw [walkAll_cons, first, Option.bind_some, if_pos stop]

theorem walkAll_cons_of_eq_none {deeper : Walker} (first : walkNode a document deeper swap s n = some w)
    (goesOn : w.stop = none) (ns : List Node) :
    walkAll a document deeper swap s (n :: ns) =
      (walkAll a document deeper (swapBehind n swap) w.progress ns).map fun rest =>
        ⟨w.nodes ++ rest.nodes, rest.progress, rest.stop⟩ := by
  rw [walkAll_cons, first, Option.bind_some, goesOn, Option.isSome_none, if_neg Bool.false_ne_true]

theorem Ends.walkAll_eq (h : Ends a document swap s ns w) :
    walkAll a document (walk a document) swap s ns = some w := by
  induction h with
  | nil swap s => rfl
  | @other swap s n ns w other rest ih =>
    have first : walkNode a document (walk a document) swap s n = some ⟨[n], s, none⟩ := by
      cases n with
      | element t p cs => cases other
      | _ => rfl
    have behind : swapBehind n swap = swap := by rw [swapBehind, isCode, other]; rfl
    rw [walkAll_cons_of_eq_none first rfl, behind, ih]
    rfl
  | failed p ns call fails => exact walkAll_cons_of_isSome (walkNode_of_failure _ _ p call fails) rfl ns
  | stopped p ns enters inner stop ih =>
    have first := walkNode_of_enters p enters
    rw [ih] at first
    exact walkAll_cons_of_isSome first stop ns
  | element p enters inner goesOn rest ih ihRest =>
    have first := walkNode_of_enters p enters
    rw [ih] at first
    exact (walkAll_cons_of_eq_none first goesOn _).trans (congrArg (Option.map _) ihRest)

/-- Behind a walk over its first tree the walk over a forest goes on, unless it is stopped. -/
structure Leads (a : Adapter) (document : String) (swap : Option (List Node)) (s : Progress) (n : Node) (w : Walk) :
    Prop where
  stopped : ∀ ns, w.stop.isSome → Ends a document swap s (n :: ns) ⟨w.nodes ++ ns, w.progress, w.stop⟩
  goesOn : ∀ {ns rest}, w.stop = none → Ends a document (swapBehind n swap) w.progress ns rest →
    Ends a document swap s (n :: ns) ⟨w.nodes ++ rest.nodes, rest.progress, rest.stop⟩

theorem Leads.of_enters (p : Properties) (enters : Enters a document swap s t cs swap' s' cs')
    (inner : Ends a document swap' s' cs' w) : Leads a document swap s (.element t p cs) (w.under t p) where
  stopped ns := .stopped p ns enters inner
  goesOn goesOn rest := .element p enters inner goesOn rest

theorem Leads.of_other (other : n.element? = none) (swap : Option (List Node)) (s : Progress) :
    Leads a document swap s n ⟨[n], s, none⟩ := by
  have behind : swapBehind n swap = swap := by rw [swapBehind, isCode, other]; rfl
  constructor
  · intro ns stop
    cases stop
  · intro ns rest _ ends
    rw [behind] at ends
    exact .other other ends

section

variable {deeper : Walker}

mutual

theorem leads_walkNode (below : ∀ content s w, deeper content s = some w → Ends a document none s content w)
    (swap : Option (List Node)) (s : Progress) : (n : Node) → {w : Walk} →
    walkNode a document deeper swap s n = some w → Leads a document swap s n w
  | .text _, _, h => Option.some.inj h ▸ .of_other rfl swap s
  | .root _, _, h => Option.some.inj h ▸ .of_other rfl swap s
  | .element t p cs, w, h => by
    cases swapped : (if t = "code" then swap else none) with
    | some content =>
      obtain ⟨rfl, rfl⟩ := Option.ite_none_right_eq_some.1 swapped
      rw [walkNode, swapped] at h
      obtain ⟨inner, walked, made⟩ := Option.bind_eq_some_iff.1 h
      exact Option.some.inj made ▸ .of_enters p (.swapped content s cs) (below content s inner walked)
    | none =>
      rw [walkNode, swapped, askFor_eq] at h
      cases call : blockCall? t cs with
      | none =>
        rw [call] at h
        obtain ⟨inner, walked, made⟩ := Option.bind_eq_some_iff.1 h
        exact Option.some.inj made ▸
          .of_enters p (.silent s (ite_eq_right_iff.1 swapped) call) (ends_of_walkAll below none s cs walked)
      | some c =>
        rw [call] at h
        dsimp only at h
        cases fails : (exchange a s.calls c).failure? document with
        | some e =>
          rw [fails] at h
          obtain rfl := Option.some.inj h
          exact ⟨fun ns _ => .failed p ns call fails, fun goesOn => nomatch goesOn⟩
        | none =>
          rw [fails] at h
          obtain ⟨inner, walked, made⟩ := Option.bind_eq_some_iff.1 h
          exact Option.some.inj made ▸ .of_enters p (.asked call fails) (ends_of_walkAll below _ _ cs walked)

/-- If the rules derive what walks over markup come to, then also what a walk over a forest does. -/
theorem ends_of_walkAll (below : ∀ content s w, deeper content s = some w → Ends a document none s content w)
    (swap : Option (List Node)) (s : Progress) : (ns : List Node) → {w : Walk} →
    walkAll a document deeper swap s ns = some w → Ends a document swap s ns w
  | [], _, h => Option.some.inj h ▸ .nil swap s
  | n :: ns, w, h => by
    rw [walkAll_cons] at h
    obtain ⟨first, walked, h⟩ := Option.bind_eq_some_iff.1 h
    have leads := leads_walkNode below swap s n walked
    by_cases stop : first.stop.isSome
    · rw [if_pos stop] at h
      exact Option.some.inj h ▸ leads.stopped ns stop
    · rw [if_neg stop] at h
      obtain ⟨rest, walked, made⟩ := Option.map_eq_some_iff.1 h
      exact made ▸ leads.goesOn (Option.not_isSome_iff_eq_none.1 stop) (ends_of_walkAll below _ _ ns walked)

end

end

/-- A walk comes to an end just if the rules derive what it comes to. -/
theorem walk_eq_some_iff : walk a document ns s = some w ↔ Ends a document none s ns w := by
  constructor
  · -- by induction on the fixpoint: what the walker below returns is derived, so also what is made of it
    refine walk.partial_correctness a document (fun ns s w => Ends a document none s ns w) ?_ ns s w
    exact fun deeper below ns s w h => ends_of_walkAll below none s ns h
  · intro h
    rw [walk]
    exact h.walkAll_eq

/-! ### Calls -/

theorem calls_cons_of_other (other : n.element? = none) (ns : List Node) : calls (n :: ns) = calls ns := by
  cases n with
  | element t p cs => cases other
  | _ => rfl

theorem not_isCode_of_other (other : n.element? = none) : ¬ isCode n := by
  rw [isCode, other]
  exact Bool.false_ne_true

theorem calls_cons_element (t : String) (p : Properties) (cs ns : List Node) :
    calls (.element t p cs :: ns) = (blockCall? t cs).toList ++ calls cs ++ calls ns := by
  rw [calls_cons, calls_element]

theorem Enters.calls_prefix (h : Enters a document swap s t cs swap' s' cs') : s.calls <+: s'.calls := by
  cases h with
  | asked call answered => exact List.prefix_append ..
  | _ => exact List.prefix_rfl

theorem Enters.of_some {content : List Node} (p : Properties)
    (h : Enters a document (some content) s t cs swap' s' cs') :
    (swap' = none ∧ s' = s ∧ cs' = content) ∨ ¬ isCode (.element t p cs) := by
  cases h with
  | swapped => exact .inl ⟨rfl, rfl, rfl⟩
  | silent s kept call => exact .inr fun code => nomatch kept (of_decide_eq_true code)
  | asked call answered =>
    rw [eq_pre_of_blockCall? call]
    exact .inr Bool.false_ne_true

namespace Ends

theorem calls_prefix (h : Ends a document swap s ns w) : s.calls <+: w.progress.calls := by
  induction h with
  | nil swap s => exact List.prefix_rfl
  | other other rest ih => exact ih
  | failed p ns call fails => exact List.prefix_append ..
  | stopped p ns enters inner stop ih => exact enters.calls_prefix.trans ih
  | element p enters inner goesOn rest ih ihRest => exact (enters.calls_prefix.trans ih).trans ihRest

theorem length_lt (h : Ends a document swap s ns w) (bare : swap = none) (goesOn : w.stop = none)
    (blocks : calls ns ≠ []) : s.calls.length < w.progress.calls.length := by
  induction h with
  | nil swap s => exact absurd rfl blocks
  | other other rest ih =>
    rw [calls_cons_of_other other] at blocks
    exact ih bare goesOn blocks
  | failed p ns call fails => cases goesOn
  | stopped p ns enters inner stop ih =>
    rw [goesOn] at stop
    cases stop
  | element p enters inner goesOn' rest ih ihRest =>
    subst bare
    have before := enters.calls_prefix.length_le
    have below := inner.calls_prefix.length_le
    have behind := rest.calls_prefix.length_le
    cases enters with
    | silent s kept call =>
      rw [calls_cons_element, call, Option.toList_none, List.nil_append] at blocks
      rcases Classical.not_and_iff_not_or_not.1 (mt List.append_eq_nil_iff.2 blocks) with inside | after
      · exact Nat.lt_of_lt_of_le (ih rfl goesOn' inside) behind
      · exact Nat.lt_of_le_of_lt below (ihRest (swapBehind_none _) goesOn after)
    | asked call answered =>
      -- the call for the block itself is one more
      rw [Progress.calls_record, List.length_append, List.map_singleton, List.length_singleton] at below
      dsimp only
      omega

theorem content {content : List Node} (h : Ends a document swap s ns w) (given : swap = some content)
    (code : (firstCode? ns).isSome) (goesOn : w.stop = none) :
    ∃ s₁ w₁, s.calls <+: s₁.calls ∧ Ends a document none s₁ content w₁ ∧ w₁.stop = none ∧
      w₁.progress.calls <+: w.progress.calls := by
  induction h with
  | nil swap s => cases code
  | other other rest ih =>
    rw [firstCode?_cons_of_not (not_isCode_of_other other)] at code
    exact ih given code goesOn
  | failed p ns call fails => cases goesOn
  | stopped p ns enters inner stop ih =>
    rw [goesOn] at stop
    cases stop
  | element p enters inner goesOn' rest ih ihRest =>
    subst given
    rcases enters.of_some p with ⟨rfl, rfl, rfl⟩ | other
    · exact ⟨_, _, List.prefix_rfl, inner, goesOn', rest.calls_prefix⟩
    · rw [firstCode?_cons_of_not other] at code
      obtain ⟨s₁, w₁, upTo, walked, ended, after⟩ := ihRest (swapBehind_of_not_isCode other _) code goesOn
      exact ⟨s₁, w₁, (enters.calls_prefix.trans inner.calls_prefix).trans upTo, walked, ended, after⟩

theorem stop_eq_none (h : Ends a document swap s ns w)
    (answers : ∀ before c, (exchange a before c).failure? document = none) : w.stop = none := by
  induction h with
  | nil swap s => rfl
  | other other rest ih => exact ih
  | failed p ns call fails =>
    rw [answers] at fails
    cases fails
  | stopped p ns enters inner stop ih => exact ih
  | element p enters inner goesOn rest ih ihRest => exact ihRest

end Ends

/-! ### Answers without end -/

/-- Does the answer hold a block? -/
def Exchange.holdsBlock (x : Exchange) : Bool := x.markup?.any fun content => !(calls content).isEmpty

theorem Exchange.holdsBlock_iff {x : Exchange} :
    x.holdsBlock ↔ ∃ content, x.markup? = some content ∧ calls content ≠ [] := by
  unfold holdsBlock
  cases x.markup? <;> simp

/-- If every answer holds a block, then only walks without blocks are not stopped. -/
theorem Ends.calls_eq_nil (h : Ends a document swap s ns w)
    (echo : ∀ before c, (exchange a before c).failure? document = none → (exchange a before c).holdsBlock)
    (goesOn : w.stop = none) :
    (swap = none → calls ns = []) ∧ ∀ content ∈ swap, (firstCode? ns).isSome → calls content = [] := by
  induction h with
  | nil swap s => exact ⟨fun _ => rfl, fun content _ code => nomatch code⟩
  | other other rest ih =>
    rw [calls_cons_of_other other, firstCode?_cons_of_not (not_isCode_of_other other)]
    exact ih goesOn
  | failed p ns call fails => cases goesOn
  | stopped p ns enters inner stop ih =>
    rw [goesOn] at stop
    cases stop
  | element p enters inner goesOn' rest ih ihRest =>
    obtain ⟨below, given⟩ := ih goesOn'
    obtain ⟨behind, givenBehind⟩ := ihRest goesOn
    constructor
    · rintro rfl
      cases enters with
      | silent s kept call =>
        rw [calls_cons_element, call, below rfl, behind (swapBehind_none _)]
        rfl
      | asked call answered =>
        -- the markup of the answer is walked over below, so it would hold no block
        obtain ⟨content, markup, blocks⟩ := Exchange.holdsBlock_iff.1 (echo _ _ answered)
        exact absurd (given content markup (isSome_firstCode?_of_blockCall? call)) blocks
    · rintro content rfl code
      rcases enters.of_some p with ⟨rfl, -, rfl⟩ | other
      · exact below rfl
      · rw [firstCode?_cons_of_not other] at code
        exact givenBehind content (swapBehind_of_not_isCode other _) code

/-- If every call is answered with a block, then a walk over blocks does not come to an end. -/
theorem walk_eq_none (answers : ∀ before c, (exchange a before c).failure? document = none)
    (echo : ∀ before c, (exchange a before c).holdsBlock) (blocks : calls ns ≠ []) (s : Progress) :
    walk a document ns s = none := by
  refine Option.eq_none_iff_forall_ne_some.2 fun w h => ?_
  have ends := walk_eq_some_iff.1 h
  exact blocks ((ends.calls_eq_nil (fun before c _ => echo before c) (ends.stop_eq_none answers)).1 rfl)

end Folio.CodeBlock
