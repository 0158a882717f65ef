import Folio.Proofs.Highlighting.Answered

/-!
# What the highlighter is asked

The walk over a tree asks for the blocks of it in order and stops at the first failure, as long as no answer holds a
block itself (`highlight_calls`): blocks in an answer are asked for as well. So a highlighter that answers every call
with a block is asked forever (`highlight_eq_none`).
-/

namespace Folio.CodeBlock

open Html Heading

variable {a : Adapter} {document : String} {swap : Option (List Node)} {s : Progress} {ns : List Node} {w : Walk}

/-! ### Walks to a depth -/

/-- Walks over a forest, over the markup that is put into it, and so on to a depth; what is deeper has no end. -/
def walkTo (a : Adapter) (document : String) : Nat → Walker
  | 0 => fun _ _ => none
  | depth + 1 => fun ns s => walkAll a document (walkTo a document depth) none s ns

theorem extends_walkTo (a : Adapter) (document : String) (depth : Nat) :
    Extends (walkTo a document depth) (walk a document) := by
  induction depth with
  | zero => exact fun _ _ => .inl rfl
  | succ depth ih =>
    intro ns s
    rw [walk]
    exact walkAll_extends ih none s ns

/-- What a walk comes to at some depth is what it comes to. -/
theorem map_walk_of_walkTo {β : Type} {f : Walk → β} {x : β} (depth : Nat)
    (h : (walkTo a document depth ns s).map f = some x) : (walk a document ns s).map f = some x := by
  rcases extends_walkTo a document depth ns s with none | same
  · rw [none] at h
    cases h
  · rwa [← same]

/-! ### The highlighting of a tree -/

def Walk.highlighted (tree : Node) (w : Walk) : Highlighted where
  tree := withChildren (fun _ => w.nodes) tree
  progress := w.progress
  outcome :=
    match w.stop with
    | some e => .error e
    | none => .ok w.progress.count

theorem value?_highlight (a : Adapter) (document : String) (tree : Node) :
    (highlight a document tree).value? = (walk a document tree.children {}).map (Walk.highlighted tree) := by
  cases tree with
  | text v =>
    have nothing : walk a document [] {} = some ⟨[], {}, none⟩ := walk_eq_some_iff.2 (.nil none {})
    exact (congrArg (Option.map (Walk.highlighted (.text v))) nothing).symm
  | element | root =>
    simp only [highlight, Course.value?_bind, Course.value?_ofOption, Course.value?_lift, Option.bind_some]
    cases walk a document _ {} with
    | none => rfl
    | some w =>
      rw [Option.bind_some, Option.map_some, Walk.highlighted]
      cases w.stop <;> rfl

theorem value?_highlight_eq_some_iff {tree : Node} {done : Highlighted} :
    (highlight a document tree).value? = some done ↔
      ∃ w, Ends a document none {} tree.children w ∧ w.highlighted tree = done := by
  simp only [value?_highlight, Option.map_eq_some_iff, walk_eq_some_iff]

/-- If every call is answered with a block, then there is no end once there is a block. -/
theorem highlight_eq_none (answers : ∀ before c, (exchange a before c).failure? document = none)
    (echo : ∀ before c, (exchange a before c).holdsBlock) {tree : Node} (blocks : calls tree.children ≠ []) :
    (highlight a document tree).value? = none := by
  rw [value?_highlight, walk_eq_none answers echo blocks]
  rfl

/-- The calls for the blocks of a tree in order, with what comes of them. -/
def blockExchanges (a : Adapter) (tree : Node) : List Exchange := exchanges a [] (calls tree.children)

/-- How many blocks are highlighted by exchanges, or the first failure. -/
def outcomeOf (document : String) (made : List Exchange) : Except PipelineError Nat :=
  match firstFailure? document made with
  | some e => .error e
  | none => .ok (made.countP fun x => x.markup?.isSome)

/-- Highlighting comes to an end. The blocks of the tree are asked for in order, up to the first failure, and nothing
else is. Without a failure the answers with markup are counted. -/
def AsksOnce (a : Adapter) (document : String) (tree : Node) : Prop :=
  ∃ done, (highlight a document tree).value? = some done ∧
    done.progress.calls = (untilFailure document (blockExchanges a tree)).map Exchange.call ∧
    done.outcome = outcomeOf document (blockExchanges a tree)

theorem outcome_highlighted {made : List Exchange} (done : (w.progress, w.stop) = Progress.upTo document {} made)
    (tree : Node) :
    (w.highlighted tree).progress.calls = (untilFailure document made).map Exchange.call ∧
      (w.highlighted tree).outcome = outcomeOf document made := by
  obtain ⟨progress, stop⟩ := Prod.mk.inj done
  refine ⟨(congrArg Progress.calls progress).trans (List.nil_append _), ?_⟩
  unfold Walk.highlighted outcomeOf
  rw [stop]
  cases first : firstFailure? document made with
  | some e => rfl
  | none =>
    rw [untilFailure_of_none first] at progress
    rw [progress]
    exact congrArg Except.ok (Nat.zero_add _)

theorem asksOnce_of_isPlain {tree : Node} (apart : IsApart tree.children)
    (plain : IsPlain (untilFailure document (blockExchanges a tree))) : AsksOnce a document tree := by
  have asked : askedAll a [] none tree.children = blockExchanges a tree := askedAll_of_isApart apart []
  rw [← asked] at plain
  obtain ⟨w, ends, done, -⟩ := finishes_forest none (fun _ h => nomatch h) {} tree.children plain
  have done : (w.progress, w.stop) = Progress.upTo document {} (blockExchanges a tree) :=
    done.trans (congrArg (Progress.upTo document {}) asked)
  exact ⟨_, value?_highlight_eq_some_iff.2 ⟨w, ends, rfl⟩, outcome_highlighted done tree⟩

/-- Behind progress there is more, by at least as many calls as given; if it is by just these, then no answer to them
holds a block. -/
structure Covers (a : Adapter) (s : Progress) (cs : List HighlightCall) (s' : Progress) : Prop where
  le : s.calls.length + cs.length ≤ s'.calls.length
  isPlain : s'.calls = s.calls ++ cs → IsPlain (exchanges a s.calls cs)

namespace Covers

variable {s' s'' : Progress} {t : String} {cs : List Node} {c : HighlightCall} {asked asked' : List HighlightCall}

theorem nil (a : Adapter) (s : Progress) : Covers a s [] s := ⟨Nat.le_refl _, fun _ _ h => nomatch h⟩

theorem append (first : Covers a s asked s') (rest : Covers a s' asked' s'') (later : s'.calls <+: s''.calls) :
    Covers a s (asked ++ asked') s'' where
  le := by
    have le := first.le
    have le' := rest.le
    rw [List.length_append]
    omega
  isPlain all := by
    -- the calls that are made first are in front, and there are enough of them
    have front : s.calls ++ asked <+: s''.calls := ⟨asked', by rw [all, List.append_assoc]⟩
    have length := congrArg List.length all
    simp only [List.length_append] at length
    have le := first.le
    have le' := rest.le
    have same : s.calls ++ asked = s'.calls :=
      (List.prefix_of_prefix_length_le front later (by rw [List.length_append]; omega)).eq_of_length
        (by rw [List.length_append]; omega)
    rw [exchanges_append, isPlain_append_iff, same]
    refine ⟨first.isPlain same.symm, rest.isPlain ?_⟩
    rw [all, ← same, List.append_assoc]

/-- A block in an answer costs a call more than the one that is answered. -/
theorem of_asked (call : blockCall? t cs = some c)
    (inner : Ends a document (exchange a s.calls c).markup? (s.record [exchange a s.calls c]) cs w)
    (goesOn : w.stop = none) : Covers a s [c] w.progress := by
  refine ⟨?_, fun all => isPlain_cons_iff.2 ⟨fun content markup => ?_, fun _ h => nomatch h⟩⟩
  · have le := inner.calls_prefix.length_le
    rwa [Progress.calls_record, List.length_append] at le
  · obtain ⟨s₁, w₁, before, walked, goesOn₁, after⟩ :=
      inner.content markup (isSome_firstCode?_of_blockCall? call) goesOn
    have le := before.length_le
    have le' := after.length_le
    rw [all, List.length_append] at le'
    rw [Progress.calls_record, List.length_append] at le
    -- a block in the content would be asked for as well, and there is no call left for it
    refine Classical.byContradiction fun blocks => ?_
    have lt := walked.length_lt rfl goesOn₁ blocks
    exact Nat.lt_irrefl _ (Nat.lt_of_le_of_lt le (Nat.lt_of_lt_of_le lt le'))

end Covers

/-- A walk that is not stopped makes a call for each block, and more calls if an answer holds one. -/
theorem Ends.covers (h : Ends a document swap s ns w) (bare : swap = none) (goesOn : w.stop = none)
    (apart : IsApart ns) : Covers a s (calls ns) w.progress := by
  induction h with
  | nil swap s => exact .nil a s
  | other other rest ih =>
    rw [calls_cons_of_other other]
    exact ih bare goesOn (IsApart.cons_iff.1 apart).2
  | failed p ns call fails => cases goesOn
  | stopped p ns enters inner stop ih =>
    rw [goesOn] at stop
    cases stop
  | element p enters inner goesOn' rest ih ihRest =>
    subst bare
    obtain ⟨first, apartRest⟩ := IsApart.cons_iff.1 apart
    rw [calls_cons]
    refine .append ?_ (ihRest (swapBehind_none _) goesOn apartRest) rest.calls_prefix
    rw [calls_element]
    cases enters with
    | silent s kept call =>
      rw [call]
      exact ih rfl goesOn' (IsApart.element_iff.1 first).2
    | asked call answered =>
      rw [call, first.calls_eq_nil call]
      exact .of_asked call inner goesOn'

theorem isPlain_of_asksOnce {tree : Node} (apart : IsApart tree.children)
    (answered : firstFailure? document (blockExchanges a tree) = none) (once : AsksOnce a document tree) :
    IsPlain (blockExchanges a tree) := by
  obtain ⟨done, ended, calls, outcome⟩ := once
  obtain ⟨w, ends, rfl⟩ := value?_highlight_eq_some_iff.1 ended
  have goesOn : w.stop = none := by
    unfold outcomeOf Walk.highlighted at outcome
    rw [answered] at outcome
    cases stop : w.stop with
    | none => rfl
    | some e =>
      rw [stop] at outcome
      cases outcome
  refine (ends.covers rfl goesOn apart).isPlain ?_
  rw [untilFailure_of_none answered, blockExchanges, map_call_exchanges] at calls
  exact calls

/-- If no block of a tree stands within another one, then highlighting comes to an end and each block is asked for once,
in order, up to the first failure, as long as no answer holds a block. If no call fails, it is so just then: the blocks
in answers are asked for as well. -/
theorem highlight_calls (a : Adapter) (document : String) (tree : Node) (apart : IsApart tree.children) :
    (IsPlain (untilFailure document (blockExchanges a tree)) → AsksOnce a document tree) ∧
      (firstFailure? document (blockExchanges a tree) = none →
        (AsksOnce a document tree ↔ IsPlain (blockExchanges a tree))) := by
  refine ⟨asksOnce_of_isPlain apart, fun answered => ⟨isPlain_of_asksOnce apart answered, fun plain => ?_⟩⟩
  rw [← untilFailure_of_none answered] at plain
  exact asksOnce_of_isPlain apart plain

/-- A block whose language is named. -/
def taggedBlock (source language : String) : Node :=
  .element "pre" .empty [.element "code" (.ofList [("class", .tokens ["language-" ++ language])]) [.text source]]

/-- A highlighter that colours one language and fails for another. -/
def colouring : Highlighter := .ofFunction fun source language =>
  if language = "rust" then .markup ("<span class=\"keyword\">" ++ source ++ "</span>")
  else if language = "broken" then .failed "no grammar"
  else .unsupported

theorem asksOnce_colouring :
    let tree : Node :=
      .root [taggedBlock "fn" "rust", taggedBlock "ls" "sh", taggedBlock "x" "broken", taggedBlock "let" "rust"]
    IsApart tree.children ∧ AsksOnce ⟨colouring, 10⟩ "post.md" tree ∧
      (untilFailure "post.md" (blockExchanges ⟨colouring, 10⟩ tree)).map Exchange.call =
        [⟨"fn", "rust"⟩, ⟨"ls", "sh"⟩, ⟨"x", "broken"⟩] := by
  intro tree
  have apart : IsApart tree.children := by decide +kernel
  have plain : IsPlain (untilFailure "post.md" (blockExchanges ⟨colouring, 10⟩ tree)) := by decide +kernel
  exact ⟨apart, (highlight_calls ⟨colouring, 10⟩ "post.md" tree apart).1 plain, by decide +kernel⟩

/-- A highlighter whose answer for one language holds a block of another. -/
def quoting : Highlighter := .ofFunction fun _ language =>
  if language = "a" then .markup "<pre><code class=\"language-b\">x</code></pre>" else .unsupported

/-- The block in the answer is asked for as well. -/
theorem highlight_quoting :
    let tree : Node := .root [taggedBlock "s" "a"]
    IsApart tree.children ∧ calls tree.children = [⟨"s", "a"⟩] ∧
      (highlight ⟨quoting, 10⟩ "post.md" tree).value?.map (fun done => done.progress.calls) =
        some [⟨"s", "a"⟩, ⟨"x", "b"⟩] := by
  intro tree
  refine ⟨by decide +kernel, by decide +kernel, ?_⟩
  rw [value?_highlight, Option.map_map]
  exact map_walk_of_walkTo 2 (by decide +kernel)

end Folio.CodeBlock
