import Folio.Pipeline
import Folio.Proofs.Highlighting

/-!
# What highlighting changes

If no answer holds a block, highlighting comes to an end: it makes the calls that are said by `askedAll`, up to the first
failure, and without a failure it leaves the tree that is said by `answeredAll` (`highlight_eq_answered`).
-/

namespace Folio.CodeBlock

open Html Heading

/-- No answer of a highlighter holds a block. -/
def IsBlockless (h : Highlighter) : Prop :=
  ∀ before c html, h before c = .markup html → ∀ e ∈ Node.elementsAll (Fragment.parse html), e.tag ≠ "pre"

variable {a : Adapter} {document : String}

theorem exists_html_of_markup? {before : List HighlightCall} {c : HighlightCall} {content : List Node}
    (h : (exchange a before c).markup? = some content) :
    ∃ html, a.highlighter before c = .markup html ∧ Fragment.parse html = content := by
  unfold Exchange.markup? exchange Adapter.call at h
  cases answer : a.highlighter before c with
  | markup html =>
    rw [answer] at h
    exact ⟨html, rfl, Option.some.inj h⟩
  | _ =>
    rw [answer] at h
    cases h

theorem isPlain_exchanges (blockless : IsBlockless a.highlighter) (before cs : List HighlightCall) :
    IsPlain (exchanges a before cs) := by
  induction cs generalizing before with
  | nil => exact fun _ h => nomatch h
  | cons c cs ih =>
    refine isPlain_cons_iff.2 ⟨fun content markup => ?_, ih _⟩
    obtain ⟨html, answer, rfl⟩ := exists_html_of_markup? markup
    exact calls_eq_nil_of_forall (blockless before c html answer)

theorem isPlain_untilFailure (blockless : IsBlockless a.highlighter) (document : String) (before : List HighlightCall)
    (swap : Option (List Node)) (ns : List Node) : IsPlain (untilFailure document (askedAll a before swap ns)) := by
  intro x hx
  rw [askedAll_eq_exchanges] at hx
  exact isPlain_exchanges blockless before _ x (mem_of_mem_untilFailure hx)

/-! ### A highlighter that knows nothing -/

section

variable (unsupported : ∀ before c, a.highlighter before c = .unsupported)

include unsupported

theorem result_of_unsupported (before : List HighlightCall) (c : HighlightCall) :
    (exchange a before c).result = .ok .unsupported := by
  unfold exchange Adapter.call
  rw [unsupported]

theorem answers_of_unsupported (before cs : List HighlightCall) :
    ∀ x ∈ exchanges a before cs, x.failure? document = none ∧ x.markup? = none := by
  induction cs generalizing before with
  | nil => exact fun _ h => nomatch h
  | cons c cs ih =>
    refine List.forall_mem_cons.2 ⟨?_, ih _⟩
    unfold Exchange.failure? Exchange.markup?
    rw [result_of_unsupported unsupported]
    exact ⟨rfl, rfl⟩

end

/-! ### The highlighting of a tree -/

theorem withChildren_congr {f g : List Node → List Node} {tree : Node} (h : f tree.children = g tree.children) :
    withChildren f tree = withChildren g tree := by
  cases tree with
  | root cs => exact congrArg Node.root h
  | element t p cs => exact congrArg (Node.element t p) h
  | text v => rfl

theorem withChildren_self (tree : Node) : withChildren (fun ns => ns) tree = tree := by
  cases tree <;> rfl

/-- Highlighting comes to an end with what is asked and, without a failure, with the answers in their places. -/
theorem exists_value?_highlight (blockless : IsBlockless a.highlighter) (document : String) (tree : Node) :
    ∃ w : Walk, (highlight a document tree).value? = some (w.highlighted tree) ∧
      (w.progress, w.stop) = Progress.upTo document {} (askedAll a [] none tree.children) ∧
      (w.stop = none → (w.highlighted tree).tree = withChildren (answeredAll a [] none) tree) := by
  obtain ⟨w, ends, done, nodes⟩ := finishes_forest none (fun _ h => nomatch h) {} tree.children
    (isPlain_untilFailure blockless document [] none tree.children)
  exact ⟨w, value?_highlight_eq_some_iff.2 ⟨w, ends, rfl⟩, done, fun goesOn => withChildren_congr (nodes goesOn)⟩

theorem value?_highlightStep (b : Adapter) (document : String) (page : Pipeline.Page) :
    (Pipeline.highlightStep b document page).value? =
      (highlight (b.after page.calls) document page.tree).value?.map fun h =>
        ({ page with
            tree := h.tree, warnings := page.warnings ++ h.progress.warnings, calls := page.calls ++ h.progress.calls },
          match h.outcome with
          | .ok _ => none
          | .error e => some e) := by
  rw [Pipeline.highlightStep, Course.value?_bind]
  cases (highlight (b.after page.calls) document page.tree).value? with
  | none => rfl
  | some h =>
    rw [Option.bind_some, Option.map_some]
    cases h.outcome <;> rfl

/-- Where no answer holds a block, highlighting comes to an end. It gives code that was asked for the markup of the
answer for its content, and leaves all else as it is. The calls go to blocks of the tree in document order, one behind
the other, and each language that is not known leaves one warning behind those of the page. A call that fails is the last
one, and the failure names its language. -/
theorem highlight_eq_answered (a : Adapter) (document : String) (tree : Node) (blockless : IsBlockless a.highlighter) :
    let made := askedAll a [] none tree.children
    made = exchanges a [] (made.map Exchange.call) ∧ (made.map Exchange.call).Sublist (calls tree.children) ∧
    (IsApart tree.children → made.map Exchange.call = calls tree.children) ∧
    (∀ before n, (∀ x ∈ asked a before n, x.markup? = none) → answered a before n = n) ∧
    ∃ done, (highlight a document tree).value? = some done ∧
      done.progress.calls = (untilFailure document made).map Exchange.call ∧
      (∀ (b : Adapter) (f : Option Frontmatter) (page : Pipeline.Page), page.tree = tree → b.after page.calls = a →
        (Pipeline.htmlStep (some b) f document page .highlight).value?.map (fun r => r.1.warnings) =
          some (page.warnings ++ ((untilFailure document made).filter Exchange.isUnknown).map Exchange.warning)) ∧
      ((∀ x ∈ made, x.failure? document = none) →
        done.tree = withChildren (answeredAll a [] none) tree ∧
        done.outcome = .ok (made.countP fun x => x.markup?.isSome)) ∧
      (∀ front x back e, made = front ++ x :: back → (∀ y ∈ front, y.failure? document = none) →
        x.failure? document = some e →
        let before := front.map Exchange.call
        done.progress.calls = before ++ [x.call] ∧ done.outcome = .error e ∧
          ((a.highlighter before x.call = .silent ∧ e = .highlightTimeout x.call.language document a.timeout) ∨
            (a.highlighter before x.call ≠ .silent ∧ ∃ reason, e = .highlight x.call.language document reason))) ∧
      ((∀ before c, a.highlighter before c = .unsupported) → done.tree = tree) := by
  intro made
  have inOrder : made = exchanges a [] (made.map Exchange.call) := askedAll_eq_exchanges [] none tree.children
  obtain ⟨w, ended, done, nodes⟩ := exists_value?_highlight blockless document tree
  have done : (w.progress, w.stop) = Progress.upTo document {} made := done
  obtain ⟨calls, outcome⟩ := outcome_highlighted done tree
  obtain ⟨progress, stop⟩ := Prod.mk.inj done
  have goesOn (answered : ∀ x ∈ made, x.failure? document = none) : w.stop = none :=
    stop.trans (firstFailure?_eq_none_iff.2 answered)
  refine ⟨inOrder, sublist_askedAll [] none tree.children, map_call_askedAll [] tree.children,
    answered_eq_self, w.highlighted tree, ended, calls, ?_, ?_, ?_, ?_⟩
  · rintro b f page rfl rfl
    rw [Pipeline.htmlStep, value?_highlightStep, ended]
    have warnings : w.progress.warnings = [] ++ _ := congrArg Progress.warnings progress
    exact congrArg (fun ws => some (page.warnings ++ ws)) (warnings.trans (List.nil_append _))
  · intro answered
    refine ⟨nodes (goesOn answered), outcome.trans ?_⟩
    rw [outcomeOf, firstFailure?_eq_none_iff.2 answered]
  · intro front x back e split answered fails before
    obtain ⟨first, upTo⟩ := untilFailure_append_cons answered fails back
    have same : x = exchange a before x.call := by
      have result := result_of_exchanges (inOrder.symm.trans split)
      rw [List.nil_append] at result
      exact congrArg (Exchange.mk x.call) result
    have fails' : (exchange a before x.call).failure? document = some e := by rwa [← same]
    refine ⟨?_, ?_, failure?_cases fails'⟩
    · rw [calls, split, upTo, List.map_append]
      rfl
    · rw [outcome, split, outcomeOf, first]
  · intro unsupported
    have without : ∀ x ∈ made, x.failure? document = none ∧ x.markup? = none := by
      rw [inOrder]
      exact answers_of_unsupported unsupported [] _
    rw [nodes (goesOn fun x hx => (without x hx).1)]
    exact (withChildren_congr (answeredAll_eq_self [] tree.children fun x hx => (without x hx).2)).trans
      (withChildren_self tree)

/-- A highlighter that has one answer to all of a language the first time, and fails for another. -/
def canned : Highlighter := fun before c =>
  if c.language = "rust" ∧ ∀ d ∈ before, d.language ≠ "rust" then .markup "<b>Some</b> code"
  else if c.language = "broken" then .failed "no grammar"
  else .unsupported

theorem isBlockless_canned : IsBlockless canned := by
  intro before c html answer
  unfold canned at answer
  split at answer
  · obtain rfl := Answer.markup.inj answer
    decide +kernel
  · split at answer <;> cases answer

theorem highlight_eq_answered_canned :
    let quoted : Node := .element "blockquote" .empty [taggedBlock "fn" "rust", taggedBlock "ls" "sh"]
    let tree : Node := .root [quoted, .element "pre" .empty [.text "plain"], taggedBlock "let" "rust"]
    let broken : Node := .root [taggedBlock "ls" "sh", taggedBlock "x" "broken", quoted]
    IsBlockless canned ∧
      (∃ done, (highlight ⟨canned, 10⟩ "post.md" tree).value? = some done ∧
        done.tree.texts = ["Some", " code", "ls", "plain", "let"] ∧
        done.progress.calls = [⟨"fn", "rust"⟩, ⟨"ls", "sh"⟩, ⟨"let", "rust"⟩]) ∧
      ∃ done, (highlight ⟨canned, 10⟩ "post.md" broken).value? = some done ∧
        done.progress.calls = [⟨"ls", "sh"⟩, ⟨"x", "broken"⟩] ∧
        done.outcome = .error (.highlight "broken" "post.md" "no grammar") := by
  intro quoted tree broken
  obtain ⟨-, -, -, -, done, ended, asks, -, answers, -⟩ :=
    highlight_eq_answered ⟨canned, 10⟩ "post.md" tree isBlockless_canned
  obtain ⟨-, -, -, -, done', ended', -, -, -, fails, -⟩ :=
    highlight_eq_answered ⟨canned, 10⟩ "post.md" broken isBlockless_canned
  have blocks : calls broken.children = [⟨"ls", "sh"⟩, ⟨"x", "broken"⟩, ⟨"fn", "rust"⟩, ⟨"ls", "sh"⟩] := by
    decide +kernel
  have split : askedAll ⟨canned, 10⟩ [] none broken.children = [exchange ⟨canned, 10⟩ [] ⟨"ls", "sh"⟩] ++
      exchange ⟨canned, 10⟩ [⟨"ls", "sh"⟩] ⟨"x", "broken"⟩ ::
        exchanges ⟨canned, 10⟩ [⟨"ls", "sh"⟩, ⟨"x", "broken"⟩] [⟨"fn", "rust"⟩, ⟨"ls", "sh"⟩] := by
    rw [askedAll_of_isApart (by decide +kernel), blocks]
    rfl
  obtain ⟨upTo, outcome, -⟩ := fails _ _ _ (.highlight "broken" "post.md" "no grammar") split (by decide +kernel)
    (by decide +kernel)
  refine ⟨isBlockless_canned, ⟨done, ended, ?_, ?_⟩, done', ended', upTo, outcome⟩
  · rw [(answers (by decide +kernel)).1]
    decide +kernel
  · rw [asks]
    decide +kernel

end Folio.CodeBlock
