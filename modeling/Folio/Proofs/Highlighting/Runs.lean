import Folio.Proofs.Highlighting.Frame
import Folio.Proofs.Html.Steps

/-!
# Runs with a highlighter

Whether a transformation comes to an end is up to its highlighter. It does if no answer holds a block
(`exists_value?_transform`). It does not if every answer holds one, once a block is left when the highlighter is asked
(`run_eq_none`).
-/

namespace Folio.CodeBlock

theorem IsBlockless.after {a : Adapter} (blockless : IsBlockless a.highlighter) (before : List HighlightCall) :
    IsBlockless (a.after before).highlighter :=
  fun later c html answer => blockless (before ++ later) c html answer

/-- Every answer of a highlighter holds a block. -/
def IsEchoing (h : Highlighter) : Prop := ∀ before c, ∃ html, h before c = .markup html ∧ calls (Fragment.parse html) ≠ []

namespace IsEchoing

variable {a : Adapter}

theorem after (echo : IsEchoing a.highlighter) (before : List HighlightCall) :
    IsEchoing (a.after before).highlighter := fun later c => echo (before ++ later) c

theorem highlight_eq_none (echo : IsEchoing a.highlighter) (document : String) {tree : Html.Node}
    (blocks : calls tree.children ≠ []) : (highlight a document tree).value? = none := by
  have answer (before : List HighlightCall) (c : HighlightCall) :
      ∃ html, (exchange a before c).result = .ok (.markup html) ∧ calls (Fragment.parse html) ≠ [] := by
    obtain ⟨html, answer, holds⟩ := echo before c
    refine ⟨html, ?_, holds⟩
    unfold exchange Adapter.call
    rw [answer]
  refine CodeBlock.highlight_eq_none (fun before c => ?_) (fun before c => ?_) blocks
  · obtain ⟨html, result, -⟩ := answer before c
    rw [Exchange.failure?, result]
  · obtain ⟨html, result, holds⟩ := answer before c
    refine Exchange.holdsBlock_iff.2 ⟨_, ?_, holds⟩
    rw [Exchange.markup?, result]

end IsEchoing

end Folio.CodeBlock

namespace Folio.Pipeline

open CodeBlock

variable {files : Storage} {document : String}

/-! ### Answers without blocks -/

section

variable {adapter : Option Adapter} (blockless : ∀ a ∈ adapter, IsBlockless a.highlighter)

include blockless

theorem exists_value?_htmlStep (f : Option Frontmatter) (document : String) (s : Page) (p : HtmlPass) :
    ∃ r, (htmlStep adapter f document s p).value? = some r := by
  by_cases silent : adapter = none ∨ p ≠ .highlight
  · exact ⟨_, value?_htmlStep f document s silent⟩
  · obtain ⟨given, rfl⟩ := not_or.1 silent |>.imp_right Classical.not_not.1
    obtain ⟨a, rfl⟩ := Option.ne_none_iff_exists'.1 given
    obtain ⟨w, ended, -⟩ := exists_value?_highlight ((blockless a rfl).after s.calls) document s.tree
    rw [htmlStep, value?_highlightStep, ended]
    exact ⟨_, rfl⟩

theorem exists_value?_htmlSteps_of_isBlockless (f : Option Frontmatter) (document : String) (s : Page)
    (ps : List HtmlPass) : ∃ r, (htmlSteps adapter f document s ps).value? = some r := by
  induction ps generalizing s with
  | nil => exact ⟨_, rfl⟩
  | cons p ps ih =>
    obtain ⟨⟨t, stop⟩, step⟩ := exists_value?_htmlStep blockless f document s p
    simp only [htmlSteps, Course.value?_bind, Course.value?_lift, Option.bind_some, step]
    cases stop with
    | none => exact ih t
    | some e => exact ⟨_, rfl⟩

end

theorem exists_value?_run {p : Pipeline} (blockless : ∀ a ∈ p.adapter, IsBlockless a.highlighter) (files : Storage)
    (tree : Markdown.Node) (f : Option Frontmatter) (document : String) :
    ∃ r, (p.run files tree f document).value? = some r := by
  simp only [run, Course.value?_bind, Course.value?_lift, Option.bind_some]
  cases (markdownSteps files p.options document { tree, frontmatter := f } p.markdown).value with
  | error e => exact ⟨_, rfl⟩
  | ok s =>
    obtain ⟨⟨t, stop⟩, steps⟩ :=
      exists_value?_htmlSteps_of_isBlockless blockless s.frontmatter document (rendered p.options s) p.html
    unfold rendered at steps
    simp only [Course.value?_bind, Course.value?_lift, Option.bind_some, steps]
    cases stop <;> exact ⟨_, rfl⟩

/-- A transformation comes to an end without a highlighter, and with one if no answer holds a block. -/
theorem exists_value?_transform {p : Pipeline} (blockless : ∀ a ∈ p.adapter, IsBlockless a.highlighter)
    (files : Storage) (source document : String) : ∃ r, (p.transform files source document).value? = some r := by
  rw [transform]
  cases readFrontmatter source with
  | error e => exact ⟨_, rfl⟩
  | ok f => exact exists_value?_run blockless files _ f document

/-! ### Answers without end -/

/-- If every answer holds a block, then a run does not come to an end once there is a block when the highlighter is
asked. -/
theorem run_eq_none {p : Pipeline} {a : Adapter} (asks : p.adapter = some a) (echo : IsEchoing a.highlighter)
    {before after : List HtmlPass} (passes : p.html = before ++ .highlight :: after) (silent : .highlight ∉ before)
    {tree : Markdown.Node} {f : Option Frontmatter} {s : Source} {page : Page}
    (source : (markdownSteps files p.options document { tree, frontmatter := f } p.markdown).value = .ok s)
    (reached : before.foldlM (advance s.frontmatter document) (rendered p.options s) = .ok page)
    (blocks : calls page.tree.children ≠ []) : (p.run files tree f document).value? = none := by
  have steps : (htmlSteps (some a) s.frontmatter document (rendered p.options s) (before ++ .highlight :: after)).value?
      = _ := value?_htmlSteps_append _ _ _ before (.highlight :: after)
  rw [value?_htmlSteps_of_foldlM s.frontmatter document (.inr silent) reached] at steps
  simp only [Option.bind_some, htmlSteps, Course.value?_bind, Course.value?_lift] at steps
  rw [htmlStep, value?_highlightStep, (echo.after page.calls).highlight_eq_none document blocks] at steps
  simp only [run, Course.value?_bind, Course.value?_lift, Option.bind_some, source, asks, passes]
  unfold rendered at steps
  rw [steps]
  rfl

/-- The blocks of a document when its highlighter is asked, if it comes that far. -/
def blocks? (files : Storage) (options : Options) (source document : String) : Option (List HighlightCall) := do
  let f ← (readFrontmatter source).toOption
  let s ← (markdownSteps files options document { tree := Markdown.parse postDialect source, frontmatter := f }
    MarkdownPass.all).value.toOption
  some (calls (Heading.injectAnchors (Heading.assign (rendered options s).tree).1).1.children)

/-- If every answer holds a block, then a document with a block does not come to an end. -/
theorem transform_eq_none {options : Options} {h : Highlighter} (echo : IsEchoing h) {source : String}
    {c : HighlightCall} {cs : List HighlightCall} (blocks : blocks? files options source document = some (c :: cs)) :
    (((ofOptions options).withHighlighter h).transform files source document).value? = none := by
  obtain ⟨f, data, blocks⟩ := Option.bind_eq_some_iff.1 blocks
  obtain ⟨s, steps, blocks⟩ := Option.bind_eq_some_iff.1 blocks
  rw [transform]
  cases read : readFrontmatter source with
  | error e =>
    rw [read] at data
    cases data
  | ok f' =>
    rw [read] at data
    obtain rfl := Option.some.inj data
    cases taken : (markdownSteps files options document
      { tree := Markdown.parse postDialect source, frontmatter := f' } MarkdownPass.all).value with
    | error e =>
      rw [taken] at steps
      cases steps
    | ok s' =>
      rw [taken] at steps
      obtain rfl := Option.some.inj steps
      have passes : HtmlPass.all = [.headingIds, .headingAnchors] ++ .highlight :: [.codeCopy, .sections, .title] := rfl
      refine run_eq_none rfl echo passes (by decide) taken rfl ?_
      exact Option.some.inj blocks ▸ List.cons_ne_nil c cs

end Folio.Pipeline
