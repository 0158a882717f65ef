import Folio.Proofs.Html.Steps
import Folio.Proofs.Shift.Draft
import Folio.Proofs.Shift.Rendering
import Mathlib.Data.List.Forall2

/-!
# Steps behind a block of data

A document with a block of data in front and the document alone go through the steps of a pipeline side by side: both
stop, or the block stays in front of the same nodes (`markdownSteps_behind`). Behind the rendering only the trees count
(`Alike.foldlM`).
-/

namespace Folio.Pipeline

open Markdown (Shift)
open Rendering (isHtml isPhrasing isMixed)

/-! ### Nodes -/

/-- A node before and behind a step. What is markup stays as it is. -/
structure Kept (n m : Markdown.Node) : Prop where
  html : isHtml m = isHtml n
  phrasing : isPhrasing m = isPhrasing n
  markup : isHtml n = true → m = n

theorem Kept.refl (n : Markdown.Node) : Kept n n := ⟨rfl, rfl, fun _ => rfl⟩

/-- The nodes of a document before and behind some steps. -/
structure Keeps (ns ms : List Markdown.Node) : Prop where
  mixed : isMixed ms = isMixed ns
  markup : (∀ n ∈ ns, isHtml n = true) → ms = ns

namespace Keeps
variable {ns ms ks : List Markdown.Node}

theorem refl (ns : List Markdown.Node) : Keeps ns ns := ⟨rfl, fun _ => rfl⟩

theorem trans (h : Keeps ns ms) (h' : Keeps ms ks) : Keeps ns ks := by
  refine ⟨h'.mixed.trans h.mixed, ?_⟩
  intro markup
  obtain rfl := h.markup markup
  exact h'.markup markup

theorem of_forall₂ (h : List.Forall₂ Kept ns ms) : Keeps ns ms := by
  constructor
  · have both : ms.any isHtml = ns.any isHtml ∧ ms.all isPhrasing = ns.all isPhrasing := by
      induction h with
      | nil => exact ⟨rfl, rfl⟩
      | cons hn _ ih => simp [hn.html, hn.phrasing, ih.1, ih.2]
    rw [isMixed, isMixed, ← h.length_eq, both.1, both.2]
  · intro markup
    induction h with
    | nil => rfl
    | cons hn _ ih =>
      obtain ⟨first, rest⟩ := List.forall_mem_cons.1 markup
      rw [hn.markup first, ih rest]

end Keeps

theorem kept_includeFiles (files : Storage) (ctx : IncludeContext) (n : Markdown.Node) :
    Kept n (Draft.includeFiles files ctx n).value.value := by
  rcases n with ⟨l, p⟩ | ⟨kind, p, cs⟩
  · rcases l with _ | _ | _ | ⟨value, lang, _ | metaText⟩ <;> try exact .refl _
    rw [Draft.includeFiles, Logged.value_bind]
    rcases (Include.read files metaText ctx (p.map (Draft.locate ctx.document))).value with e | _ | text
    · exact .refl _
    · exact .refl _
    · exact ⟨rfl, rfl, fun markup => absurd markup Bool.false_ne_true⟩
  · refine ⟨rfl, ?_, fun markup => absurd markup Bool.false_ne_true⟩
    cases kind <;> rfl

theorem kept_includeAll (files : Storage) (ctx : IncludeContext) (ns : List Markdown.Node) :
    List.Forall₂ Kept ns (Draft.includeAll files ctx ns).value.value := by
  induction ns with
  | nil => exact .nil
  | cons n ns ih =>
    have first := kept_includeFiles files ctx n
    simp only [Draft.includeAll, Logged.value_bind]
    split
    · exact .cons first (List.forall₂_same.2 fun n _ => .refl n)
    · exact .cons first ih

/-! ### Steps before the rendering -/

/-- A document with a block of data in front of nodes, which stand further down for it, and one with the nodes alone. -/
structure Behind (ns : List Markdown.Node) (whole alone : Source) : Prop where
  tree : ∃ p v q s, whole.tree = .branch .root p (.leaf (.yaml v) q :: ns.map (.shift s))
  tree_alone : ∃ p, alone.tree = .branch .root p ns
  frontmatter : whole.frontmatter = alone.frontmatter

/-- Both stop, or they go on side by side, and the nodes are kept. -/
inductive SideBySide (ns : List Markdown.Node) : Except PipelineError Source → Except PipelineError Source → Prop
  | stopped (e e' : PipelineError) : SideBySide ns (.error e) (.error e')
  | goesOn {ms : List Markdown.Node} {w a : Source} (kept : Keeps ns ms) (h : Behind ms w a) :
    SideBySide ns (.ok w) (.ok a)

theorem SideBySide.behind {ns ms : List Markdown.Node} {x y : Except PipelineError Source} (kept : Keeps ns ms)
    (h : SideBySide ms x y) : SideBySide ns x y := by
  cases h with
  | stopped e e' => exact .stopped e e'
  | goesOn kept' h => exact .goesOn (kept.trans kept') h

variable {ns : List Markdown.Node} {whole alone : Source}

theorem markdownStep_behind (files : Storage) (options : Options) (document : String) (h : Behind ns whole alone)
    (p : MarkdownPass) : SideBySide ns (markdownStep files options document whole p).value
      (markdownStep files options document alone p).value := by
  obtain ⟨⟨p₁, v, q, s, hw⟩, ⟨p₂, ha⟩, hf⟩ := h
  cases p with
  | includeFiles =>
    have moved := Draft.includeAll_shift s files ⟨document, options.includeRoot⟩ ns
    have kept := Keeps.of_forall₂ (kept_includeAll files ⟨document, options.includeRoot⟩ ns)
    have front : (Draft.includeFiles files ⟨document, options.includeRoot⟩ whole.tree).value =
        let r := (Draft.includeAll files ⟨document, options.includeRoot⟩ (ns.map (.shift s))).value
        ⟨.branch .root p₁ (.leaf (.yaml v) q :: r.value), 0 + r.count, r.stop⟩ := by
      rw [hw]
      rfl
    have front_alone : (Draft.includeFiles files ⟨document, options.includeRoot⟩ alone.tree).value =
        let r := (Draft.includeAll files ⟨document, options.includeRoot⟩ ns).value
        ⟨.branch .root p₂ r.value, r.count, r.stop⟩ := by
      rw [ha]
      rfl
    simp only [markdownStep, Logged.value_bind, front, front_alone]
    obtain ⟨value, stop⟩ := moved
    generalize (Draft.includeAll files ⟨document, options.includeRoot⟩ (ns.map (.shift s))).value = r' at value stop
    generalize (Draft.includeAll files ⟨document, options.includeRoot⟩ ns).value = r at kept value stop
    obtain ⟨ms, k, e⟩ := r
    obtain ⟨ms', k', e'⟩ := r'
    dsimp only at value
    subst value
    cases e <;> cases e' <;> try cases stop
    · exact .goesOn kept ⟨⟨p₁, v, q, s, rfl⟩, ⟨p₂, rfl⟩, hf⟩
    · exact .stopped _ _
  | warnLevelOneHeadings => exact .goesOn (.refl ns) ⟨⟨p₁, v, q, s, hw⟩, ⟨p₂, ha⟩, hf⟩
  | estimateReadingTime =>
    have text : Draft.plainText whole.tree = Draft.plainText alone.tree := by
      rw [hw, ha]
      exact Draft.plainText_behind_data s v p₁ q p₂ ns
    simp only [markdownStep]
    rw [← hf]
    cases whole.frontmatter with
    | none => exact .goesOn (.refl ns) ⟨⟨p₁, v, q, s, hw⟩, ⟨p₂, ha⟩, hf⟩
    | some f =>
      refine .goesOn (.refl ns) ⟨⟨p₁, v, q, s, hw⟩, ⟨p₂, ha⟩, ?_⟩
      unfold Draft.estimate
      rw [text]

theorem markdownSteps_behind (files : Storage) (options : Options) (document : String) (h : Behind ns whole alone)
    (ps : List MarkdownPass) : SideBySide ns (markdownSteps files options document whole ps).value
      (markdownSteps files options document alone ps).value := by
  induction ps generalizing ns whole alone with
  | nil => exact .goesOn (.refl ns) h
  | cons p ps ih =>
    have step := markdownStep_behind files options document h p
    simp only [markdownSteps, Logged.value_bind]
    revert step
    generalize (markdownStep files options document whole p).value = r
    generalize (markdownStep files options document alone p).value = r'
    intro step
    cases step with
    | stopped e e' => exact .stopped e e'
    | goesOn kept h => exact (ih h).behind kept

/-! ### Steps behind the rendering -/

/-- Two pages that show the same. -/
structure Alike (s t : Page) : Prop where
  tree : s.tree = t.tree
  headings : s.headings = t.headings

/-- The tree and the headings of a page. -/
def Page.shown (s : Page) : Html.Node × List Heading.Entry := (s.tree, s.headings)

namespace Alike

variable {s t : Page}

/-- A step without a highlighter reads nothing but the tree. -/
theorem advance (h : Alike s t) (f : Option Frontmatter) (document : String) (p : HtmlPass) :
    (∃ e, advance f document s p = .error e ∧ advance f document t p = .error e) ∨
      ∃ s' t', advance f document s p = .ok s' ∧ advance f document t p = .ok t' ∧ Alike s' t' := by
  obtain ⟨tree, headings⟩ := h
  cases p with
  | title =>
    simp only [advance_title, ← tree]
    cases Outline.injectTitle document f s.tree with
    | ok tree => exact .inr ⟨_, _, rfl, rfl, rfl, headings⟩
    | error e => exact .inl ⟨e, rfl, rfl⟩
  | headingIds => exact .inr ⟨_, _, rfl, rfl, by rw [tree], by rw [tree]⟩
  | highlight => exact .inr ⟨s, t, rfl, rfl, tree, headings⟩
  | headingAnchors | codeCopy | sections => exact .inr ⟨_, _, rfl, rfl, by rw [tree], headings⟩

theorem foldlM (h : Alike s t) (f : Option Frontmatter) (document : String) (ps : List HtmlPass) :
    (ps.foldlM (Pipeline.advance f document) s).toOption.map Page.shown =
      (ps.foldlM (Pipeline.advance f document) t).toOption.map Page.shown := by
  induction ps generalizing s t with
  | nil => exact congrArg some (Prod.ext h.tree h.headings)
  | cons p ps ih =>
    rw [List.foldlM_cons, List.foldlM_cons]
    rcases h.advance f document p with ⟨e, first, second⟩ | ⟨s', t', first, second, alike⟩
    · rw [first, second]
    · rw [first, second]
      exact ih alike

end Alike

/-! ### Runs -/

/-- The tree and the headings that a transformation gives. -/
def Run.shown? (r : Run) : Option (Html.Node × List Heading.Entry) :=
  r.outcome.toOption.map fun o => (o.tree, o.headings)

/-- Two transformations come to an end and show the same. -/
def ShowAlike (x y : Course Run) : Prop := ∃ r r', x.value? = some r ∧ y.value? = some r' ∧ r.shown? = r'.shown?

variable (html : List HtmlPass) (options : Options) (files : Storage) (document : String)

/-- What the steps behind the rendering show of a document. -/
def shown? (s : Source) : Option (Html.Node × List Heading.Entry) :=
  (html.foldlM (advance s.frontmatter document) (rendered options s)).toOption.map Page.shown

theorem exists_shown?_run (markdown : List MarkdownPass) (tree : Markdown.Node) (f : Option Frontmatter) :
    ∃ r, (run ⟨markdown, html, options, none⟩ files tree f document).value? = some r ∧
      r.shown? = (markdownSteps files options document { tree, frontmatter := f } markdown).value.toOption.bind
        (shown? html options document) := by
  refine ⟨_, run_eq f document markdown html options files tree, ?_⟩
  cases (markdownSteps files options document { tree, frontmatter := f } markdown).value with
  | error e => rfl
  | ok s =>
    change Run.shown? ⟨[], (html.foldlM (advance s.frontmatter document) (rendered options s)).map _⟩ =
      shown? html options document s
    unfold shown?
    cases html.foldlM (advance s.frontmatter document) (rendered options s) <;> rfl

/-- Runs show the same just if what they are taken to shows the same. -/
theorem showAlike_run_iff (markdown : List MarkdownPass) (w a : Markdown.Node) (f : Option Frontmatter) :
    ShowAlike (run ⟨markdown, html, options, none⟩ files w f document)
        (run ⟨markdown, html, options, none⟩ files a f document) ↔
      (markdownSteps files options document ⟨w, f, []⟩ markdown).value.toOption.bind (shown? html options document) =
        (markdownSteps files options document ⟨a, f, []⟩ markdown).value.toOption.bind
          (shown? html options document) := by
  obtain ⟨r, first, shows⟩ := exists_shown?_run html options files document markdown w f
  obtain ⟨r', second, shows'⟩ := exists_shown?_run html options files document markdown a f
  rw [← shows, ← shows', ShowAlike, first, second]
  constructor
  · rintro ⟨_, _, ⟨⟩, ⟨⟩, same⟩
    exact same
  · exact fun same => ⟨r, r', rfl, rfl, same⟩

theorem shown?_congr {s t : Source}
    (tree : (Rendering.render options.rendering s.tree).value = (Rendering.render options.rendering t.tree).value)
    (f : s.frontmatter = t.frontmatter) : shown? html options document s = shown? html options document t := by
  have alike : Alike (rendered options s) (rendered options t) := ⟨tree, rfl⟩
  rw [shown?, shown?, f]
  exact alike.foldlM t.frontmatter document html

/-- If the nodes and all that the steps make of them are rendered alike behind a block of data and alone, then both
documents come out alike. -/
theorem showAlike_run_behind (markdown : List MarkdownPass) {w a : Markdown.Node} {f : Option Frontmatter}
    (h : Behind ns ⟨w, f, []⟩ ⟨a, f, []⟩)
    (rendered : ∀ {ms w a}, Keeps ns ms → Behind ms w a →
      (Rendering.render options.rendering w.tree).value = (Rendering.render options.rendering a.tree).value) :
    ShowAlike (run ⟨markdown, html, options, none⟩ files w f document)
      (run ⟨markdown, html, options, none⟩ files a f document) := by
  have steps := markdownSteps_behind files options document h markdown
  rw [showAlike_run_iff]
  revert steps
  generalize (markdownSteps files options document ⟨w, f, []⟩ markdown).value = r
  generalize (markdownSteps files options document ⟨a, f, []⟩ markdown).value = r'
  intro steps
  cases steps with
  | stopped e e' => rfl
  | goesOn kept h => exact shown?_congr html options document (rendered kept h) h.frontmatter

end Folio.Pipeline
