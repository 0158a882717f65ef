import Folio.Pipeline
import Folio.Proofs.Html.Copying

/-!
# Runs without a highlighter

Without a highlighter no step asks for anything, and the steps behind the rendering are a fold over the page that ends
where a step fails (`run_eq`). In their usual order they mark the headings and blocks of a page first and arrange its
top level then (`foldlM_marking`, `foldlM_arranging`).
-/

namespace Folio.Pipeline

open Html

/-- How a step ends: with a page, or with a failure. -/
def ended : Page × Option PipelineError → Except PipelineError Page
  | (s, none) => .ok s
  | (_, some e) => .error e

theorem eq_of_ended {r : Page × Option PipelineError} {s : Page} (h : ended r = .ok s) : r = (s, none) := by
  obtain ⟨t, _ | e⟩ := r
  · exact congrArg (·, none) (Except.ok.inj h)
  · cases h

variable (f : Option Frontmatter) (document : String) (s : Page)

@[simp] theorem advance_headingIds :
    advance f document s .headingIds =
      .ok { s with tree := (Heading.assign s.tree).1, headings := (Heading.assign s.tree).2 } := rfl

@[simp] theorem advance_headingAnchors :
    advance f document s .headingAnchors = .ok { s with tree := (Heading.injectAnchors s.tree).1 } := rfl

@[simp] theorem advance_highlight : advance f document s .highlight = .ok s := rfl

@[simp] theorem advance_codeCopy :
    advance f document s .codeCopy = .ok { s with tree := (CodeBlock.addCopyButtons s.tree).1 } := rfl

@[simp] theorem advance_sections :
    advance f document s .sections = .ok { s with tree := Outline.nest s.tree } := rfl

@[simp] theorem advance_title :
    advance f document s .title = (Outline.injectTitle document f s.tree).map fun tree => { s with tree } := rfl

variable {f document s} in
theorem calls_advance {p : HtmlPass} {t : Page} (h : advance f document s p = .ok t) : t.calls = s.calls := by
  cases p with
  | title =>
    rw [advance_title] at h
    cases title : Outline.injectTitle document f s.tree with
    | error e =>
      rw [title] at h
      cases h
    | ok tree =>
      rw [title] at h
      exact Except.ok.inj h ▸ rfl
  | _ => exact Except.ok.inj h ▸ rfl

section

variable {adapter : Option Adapter}

/-- A step that needs no highlighter comes to an end. -/
theorem value?_htmlStep {p : HtmlPass} (silent : adapter = none ∨ p ≠ .highlight) :
    (htmlStep adapter f document s p).value? =
      some (match advance f document s p with
        | .ok t => (t, none)
        | .error e => (s, some e)) := by
  rw [htmlStep]
  · cases advance f document s p <;> rfl
  · rintro a rfl rfl
    rcases silent with no | other
    · cases no
    · exact other rfl

/-- Steps that need no highlighter come to an end without a call, with the page that they take it to one after the
other. -/
theorem exists_value?_htmlSteps (ps : List HtmlPass) (silent : adapter = none ∨ .highlight ∉ ps) :
    ∃ r, (htmlSteps adapter f document s ps).value? = some r ∧ r.1.calls = s.calls ∧
      ended r = ps.foldlM (advance f document) s := by
  induction ps generalizing s with
  | nil => exact ⟨(s, none), rfl, rfl, rfl⟩
  | cons p ps ih =>
    have first : adapter = none ∨ p ≠ .highlight := silent.imp_right fun h eq => h (eq ▸ List.mem_cons_self)
    simp only [htmlSteps, Course.value?_bind, Course.value?_lift, Option.bind_some, value?_htmlStep f document s first,
      List.foldlM_cons]
    cases step : advance f document s p with
    | ok t =>
      obtain ⟨r, steps, calls, page⟩ := ih t (silent.imp_right fun h => mt (List.mem_cons_of_mem p) h)
      exact ⟨r, steps, calls.trans (calls_advance step), page⟩
    | error e => exact ⟨_, rfl, rfl, rfl⟩

variable {s} in
theorem value?_htmlSteps_of_foldlM {t : Page} {ps : List HtmlPass} (silent : adapter = none ∨ .highlight ∉ ps)
    (h : ps.foldlM (advance f document) s = .ok t) :
    (htmlSteps adapter f document s ps).value? = some (t, none) := by
  obtain ⟨r, steps, -, page⟩ := exists_value?_htmlSteps f document s ps silent
  rw [steps, eq_of_ended (page.trans h)]

/-- Steps behind others go on from the page that those come to. -/
theorem value?_htmlSteps_append (ps qs : List HtmlPass) :
    (htmlSteps adapter f document s (ps ++ qs)).value? =
      (htmlSteps adapter f document s ps).value?.bind fun
        | (t, none) => (htmlSteps adapter f document t qs).value?
        | (t, some e) => some (t, some e) := by
  induction ps generalizing s with
  | nil => rfl
  | cons p ps ih =>
    simp only [List.cons_append, htmlSteps, Course.value?_bind, Course.value?_lift, Option.bind_some, Option.bind_assoc]
    refine Option.bind_congr fun r _ => ?_
    obtain ⟨t, _ | e⟩ := r
    · exact ih t
    · rfl

end

/-- What a page gives in the end. -/
def Page.output (f : Option Frontmatter) (s : Page) : Output := ⟨s.tree, f, s.headings, s.warnings⟩

/-- A page that is rendered, before the steps behind the rendering. -/
def rendered (options : Options) (s : Source) : Page :=
  { tree := (Rendering.render options.rendering s.tree).value, warnings := s.warnings }

theorem run_eq (markdown : List MarkdownPass) (html : List HtmlPass) (options : Options) (files : Storage)
    (tree : Markdown.Node) :
    (run ⟨markdown, html, options, none⟩ files tree f document).value? =
      some ⟨[], (markdownSteps files options document { tree, frontmatter := f } markdown).value >>= fun s =>
        (html.foldlM (advance s.frontmatter document) (rendered options s)).map (Page.output s.frontmatter)⟩ := by
  simp only [run, Course.value?_bind, Course.value?_lift, Option.bind_some]
  cases (markdownSteps files options document { tree, frontmatter := f } markdown).value with
  | error e => rfl
  | ok s =>
    obtain ⟨⟨t, stop⟩, steps, calls, page⟩ := exists_value?_htmlSteps s.frontmatter document (rendered options s) html
      (.inl rfl)
    change _ = some (Run.mk [] (Except.map (Page.output s.frontmatter)
      (html.foldlM (advance s.frontmatter document) (rendered options s))))
    rw [← page]
    unfold rendered at steps calls
    simp only [Course.value?_bind, Course.value?_lift, Option.bind_some, steps]
    cases stop <;> exact congrArg (fun calls => some (Run.mk calls _)) calls

/-! ### The usual order -/

/-- The steps that mark headings and blocks. -/
def HtmlPass.marking : List HtmlPass := [headingIds, headingAnchors, highlight, codeCopy]

/-- The steps that arrange the top level. -/
def HtmlPass.arranging : List HtmlPass := [sections, title]

theorem HtmlPass.all_eq : all = marking ++ arranging := rfl

/-- The nodes of a top level whose headings have ids and links and whose blocks have containers. -/
def marked (cs : List Node) : List Node :=
  ((Heading.assign (.root cs)).1.children.map Heading.anchored).map (CodeBlock.wrapped false)

theorem flatMap_marked {α : Type} {f : Node → List α} (hf : Node.SeesThrough f) (cs : List Node) :
    (marked cs).flatMap f = (Heading.assign (.root cs)).1.children.flatMap f := by
  rw [marked, CodeBlock.flatMap_wrapped hf, Heading.flatMap_anchored hf]

theorem foldlM_marking (s : Page) (cs : List Node) :
    HtmlPass.marking.foldlM (advance f document) { s with tree := .root cs } =
      .ok { s with tree := .root (marked cs), headings := (Heading.assign (.root cs)).2 } := by
  simp only [HtmlPass.marking, List.foldlM_cons, List.foldlM_nil, advance_headingIds, advance_headingAnchors,
    advance_highlight, advance_codeCopy, bind, Except.bind, Heading.injectAnchors_fst, CodeBlock.addCopyButtons_fst]
  rfl

theorem foldlM_arranging (g : Frontmatter) (s : Page) (cs : List Node) :
    HtmlPass.arranging.foldlM (advance (some g) document) { s with tree := .root cs } =
      .ok { s with tree := .root (Outline.titleHeading g.title :: Outline.nestAll cs) } := by
  simp only [HtmlPass.arranging, List.foldlM_cons, List.foldlM_nil, advance_sections, advance_title, bind, Except.bind]
  rfl

/-- The steps other than highlighting. -/
def HtmlPass.quiet : List HtmlPass := [headingIds, headingAnchors, codeCopy, sections, title]

theorem foldlM_quiet (g : Frontmatter) (s : Page) (cs : List Node) :
    HtmlPass.quiet.foldlM (advance (some g) document) { s with tree := .root cs } =
      .ok { s with
        tree := .root (Outline.titleHeading g.title :: Outline.nestAll (marked cs))
        headings := (Heading.assign (.root cs)).2 } := by
  have silent : HtmlPass.quiet.foldlM (advance (some g) document) { s with tree := .root cs } =
      HtmlPass.all.foldlM (advance (some g) document) { s with tree := .root cs } := rfl
  rw [silent, HtmlPass.all_eq, List.foldlM_append, foldlM_marking]
  exact foldlM_arranging document g { s with headings := (Heading.assign (.root cs)).2 } (marked cs)

/-- The nodes that a document is rendered to. -/
def topLevel (options : Options) (s : Source) : List Node := (rendered options s).tree.children

theorem rendered_eq (options : Options) (s : Source) :
    rendered options s = { rendered options s with tree := .root (topLevel options s) } := rfl

theorem htmlSteps_marking (options : Options) (s : Source) :
    (htmlSteps none f document (rendered options s) HtmlPass.marking).value? =
      some ({ rendered options s with
          tree := .root (marked (topLevel options s)), headings := (Heading.assign (.root (topLevel options s))).2 },
        none) := by
  rw [rendered_eq]
  exact value?_htmlSteps_of_foldlM f document (.inl rfl) (foldlM_marking f document _ _)

/-- What a run with all steps comes to if it succeeds. -/
theorem eq_of_run {options : Options} {files : Storage} {tree : Markdown.Node} {output : Output}
    (h : ((ofOptions options).run files tree f document).value?.map Run.outcome = some (.ok output)) :
    ∃ (source : Source) (g : Frontmatter),
      (markdownSteps files options document { tree, frontmatter := f } MarkdownPass.all).value = .ok source ∧
      source.frontmatter = some g ∧
      output = ⟨.root (Outline.titleHeading g.title :: Outline.nestAll (marked (topLevel options source))), some g,
        (Heading.assign (.root (topLevel options source))).2, source.warnings⟩ := by
  rw [ofOptions, run_eq, Option.map_some] at h
  have h := Option.some.inj h
  dsimp only at h
  cases steps : (markdownSteps files options document { tree, frontmatter := f } MarkdownPass.all).value with
  | error e =>
    rw [steps] at h
    cases h
  | ok source =>
    rw [steps] at h
    change (HtmlPass.all.foldlM (advance source.frontmatter document) (rendered options source)).map
      (Page.output source.frontmatter) = .ok output at h
    rw [HtmlPass.all_eq, List.foldlM_append, rendered_eq, foldlM_marking] at h
    cases data : source.frontmatter with
    | none =>
      -- the title cannot be put in front
      rw [data] at h
      cases h
    | some g =>
      rw [data] at h
      exact ⟨source, g, rfl, data, (Except.ok.inj h).symm⟩

/-- The metadata of a post. -/
def postData : Frontmatter := ⟨"Post", ⟨2024, 1, 1, by decide⟩, "A post.", none, none⟩

end Folio.Pipeline
