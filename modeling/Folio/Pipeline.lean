import Folio.CodeBlock.Copying
import Folio.CodeBlock.Highlighting
import Folio.Draft
import Folio.Heading
import Folio.Markdown.Tree
import Folio.Outline
import Folio.Pipeline.Options
import Folio.Pipeline.Pass
import Folio.Rendering

/-!
# The transformation of a document

A pipeline takes a document through its steps: the metadata is read, the text is parsed, the steps before the
rendering run over its tree, and the steps after it over the tree of HTML. All steps but the one that asks the
highlighter come to an end.
-/

namespace Folio

/-- The steps of a transformation, its options, and the highlighter if there is one. -/
structure Pipeline where
  markdown : List Pipeline.MarkdownPass
  html : List Pipeline.HtmlPass
  options : Pipeline.Options
  adapter : Option Adapter := none

namespace Pipeline

/-- What a transformation gives. -/
structure Output where
  tree : Html.Node
  frontmatter : Option Frontmatter
  headings : List Heading.Entry
  warnings : List Warning

/-- A transformation that has ended: the calls of the highlighter, and the output or the failure. -/
structure Run where
  calls : List HighlightCall
  outcome : Except PipelineError Output

/-- The pipeline with all steps. -/
def ofOptions (options : Options) : Pipeline := ⟨MarkdownPass.all, HtmlPass.all, options, none⟩

/-- A pipeline with the given steps, if they keep their order. -/
def withPasses (markdown : List MarkdownPass) (html : List HtmlPass) (options : Options) :
    Except PipelineError Pipeline := do
  validateOrder html
  .ok ⟨markdown, html, options, none⟩

/-- The pipeline with a highlighter. -/
def withHighlighter (h : Highlighter) (p : Pipeline) : Pipeline :=
  { p with adapter := some ⟨h, p.options.highlightTimeout⟩ }

/-- A document before it is rendered. -/
structure Source where
  tree : Markdown.Node
  frontmatter : Option Frontmatter
  warnings : List Warning := []

/-- Takes a document through a step before the rendering. -/
def markdownStep (files : Storage) (options : Options) (document : String) (s : Source) :
    MarkdownPass → Logged (Except PipelineError Source)
  | .includeFiles => do
    let r ← Draft.includeFiles files ⟨document, options.includeRoot⟩ s.tree
    match r.stop with
    | some e => pure (.error e)
    | none => pure (.ok { s with tree := r.value })
  | .warnLevelOneHeadings => do
    let ws := Draft.levelOneWarnings document s.tree
    ws.forM Warning.report
    pure (.ok { s with warnings := s.warnings ++ ws })
  | .estimateReadingTime =>
    match s.frontmatter with
    | none => pure (.ok s)
    | some f => do
      let f ← Draft.estimate s.tree f
      pure (.ok { s with frontmatter := some f })

/-- Takes a document through the steps before the rendering. -/
def markdownSteps (files : Storage) (options : Options) (document : String) (s : Source) :
    List MarkdownPass → Logged (Except PipelineError Source)
  | [] => pure (.ok s)
  | p :: ps => do
    Logged.debug (document ++ ": " ++ p.name)
    match ← markdownStep files options document s p with
    | .error e => pure (.error e)
    | .ok s => markdownSteps files options document s ps

/-- A document after it is rendered. -/
structure Page where
  tree : Html.Node
  headings : List Heading.Entry := []
  warnings : List Warning := []
  calls : List HighlightCall := []

/-- Takes a document through a step after the rendering that needs no highlighter. -/
def advance (frontmatter : Option Frontmatter) (document : String) (s : Page) : HtmlPass → Except PipelineError Page
  | .headingIds =>
    let (tree, headings) := Heading.assign s.tree
    .ok { s with tree, headings }
  | .headingAnchors => .ok { s with tree := (Heading.injectAnchors s.tree).1 }
  | .highlight => .ok s
  | .codeCopy => .ok { s with tree := (CodeBlock.addCopyButtons s.tree).1 }
  | .sections => .ok { s with tree := Outline.nest s.tree }
  | .title => (Outline.injectTitle document frontmatter s.tree).map fun tree => { s with tree }

/-- Hands the blocks of code of a document to the highlighter, which may have been asked before. What was done before
a failure stays. -/
def highlightStep (a : Adapter) (document : String) (s : Page) : Course (Page × Option PipelineError) := do
  let h ← CodeBlock.highlight (a.after s.calls) document s.tree
  let s := { s with
    tree := h.tree, warnings := s.warnings ++ h.progress.warnings, calls := s.calls ++ h.progress.calls }
  match h.outcome with
  | .ok _ => pure (s, none)
  | .error e => pure (s, some e)

/-- Takes a document through a step after the rendering. -/
def htmlStep (adapter : Option Adapter) (frontmatter : Option Frontmatter) (document : String) (s : Page)
    (p : HtmlPass) : Course (Page × Option PipelineError) :=
  match p, adapter with
  | .highlight, some a => highlightStep a document s
  | p, _ =>
    match advance frontmatter document s p with
    | .ok s => pure (s, none)
    | .error e => pure (s, some e)

/-- Takes a document through the steps after the rendering. -/
def htmlSteps (adapter : Option Adapter) (frontmatter : Option Frontmatter) (document : String) (s : Page) :
    List HtmlPass → Course (Page × Option PipelineError)
  | [] => pure (s, none)
  | p :: ps => do
    Logged.debug (document ++ ": " ++ p.name)
    match ← htmlStep adapter frontmatter document s p with
    | (s, some e) => pure (s, some e)
    | (s, none) => htmlSteps adapter frontmatter document s ps

/-- Takes a document that is parsed through all steps. -/
def run (p : Pipeline) (files : Storage) (tree : Markdown.Node) (frontmatter : Option Frontmatter)
    (document : String) : Course Run := do
  match ← markdownSteps files p.options document { tree, frontmatter } p.markdown with
  | .error e => pure ⟨[], .error e⟩
  | .ok s => do
    let root ← Rendering.render p.options.rendering s.tree
    let (page, stop) ← htmlSteps p.adapter s.frontmatter document { tree := root, warnings := s.warnings } p.html
    match stop with
    | some e => pure ⟨page.calls, .error e⟩
    | none => pure ⟨page.calls, .ok ⟨page.tree, s.frontmatter, page.headings, page.warnings⟩⟩

/-- The metadata of a document that has a block of it. -/
def readFrontmatter (source : String) : Except FrontmatterError (Option Frontmatter) := do
  let e ← Frontmatter.extract source
  if e.present then some <$> Frontmatter.ofValue (.map e.entries) else .ok none

/-- The dialect of posts. -/
def postDialect : Markdown.Dialect := {}

/-- Transforms a document. -/
def transform (p : Pipeline) (files : Storage) (source document : String) : Course Run :=
  match readFrontmatter source with
  | .error e => pure ⟨[], .error (.frontmatter document e)⟩
  | .ok frontmatter => p.run files (Markdown.parse postDialect source) frontmatter document

end Pipeline

/-- Transforms a document with all steps and without a highlighter. -/
def transformDocument (files : Storage) (options : Pipeline.Options) (source document : String) :
    Course Pipeline.Run :=
  (Pipeline.ofOptions options).transform files source document

end Folio
