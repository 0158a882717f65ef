import Folio.Rendering.Context
import Folio.Rendering.Slots

/-!
# From Markdown to HTML

`render` turns the tree of a Markdown document into a tree of HTML: headings without ids, blocks of code as `pre`
and `code`, tables, lists with tasks, and a section of footnotes at the end.
-/

namespace Folio.Rendering

open Folio.Html

/-- A step of a rendering: it may change the state and write to the log. -/
abbrev Render (α : Type) := StateT Context Logged α

/-- An element with properties. -/
def element (tag : String) (properties : List (String × PropertyValue)) (children : List Html.Node) : Html.Node :=
  .element tag (Properties.ofList properties) children

/-- A property that may be absent. -/
def optional (name : String) (value : Option String) : List (String × PropertyValue) :=
  (value.map fun v => (name, PropertyValue.text v)).toList

def link (url : String) (title : Option String) (children : List Html.Node) : Html.Node :=
  element "a" (("href", .text url) :: optional "title" title) children

def image (lazy : Bool) (url alt : String) (title : Option String) : Html.Node :=
  element "img" ([("src", .text url), ("alt", .text alt)] ++ optional "title" title ++
    if lazy then [("loading", .text "lazy")] else []) []

/-- A block of code ends its last line; its language is a class. -/
def codeBlock (value : String) (lang : Option String) : Html.Node :=
  let classes := (lang.filter fun l => !l.isEmpty).map fun l => ("class", PropertyValue.tokens ["language-" ++ l])
  element "pre" [] [element "code" classes.toList [.text (if value.isEmpty then value else value ++ "\n")]]

/-- The number of an ordered list, unless it starts with one. -/
def listStart (ordered : Bool) (start : Option Nat) : List (String × PropertyValue) :=
  (start.filter fun n => ordered && n ≠ 1).toList.map fun n => ("start", .text (toString n))

/-- Is a node an item of a list with a box? -/
def isTask : Markdown.Node → Bool
  | .branch (.listItem _ (some _)) _ _ => true
  | _ => false

/-- The box of a task. -/
def checkbox (checked : Bool) : List Html.Node :=
  [element "input" ([("type", .text "checkbox"), ("disabled", .flag true)] ++
    if checked then [("checked", .flag true)] else []) [], .text " "]

/-- An item of a list. -/
def listItem (checked : Option Bool) (children : List Html.Node) : Html.Node :=
  match checked with
  | some c => element "li" [("class", .tokens ["task-list-item"])] (checkbox c ++ children)
  | none => element "li" [] children

def alignment (align : Option (Option Markdown.Align)) : List (String × PropertyValue) :=
  match align.join with
  | some .left => [("align", .text "left")]
  | some .right => [("align", .text "right")]
  | some .center => [("align", .text "center")]
  | none => []

/-- The identifier of a footnote as a part of an id. -/
def footnoteId (identifier : String) : String :=
  String.ofList (identifier.toList.map fun c => if Text.isBlank c then '-' else c)

/-- The id of the reference that comes at a place among those to its footnote. -/
def referenceId (id : String) (occurrence : Nat) : String :=
  "user-content-fnref-" ++ id ++ if occurrence = 1 then "" else "-" ++ toString occurrence

/-- The id of a footnote. -/
def noteId (id : String) : String := "user-content-fn-" ++ id

/-- A reference to a footnote. -/
def footnoteLink (identifier : String) (ordinal occurrence : Nat) : Html.Node :=
  let id := footnoteId (foldCase identifier)
  element "sup" [] [element "a" [("href", .text ("#" ++ noteId id)), ("id", .text (referenceId id occurrence)),
    ("data-footnote-ref", .flag true), ("aria-describedby", .text "footnote-label")] [.text (toString ordinal)]]

/-- Is a node one of running text? -/
def isPhrasing : Markdown.Node → Bool
  | .leaf (.text _) _ | .leaf (.inlineCode _) _ | .leaf .hardBreak _ | .leaf (.image ..) _
  | .leaf (.imageReference ..) _ | .leaf (.footnoteReference ..) _ | .leaf (.html _) _ => true
  | .branch .emphasis _ _ | .branch .strong _ _ | .branch .delete _ _ | .branch (.link ..) _ _
  | .branch (.linkReference ..) _ _ => true
  | _ => false

def isHtml : Markdown.Node → Bool
  | .leaf (.html _) _ => true
  | _ => false

/-- Is there markup within running text? -/
def isMixed (ns : List Markdown.Node) : Bool := 1 < ns.length && ns.any isHtml && ns.all isPhrasing

/-- The nodes of a leaf. -/
def leaf (l : Markdown.Leaf) : Render (List Html.Node) := do
  let c ← get
  match l with
  | .text v => pure [.text v]
  | .inlineCode v => pure [element "code" [] [.text v]]
  | .hardBreak => pure [element "br" [] [], .text "\n"]
  | .thematicBreak => pure [element "hr" [] []]
  | .image url alt title => pure [image c.options.lazyImages url alt title]
  | .imageReference alt identifier _ _ =>
    match c.definition? identifier with
    | some d => pure [image c.options.lazyImages d.url alt d.title]
    | none => pure [.text alt]
  | .code value lang _ => pure [codeBlock value lang]
  | .html html =>
    if c.options.allowRawHtml then pure (Fragment.parse html)
    else do
      Logged.debug ("Raw HTML in markdown kept as text: " ++ html)
      pure [.text html]
  | .footnoteReference identifier _ =>
    let ((ordinal, occurrence), c') := c.reference identifier
    set c'
    pure [footnoteLink identifier ordinal occurrence]
  | .definition .. | .yaml _ | .toml _ => pure []
  | .inlineMath _ | .math .. => do
    Logged.warn "Unhandled markdown node type"
    pure []

/-- Runs a step within a scope. -/
def within {α : Type} (s : Scope) (step : Render α) : Render α := do
  modify (Context.enter s)
  let a ← step
  modify fun c => c.exit.2
  pure a

/-- The nodes of a branch around those of its children. -/
def wrap (kind : Markdown.Branch) (markdown : List Markdown.Node) (children : List Html.Node) :
    Render (List Html.Node) := do
  let c ← get
  match kind with
  | .root => pure children
  | .paragraph => pure (if c.isTight then children else [element "p" [] children])
  | .heading depth => pure [element ("h" ++ toString (max 1 (min depth 6))) [] children]
  | .emphasis => pure [element "em" [] children]
  | .strong => pure [element "strong" [] children]
  | .delete => pure [element "del" [] children]
  | .link url title => pure [link url title children]
  | .linkReference identifier _ _ =>
    match c.definition? identifier with
    | some d => pure [link d.url d.title children]
    | none => pure children
  | .blockquote => pure [element "blockquote" [] children]
  | .list ordered start _ =>
    let classes := if markdown.any isTask then [("class", PropertyValue.tokens ["contains-task-list"])] else []
    pure [element (if ordered then "ol" else "ul") (listStart ordered start ++ classes) children]
  | .listItem _ checked => pure [listItem checked children]
  | .table _ | .tableRow | .tableCell | .footnoteDefinition .. => pure []

/-- The parts of children put together. -/
def combine (mixed : Bool) (ss : List Slot) : List Html.Node :=
  if mixed then assemble ss
  else ss.flatMap fun
    | .rendered ns => ns
    | .markup _ => []

mutual

/-- The nodes of a node. -/
def renderNode : Markdown.Node → Render (List Html.Node)
  | .leaf l _ => leaf l
  | .branch (.footnoteDefinition ..) _ _ => pure []
  | .branch .tableRow _ _ | .branch .tableCell _ _ => do
    Logged.warn "Unhandled markdown node type"
    pure []
  | .branch (.table align) _ rows => do
    let all ← renderRows align true rows
    let isHead := match rows with
      | .branch .tableRow _ _ :: _ => true
      | _ => false
    let head := if isHead then [element "thead" [] (all.take 1)] else []
    let body := if isHead then all.drop 1 else all
    pure [element "table" [] (head ++ if body.isEmpty then [] else [element "tbody" [] body])]
  | .branch (.list ordered start spread) _ children => do
    let mixed := (← get).options.allowRawHtml && isMixed children
    let ss ← within (.list spread) (renderEach mixed children)
    wrap (.list ordered start spread) children (combine mixed ss)
  | .branch kind _ children => do
    let mixed := (← get).options.allowRawHtml && isMixed children
    let ss ← renderEach mixed children
    wrap kind children (combine mixed ss)

/-- The parts of siblings. In a mixed text markup is left as it is. -/
def renderEach (mixed : Bool) : List Markdown.Node → Render (List Slot)
  | [] => pure []
  | n :: ns => do
    let s ← match mixed, n with
      | true, .leaf (.html html) _ => pure (Slot.markup html)
      | _, n => Slot.rendered <$> renderNode n
    let ss ← renderEach mixed ns
    pure (s :: ss)

/-- The rows of a table. The first one is the head, and what is no row is passed by. -/
def renderRows (align : List (Option Markdown.Align)) (first : Bool) : List Markdown.Node → Render (List Html.Node)
  | [] => pure []
  | .branch .tableRow _ cells :: rows => do
    let cs ← within (if first then .tableHead else .tableBody) (renderCells align cells)
    let rest ← renderRows align false rows
    pure (element "tr" [] cs :: rest)
  | _ :: rows => renderRows align false rows

/-- The cells of a row. What is no cell is passed by. -/
def renderCells (align : List (Option Markdown.Align)) : List Markdown.Node → Render (List Html.Node)
  | [] => pure []
  | .branch .tableCell _ children :: cells => do
    let tag := if (← get).scope = .tableHead then "th" else "td"
    let mixed := (← get).options.allowRawHtml && isMixed children
    let ss ← renderEach mixed children
    let rest ← renderCells (align.drop 1) cells
    pure (element tag (alignment align.head?) (combine mixed ss) :: rest)
  | _ :: cells => renderCells (align.drop 1) cells

end

/-- The nodes of siblings. -/
def renderChildren (ns : List Markdown.Node) : Render (List Html.Node) := do
  let mixed := (← get).options.allowRawHtml && isMixed ns
  combine mixed <$> renderEach mixed ns

/-- A link from a footnote back to one of the references to it. -/
def backLink (id : String) (occurrence : Nat) : Html.Node :=
  element "a" [("href", .text ("#" ++ referenceId id occurrence)), ("data-footnote-backref", .flag true),
    ("aria-label", .text "Back to reference"), ("class", .tokens ["data-footnote-backref"])] [.text "↩"]

/-- Adds the links back to the end of the last paragraph, or behind the content. -/
def addBackLinks (links content : List Html.Node) : List Html.Node :=
  match content.getLast? with
  | some (.element tag p children) =>
    if tag = "p" then
      content.dropLast ++ [.element tag p (children ++ links.flatMap fun l => [.text " ", l])]
    else content ++ links
  | _ => content ++ links

/-- A footnote as an item of the list of footnotes. -/
def footnoteItem (note : Context.Footnote) (content : List Html.Node) : Html.Node :=
  let id := footnoteId note.identifier
  let links := (List.range note.references).map fun i => backLink id (i + 1)
  element "li" [("id", .text (noteId id))] (addBackLinks links content)

/-- The items of footnotes. -/
def renderFootnotes : List Context.Footnote → Render (List Html.Node)
  | [] => pure []
  | note :: notes => do
    let content ← renderChildren note.children
    let rest ← renderFootnotes notes
    pure (footnoteItem note content :: rest)

/-- The section of the footnotes that were referenced; nothing if there are none. -/
def footnoteSection : Render (List Html.Node) := do
  let (notes, c) := (← get).takeFootnotes
  set c
  if notes.isEmpty then pure []
  else do
    let items ← renderFootnotes notes
    pure [element "section" [("data-footnotes", .flag true), ("class", .tokens ["footnotes"])]
      [element "h2" [("id", .text "footnote-label"), ("class", .tokens ["sr-only"])] [.text "Footnotes"],
        element "ol" [] items]]

/-- The tree of HTML of a tree of Markdown. -/
def render (options : Options) (tree : Markdown.Node) : Logged Html.Node := do
  let step : Render (List Html.Node) := do
    let content ← renderChildren tree.children
    let footnotes ← footnoteSection
    pure (content ++ footnotes)
  let (children, _) ← step.run (Context.ofTree options tree)
  pure (.root children)

end Folio.Rendering
