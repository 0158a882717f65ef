import Folio.Markdown.Block
import Folio.Markdown.Dialect

/-!
# From lines to blocks

A page is read line by line. A line first goes on with the containers that are open, then opens new ones, and what
is left of it goes on with the open block or starts another. A line of plain text goes on with a paragraph even
if it lacks the marks of the paragraph's containers.
-/

namespace Folio.Markdown

open Folio.Text

/-- A container that is open, with its blocks newest first. -/
structure Frame where
  kind : Container
  start : Point
  blocks : List Block
deriving Repr

/-- What has been read of a document. The innermost container comes first, the document itself last. -/
structure Page where
  frames : List Frame
  current : Open := .nothing
  interrupts : Bool := false
  mayFollow : Bool := false
  blank : Bool := false
  stop : Point
deriving Repr

/-- What is left of a line that goes on with a container. -/
def Container.rest? (gs : List Glyph) : Container → Option (List Glyph)
  | document => some gs
  | quote => quoteMark? gs
  | item mark =>
    if isBlankLine gs then if mark.blank then none else some (dropColumns mark.width gs)
    else if mark.width ≤ indent gs then some (dropColumns mark.width gs) else none
  | footnote _ => if isBlankLine gs || tabSize ≤ indent gs then some (dropColumns tabSize gs) else none

/-- An item that a line went on with does no longer wait for its first line. -/
def Container.filled : Container → Container
  | item mark => item { mark with blank := false }
  | kind => kind

def Frame.filled (f : Frame) : Frame := { f with kind := f.kind.filled }

/-- Of the containers from the outermost inwards, how many a line goes on with, and what is left of it. -/
def goOn : List Container → List Glyph → Nat × List Glyph
  | [], gs => (0, gs)
  | kind :: kinds, gs =>
    match kind.rest? gs with
    | some rest =>
      let (n, rest) := goOn kinds rest
      (n + 1, rest)
    | none => (0, gs)

/-- The container that a line opens. -/
def container? (d : Dialect) (interrupts : Bool) (gs : List Glyph) : Option (Container × List Glyph) :=
  match quoteMark? gs with
  | some rest => some (.quote, rest)
  | none =>
    match itemMark? interrupts gs with
    | some (mark, rest) => some (.item mark, rest)
    | none =>
      if d.gfm then (footnoteMark? gs).map fun (label, rest) => (.footnote label, rest) else none

/-- The containers that a line opens, from the outermost inwards, and what is left of it. -/
def containers (d : Dialect) (interrupts : Bool) : Nat → List Glyph → List Frame × List Glyph
  | 0, gs => ([], gs)
  | n + 1, gs =>
    match container? d interrupts gs, gs with
    | some (kind, rest), g :: _ =>
      let (more, rest) := containers d interrupts n rest
      (⟨kind, g.start, []⟩ :: more, rest)
    | _, _ => ([], gs)

/-- What the rest of a line is, behind the marks of containers. -/
inductive LineKind where
  | blank
  | more
  | closing
  | code
  | heading (depth : Nat) (content : List Glyph)
  | underline (depth : Nat)
  | topicBreak
  | fence (fence : Fence)
  | html (kind : HtmlBlock)
  | tableStart (align : List (Option Align))
  | row
  | content
deriving Repr

namespace LineKind

def isContent : LineKind → Bool
  | content => true
  | _ => false

def isUnderline : LineKind → Bool
  | underline _ => true
  | _ => false

/-- How a line stands to what is open: would a new block interrupt a paragraph, does the line lack the marks of
open containers, and does it open new ones? -/
structure Stance where
  interrupts : Bool
  lazy : Bool
  pierces : Bool

/-- The alignments that a line gives to a table whose head is the last line of the paragraph. -/
def tableStart? (d : Dialect) (current : Open) (gs : List Glyph) : Option (List (Option Align)) :=
  match current, aligns? gs with
  | .paragraph (head :: _), some align =>
    if d.gfm && isTableHead head.glyphs && (cells (dropEndSpaces (dropSpaces head.glyphs))).length = align.length
    then some align else none
  | _, _ => none

/-- A line that no earlier rule takes: an underline, a break, a part of a table, or text. -/
def plain (d : Dialect) (current : Open) (s : Stance) (gs : List Glyph) : LineKind :=
  let attached := !s.lazy && !s.pierces
  let isText := match current with
    | .paragraph _ | .underlined => true
    | _ => false
  let isTable := match current with
    | .table .. => true
    | _ => false
  match if attached && isText then underline? gs else none with
  | some depth => underline depth
  | none =>
    if isThematicBreak gs then topicBreak
    else if attached && isTable then row
    else match if attached then tableStart? d current gs else none with
      | some align => tableStart align
      | none => content

/-- The kind of a line that starts a block or goes on with a paragraph. The first character decides which rules
apply. -/
def fresh (d : Dialect) (current : Open) (s : Stance) (gs : List Glyph) : LineKind :=
  let first := (gs.head?.map (·.char)).getD ' '
  let asHeading := (headingLine? gs).map fun (depth, text) => heading depth text
  let asFence := (fence? d.math gs).map fence
  let asHtml := if d.html then (HtmlBlock.opened? (!s.interrupts || s.lazy) gs).map html else none
  if first = '#' then asHeading.getD content
  else if first = '\x60' || first = '~' || first = '$' then asFence.getD content
  else if first = '*' || first = '_' then if isThematicBreak gs then topicBreak else content
  else if first = '<' then asHtml.getD content
  else if first = 'e' || first = 'i' || first = '\x7b' then content
  else if isBlankLine gs then blank
  else if !s.interrupts && tabSize ≤ indent gs then code
  else (asFence <|> asHtml <|> asHeading).getD (plain d current s gs)

/-- The kind of the rest of a line. -/
def of (d : Dialect) (current : Open) (s : Stance) (gs : List Glyph) : LineKind :=
  match current with
  | .fenced f _ _ => if s.lazy then fresh d current s gs else if f.isClosedBy gs then closing else more
  | .html kind _ =>
    if s.lazy || (kind.endsAtBlank && isBlankLine gs) then fresh d current s gs else more
  | .code _ _ =>
    if !s.lazy && !s.pierces && tabSize ≤ indent gs then code else fresh d current s gs
  | _ => fresh d current s gs

end LineKind

/-- The container as a block. It ends where the line before ends, or later if its last block does. -/
def Frame.close (stop : Point) (f : Frame) : Block :=
  let stop := match f.blocks.findSome? Block.stop? with
    | some q => if stop.offset < q.offset then q else stop
    | none => stop
  .container f.kind ⟨f.start, stop⟩ f.blocks.reverse

/-- Closes so many of the innermost containers. -/
def closeFrames (stop : Point) : Nat → List Frame → List Frame
  | 0, fs => fs
  | n + 1, f :: g :: fs => closeFrames stop n ({ g with blocks := f.close stop :: g.blocks } :: fs)
  | _ + 1, fs => fs

namespace Page

/-- The page before its first line, which starts at a point. -/
def startingAt (start : Point) : Page := { frames := [⟨.document, start, []⟩], stop := start }

/-- Adds blocks, newest first, to the innermost container. -/
def add (bs : List Block) (p : Page) : Page :=
  match p.frames with
  | f :: fs => { p with frames := { f with blocks := bs ++ f.blocks } :: fs }
  | [] => p

/-- Ends the open block. Of the blank lines behind it the last one is still to be placed. -/
def finish (atEnd : Bool) (p : Page) : Page :=
  let held := p.current.held
  let blanks := List.replicate (held.length - 1) Block.blank
  let p := p.add (blanks ++ p.current.blocks atEnd)
  { p with current := .nothing, blank := p.blank || !held.isEmpty }

/-- Places the last blank line in the innermost container. -/
def place (p : Page) : Page := if p.blank then { p.add [.blank] with blank := false } else p

/-- An empty line of a quote also stays in the quote if it ends it. -/
def keepBlank (p : Page) : Page :=
  match p.frames with
  | ⟨.quote, _, _⟩ :: _ => if p.blank then p.add [.blank] else p
  | _ => p

/-- Keeps so many containers, from the outermost inwards. -/
def closeTo (n : Nat) (p : Page) : Page :=
  { p with frames := closeFrames p.stop (p.frames.length - n) p.frames }

/-- Opens containers. -/
def enter (fs : List Frame) (p : Page) : Page := { p with frames := fs.reverse ++ p.frames }

/-- Starts a block with a line. -/
def start (kind : LineKind) (line : Line) (p : Page) : Page :=
  let position := linesSpan [line] none
  match kind with
  | .blank => { p with blank := true }
  | .code => { p with current := .code [{ line with glyphs := dropColumns tabSize line.glyphs }] [] }
  | .heading depth content => p.add [.heading depth content position]
  | .topicBreak => p.add [.leaf .thematicBreak position]
  | .fence f => { p with current := .fenced f line [] }
  | .html kind =>
    let p := { p with current := .html kind [line] }
    if kind.endsIn line.glyphs then p.finish false else p
  | _ => { p with current := .paragraph [line] }

/-- Ends a paragraph with its underline. An underline below nothing but definitions is text. -/
def underline (depth : Nat) (lines : List Line) (line : Line) (p : Page) : Page :=
  let (definitions, content) := splitParagraph lines.reverse
  let p := p.add definitions.reverse
  match span content with
  | some position =>
    { (p.add [.heading depth (dropSpaces content) ⟨position.start, line.stop⟩] : Page) with current := .underlined }
  | none => { p with current := .paragraph [line] }

/-- Goes on with the open block, or starts another one in the same container. -/
def proceed (kind : LineKind) (line : Line) (p : Page) : Page :=
  match kind, p.current with
  | .content, .paragraph lines => { p with current := .paragraph (line :: lines) }
  | .more, .fenced f opening lines =>
    { p with current := .fenced f opening ({ line with glyphs := dropColumns f.indentation line.glyphs } :: lines) }
  | .more, .html kind lines =>
    let p := { p with current := .html kind (line :: lines) }
    if kind.endsIn line.glyphs then p.finish false else p
  | .closing, .fenced f opening lines =>
    let position := linesSpan [opening, line] none
    { (p.add [.leaf (f.leaf opening lines.reverse true) position] : Page) with current := .nothing }
  | .code, .code lines held =>
    { p with current := .code ({ line with glyphs := dropColumns tabSize line.glyphs } :: held ++ lines) [] }
  | .blank, .code lines held => { p with current := .code lines ({ line with glyphs := [] } :: held) }
  | .underline depth, .paragraph lines => p.underline depth lines line
  | .tableStart align, .paragraph (head :: lines) =>
    let p := { p with current := .paragraph lines }
    { p.finish false with current := .table align line [head] }
  | .row, .table align below rows => { p with current := .table align below (line :: rows) }
  | kind, _ => (p.finish false).place.start kind line

/-- The containers that a line opens behind the marks of open ones, and what is left of it. -/
def opens (d : Dialect) (all : Bool) (gs : List Glyph) (p : Page) : List Frame × List Glyph :=
  if all && p.current.isSolid then ([], gs) else containers d (all && p.interrupts) gs.length gs

/-- Takes what is left of a line that goes on with so many containers and opens others. -/
def settle (d : Dialect) (kept : Nat) (opened : List Frame) (line : Line) (p : Page) : Page :=
  let all := kept = p.frames.length
  let pierces := !opened.isEmpty
  let lazy := !all && !pierces
  let kind := LineKind.of d p.current ⟨p.interrupts && (all || lazy), lazy, pierces⟩ line.glyphs
  let leaves := lazy && !(p.mayFollow && kind.isContent)
  let p :=
    if pierces then (((p.finish false).keepBlank.closeTo kept).place.enter opened).start kind line
    else if leaves then ((p.finish false).keepBlank.closeTo kept).place.start kind line
    else p.proceed kind line
  { p with interrupts := kind.isContent && !leaves, mayFollow := kind.isContent || kind.isUnderline, stop := line.stop }

/-- Reads one more line. -/
def step (d : Dialect) (p : Page) (line : Line) : Page :=
  let (kept, gs) := goOn (p.frames.reverse.map (·.kind)) line.glyphs
  let p := { p with frames := p.frames.map Frame.filled }
  let (opened, rest) := p.opens d (kept = p.frames.length) gs
  p.settle d kept opened { line with glyphs := rest }

/-- The blocks of the document. -/
def done (p : Page) : List Block :=
  match ((p.finish true).closeTo 1).frames with
  | f :: _ => f.blocks.reverse
  | [] => []

end Page

/-- The blocks of lines. -/
def blocksOf (d : Dialect) (ls : List Line) : List Block :=
  (ls.foldl (Page.step d) (Page.startingAt (linesSpan ls none).start)).done

/-- Is a line the given mark three times, and blanks? -/
def isMetaFence (mark : Char) (l : Line) : Bool :=
  chars (l.glyphs.take 3) = [mark, mark, mark] && isBlankLine (l.glyphs.drop 3)

/-- Splits off a block of data at the start of a document. -/
def takeMeta (ls : List Line) : Option (Block × List Line) :=
  match ls with
  | [] => none
  | first :: rest =>
    let mark := (first.glyphs.head?.map (·.char)).getD ' '
    if (mark = '-' || mark = '+') && isMetaFence mark first then
      let body := rest.takeWhile fun l => !isMetaFence mark l
      match rest.drop body.length with
      | last :: after =>
        let value := String.ofList (sourceChars (joinLines body))
        let leaf := if mark = '-' then Leaf.yaml value else Leaf.toml value
        some (.leaf leaf (linesSpan [first, last] none), after)
      | [] => none
    else none

/-- The blocks of a document. -/
def documentBlocks (d : Dialect) (ls : List Line) : List Block :=
  match if d.frontmatter then takeMeta ls else none with
  | some (data, rest) => data :: blocksOf d rest
  | none => blocksOf d ls

end Folio.Markdown
