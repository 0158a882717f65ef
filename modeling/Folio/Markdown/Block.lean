import Folio.Markdown.HtmlBlock
import Folio.Markdown.Table

/-!
# Blocks

What the lines of a document are before their text is read: containers and the blocks in them. Blank lines are kept,
because the lists that they fall into are loose. Definitions at the start of a paragraph are taken off it.
-/

namespace Folio.Markdown

open Folio.Text

/-- The kinds of containers. -/
inductive Container where
  | document
  | quote
  | item (mark : ItemMark)
  | footnote (label : List Glyph)
deriving Repr

/-- A block of a container. -/
inductive Block where
  | blank
  | paragraph (content : List Glyph) (position : Position)
  | heading (depth : Nat) (content : List Glyph) (position : Position)
  | leaf (content : Leaf) (position : Position)
  | table (align : List (Option Align)) (rows : List (List Glyph)) (position : Position)
  | container (kind : Container) (position : Position) (children : List Block)
deriving Repr

namespace Block

/-- Where the block ends, if it is more than a blank line. -/
def stop? : Block → Option Point
  | blank => none
  | paragraph _ p | heading _ _ p | leaf _ p | table _ _ p | container _ p _ => some p.stop

end Block

/-- The glyphs of lines with the line endings between them. -/
def joinLines : List Line → List Glyph
  | [] => []
  | [l] => l.glyphs
  | l :: ls => l.glyphs ++ l.ending ++ joinLines ls

/-- Takes off the definitions at the start of a paragraph. -/
def takeDefinitions : Nat → List Glyph → List Block × List Glyph
  | 0, gs => ([], gs)
  | n + 1, gs =>
    match readDefinition gs with
    | some d =>
      let (more, rest) := takeDefinitions n d.rest
      let leaf := Leaf.definition d.target.url d.target.title (identifierOf (sourceChars d.label))
        (some (stringText (sourceChars d.label)))
      match span d.taken with
      | some p => (.leaf leaf p :: more, rest)
      | none => (more, rest)
    | none => ([], gs)

/-- The blocks of a paragraph, and what is left of it as text. -/
def splitParagraph (lines : List Line) : List Block × List Glyph :=
  let content := joinLines lines
  takeDefinitions content.length content

/-- Drops a line ending in front. -/
def dropEol : List Char → List Char
  | '\r' :: '\n' :: s => s
  | '\n' :: s => s
  | '\r' :: s => s
  | s => s

/-- Drops a line ending at the end. -/
def dropEndEol (s : List Char) : List Char :=
  match s.reverse with
  | '\n' :: '\r' :: r => r.reverse
  | '\n' :: r => r.reverse
  | '\r' :: r => r.reverse
  | _ => s

/-- The block that the next line may go on with. Its lines are held newest first. -/
inductive Open where
  | nothing
  | underlined
  | paragraph (lines : List Line)
  | code (lines held : List Line)
  | fenced (fence : Fence) (opening : Line) (lines : List Line)
  | html (kind : HtmlBlock) (lines : List Line)
  | table (align : List (Option Align)) (below : Line) (rows : List Line)
deriving Repr

/-- The characters of lines. The ending of the last line counts only if the block itself ends behind it. -/
def linesText (whole : Bool) (lines : List Line) : List Char :=
  if whole then lines.flatMap fun l => sourceChars l.glyphs ++ sourceChars l.ending
  else sourceChars (joinLines lines)

/-- The stretch from the first of some lines to the last. -/
def linesSpan (lines : List Line) (stop : Option Point) : Position :=
  match lines.head?, lines.getLast? with
  | some a, some b =>
    let start := match a.glyphs with
      | g :: _ => g.start
      | [] => a.stop
    ⟨start, stop.getD b.stop⟩
  | _, _ => default

/-- The leaf of a fenced block. -/
def Fence.leaf (f : Fence) (opening : Line) (lines : List Line) (whole : Bool) : Leaf :=
  let body := linesText whole ({ opening with glyphs := [] } :: lines)
  let value := String.ofList (dropEndEol (dropEol body))
  let word (gs : List Glyph) : Option String :=
    if gs.isEmpty then none else some (String.ofList (unescape (sourceChars gs)))
  if f.mark = '$' then .math value (word f.details) else .code value (word f.info) (word f.details)

/-- The point behind the ending of a line. -/
def Line.after (l : Line) : Point := (l.ending.getLast?.map (·.stop)).getD l.stop

namespace Open

/-- The finished blocks, newest first. A block that needs an end mark reaches to the end of the document if
there is none. -/
def blocks (atEnd : Bool) : Open → List Block
  | nothing | underlined => []
  | paragraph lines =>
    let (definitions, content) := splitParagraph lines.reverse
    let text := (span content).map (Block.paragraph (dropSpaces content))
    text.toList ++ definitions.reverse
  | code lines _ =>
    let value := String.ofList (dropEndEol (linesText false lines.reverse))
    [.leaf (.code value none none) (linesSpan lines.reverse none)]
  | fenced f opening lines =>
    let all := opening :: lines.reverse
    let stop := if atEnd then all.getLast?.map Line.after else none
    [.leaf (f.leaf opening lines.reverse atEnd) (linesSpan all stop)]
  | html kind lines =>
    let whole := atEnd && !kind.endsAtBlank
    let stop := if whole then lines.head?.map Line.after else none
    let value := String.ofList (dropEndEol (dropEol (linesText whole lines.reverse)))
    [.leaf (.html value) (linesSpan lines.reverse stop)]
  | table align below rows =>
    let stop := if rows.length ≤ 1 then below.stop else (rows.head?.getD below).stop
    [.table align (rows.reverse.map (·.glyphs)) (linesSpan rows.reverse (some stop))]

/-- Is the block one that containers cannot start within? -/
def isSolid : Open → Bool
  | fenced .. | html .. => true
  | _ => false

/-- The blank lines that would belong to the block if it went on. -/
def held : Open → List Line
  | code _ held => held
  | _ => []

end Open

end Folio.Markdown
