import Folio.Markdown.Node
import Folio.Text.Letter

/-!
# Characters with their places

The source of a document as lines of glyphs. A glyph is a character with the points before and behind it. Columns
count bytes, and a tab reaches to the next multiple of four; the rest of a tab that is taken apart is spaces.
-/

namespace Folio.Markdown

open Folio.Text

/-- A character with its place. A line ending of two characters is one glyph. -/
structure Glyph where
  char : Char
  start : Point
  stop : Point
deriving DecidableEq, Repr

/-- A line: its glyphs, its ending if there is one, and the point behind the glyphs. -/
structure Line where
  glyphs : List Glyph
  ending : List Glyph
  stop : Point
deriving Repr

/-- The distance between tab stops. -/
def tabSize : Nat := 4

namespace Glyph

def isSpace (g : Glyph) : Bool := g.char = ' ' || g.char = '\t'

def isEol (g : Glyph) : Bool := g.char = '\n' || g.char = '\r'

/-- The characters of the source. -/
def text (g : Glyph) : List Char :=
  if g.char = '\n' && g.stop.offset = g.start.offset + 2 then ['\r', '\n'] else [g.char]

/-- The columns that the glyph takes. -/
def width (g : Glyph) : Nat := g.stop.column - g.start.column

end Glyph

/-- The point behind a character that ends no line. -/
def Point.after (p : Point) (c : Char) : Point :=
  if c = '\t' then { p with column := p.column + tabSize - (p.column - 1) % tabSize, offset := p.offset + 1 }
  else { p with column := p.column + c.utf8Size, offset := p.offset + c.utf8Size }

/-- The start of the line after a line ending of so many bytes. -/
def Point.nextLine (p : Point) (bytes : Nat) : Point := ⟨p.line + 1, 1, p.offset + bytes⟩

/-- The lines of a text that starts at a point, given what was read of the first line in reverse. -/
def linesFrom (p : Point) (acc : List Glyph) : List Char → List Line
  | [] => if acc.isEmpty then [] else [⟨acc.reverse, [], p⟩]
  | ['\r'] => [⟨acc.reverse, [⟨'\r', p, p.nextLine 1⟩], p⟩]
  | '\r' :: c :: s =>
    if c = '\n' then ⟨acc.reverse, [⟨'\n', p, p.nextLine 2⟩], p⟩ :: linesFrom (p.nextLine 2) [] s
    else ⟨acc.reverse, [⟨'\r', p, p.nextLine 1⟩], p⟩ :: linesFrom (p.nextLine 1) [] (c :: s)
  | c :: s =>
    if c = '\n' then ⟨acc.reverse, [⟨'\n', p, p.nextLine 1⟩], p⟩ :: linesFrom (p.nextLine 1) [] s
    else linesFrom (p.after c) (⟨c, p, p.after c⟩ :: acc) s

/-- The lines of a document. A byte order mark at its start is passed. -/
def lines (s : List Char) : List Line :=
  match s with
  | '\ufeff' :: r => linesFrom ⟨1, 4, 3⟩ [] r
  | s => linesFrom ⟨1, 1, 0⟩ [] s

/-- The point behind the last line. -/
def endOf (ls : List Line) : Point :=
  match ls.getLast? with
  | none => ⟨1, 1, 0⟩
  | some l =>
    match l.ending with
    | [] => l.stop
    | e :: _ => e.stop

/-- Have the glyphs nothing but spaces and tabs? -/
def isBlankLine (gs : List Glyph) : Bool := gs.all Glyph.isSpace

/-- The columns that the spaces and tabs in front take. -/
def indent (gs : List Glyph) : Nat := (gs.takeWhile Glyph.isSpace).foldr (fun g n => g.width + n) 0

/-- The spaces that are left of a tab when some of its columns are taken. -/
def tabRest (g : Glyph) (taken : Nat) : List Glyph :=
  (List.range (g.width - taken)).map fun i =>
    let column := g.start.column + taken + i
    let stop : Point := if column + 1 = g.stop.column then g.stop else { g.start with column := column + 1 }
    ⟨' ', { g.start with column }, stop⟩

/-- Drops up to so many columns of spaces and tabs in front. -/
def dropColumns (n : Nat) : List Glyph → List Glyph
  | [] => []
  | g :: gs =>
    if n = 0 || !g.isSpace then g :: gs
    else if g.width ≤ n then dropColumns (n - g.width) gs
    else tabRest g n ++ gs

def dropSpaces (gs : List Glyph) : List Glyph := gs.dropWhile Glyph.isSpace

/-- Drops the spaces and tabs at the end. -/
def dropEndSpaces (gs : List Glyph) : List Glyph := (gs.reverse.dropWhile Glyph.isSpace).reverse

/-- The characters of glyphs, line endings in their normal form. -/
def chars (gs : List Glyph) : List Char := gs.map (·.char)

/-- The characters of glyphs as they stand in the source. -/
def sourceChars (gs : List Glyph) : List Char := gs.flatMap Glyph.text

def sourceText (gs : List Glyph) : String := String.ofList (sourceChars gs)

/-- The stretch from the first to the last glyph. -/
def span (gs : List Glyph) : Option Position :=
  match gs.head?, gs.getLast? with
  | some a, some b => some ⟨a.start, b.stop⟩
  | _, _ => none

end Folio.Markdown
