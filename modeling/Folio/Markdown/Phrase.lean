import Folio.Markdown.Destination
import Folio.Markdown.Piece
import Folio.Markdown.Tag

/-!
# Running text

The text of a paragraph, a heading or a cell is read glyph by glyph into pieces. An opening bracket waits for its
closing one; only then is it known whether the text between them is a link, an image or a footnote.
-/

namespace Folio.Markdown

open Folio.Text

/-- What running text depends on: the dialect, the identifiers that have a definition or a footnote, and whether the
text stands in a table. -/
structure Surroundings where
  dialect : Dialect
  definitions : List String
  footnotes : List String
  inTable : Bool := false

/-- What an opening bracket may turn out to start. -/
inductive BracketKind where
  | link
  | image
  | footnote
deriving DecidableEq, Repr

/-- An open bracket: its glyphs, the glyphs behind it, and the pieces in front of it, newest first. A bracket around a
link cannot become a link itself. -/
structure Bracket where
  kind : BracketKind
  active : Bool
  glyphs : List Glyph
  behind : List Glyph
  before : List Piece

/-- What has been read of a text: the open brackets, innermost first, the pieces since, newest first, and the
character before. -/
structure Reading where
  brackets : List Bracket := []
  pieces : List Piece := []
  previous : Option Char := none

/-- The glyphs in front of a rest. -/
def takenOf (gs rest : List Glyph) : List Glyph := gs.take (gs.length - rest.length)

/-- Splits at the first run of exactly so many marks. -/
def splitAtRun (mark : Char) (size : Nat) : Nat → List Glyph → Option (List Glyph × List Glyph)
  | 0, _ => none
  | _ + 1, [] => none
  | n + 1, g :: gs =>
    if g.char = mark then
      let run := g :: gs.takeWhile (·.char = mark)
      let rest := gs.drop (run.length - 1)
      if run.length = size then some ([], rest)
      else (splitAtRun mark size n rest).map fun (inside, rest) => (run ++ inside, rest)
    else (splitAtRun mark size n gs).map fun (inside, rest) => (g :: inside, rest)

/-- The value of a span of code: line endings are spaces, and a space is taken off both sides unless there is nothing
else. In a table an escaped pipe is a pipe. -/
def spanValue (inTable : Bool) (gs : List Glyph) : String :=
  let s := gs.map fun g => if g.isEol then ' ' else g.char
  let rec unescapePipes : List Char → List Char
    | '\\' :: '|' :: r => '|' :: unescapePipes r
    | c :: r => c :: unescapePipes r
    | [] => []
  let s := if inTable then unescapePipes s else s
  let padded := 2 < s.length && s.head? = some ' ' && s.getLast? = some ' ' && s.any (· ≠ ' ')
  String.ofList (if padded then (s.drop 1).dropLast else s)

/-- What follows the first occurrence of some characters. -/
def afterInfix? (piece : List Char) : List Glyph → Option (List Glyph)
  | [] => none
  | g :: gs =>
    if chars ((g :: gs).take piece.length) = piece then some ((g :: gs).drop piece.length)
    else afterInfix? piece gs

/-- What follows a piece of markup behind its opening angle bracket. -/
def markupRest? (gs : List Glyph) : Option (List Glyph) :=
  match gs with
  | [] => none
  | g :: r =>
    if g.char = '!' then
      if chars (r.take 2) = ['-', '-'] then afterInfix? "-->".toList r
      else if chars (r.take 7) = "[CDATA[".toList then afterInfix? "]]>".toList (r.drop 7)
      else if r.head?.any (·.char.isAlpha) then afterInfix? ['>'] r
      else none
    else if g.char = '?' then afterInfix? "?>".toList r
    else if g.char = '/' then (tagName? r).bind fun (_, rest) => closeTagRest? rest
    else (tagName? (g :: r)).bind fun (_, rest) => openTagRest? false rest

/-- The source of a piece of markup; its lines are not indented. -/
def markupText (unindenting : Bool) : List Glyph → List Char
  | [] => []
  | g :: gs =>
    if unindenting && g.isSpace then markupText true gs else g.text ++ markupText g.isEol gs

/-- The text of nodes, for an image in their place. -/
def altText : List Node → String
  | [] => ""
  | .leaf (.text v) _ :: ns | .leaf (.inlineCode v) _ :: ns | .leaf (.inlineMath v) _ :: ns
  | .leaf (.html v) _ :: ns => v ++ altText ns
  | .leaf .. :: ns => altText ns
  | .branch _ _ cs :: ns => altText cs ++ altText ns

namespace Reading

def push (p : Piece) (r : Reading) : Reading := { r with pieces := p :: r.pieces }

/-- The pieces that an open bracket leaves if it starts nothing. -/
def flattenBracket (b : Bracket) (pieces : List Piece) : List Piece := pieces ++ .plain b.glyphs :: b.before

/-- All pieces in order; brackets that are still open start nothing. -/
def toPieces (r : Reading) : List Piece :=
  (r.brackets.foldl (fun pieces b => flattenBracket b pieces) r.pieces).reverse

/-- What makes a link or an image of the text in brackets: a target, or a reference. -/
inductive Linked where
  | target (target : Target)
  | reference (label : List Glyph) (kind : ReferenceKind)

/-- The link of the text in brackets, and what follows it. A full reference is tried before a collapsed one, and what
follows a text that is a label by itself need not be part of the link. -/
def linked? (env : Surroundings) (label rest : List Glyph) : Option (Linked × List Glyph) :=
  let defined (l : List Glyph) := env.definitions.contains (identifierOf (sourceChars l))
  let shortcut : Option (Linked × List Glyph) := if defined label then some (.reference label .shortcut, rest) else none
  match rest with
  | [] => shortcut
  | g :: r =>
    if g.char = '(' then
      match readResource r with
      | some (target, _, after) => some (.target target, after)
      | none => shortcut
    else if g.char = '[' then
      match readLabel rest with
      | some (l, after) => if defined l then some (.reference l .full, after) else none
      | none =>
        if defined label && r.head?.any (·.char = ']') then some (.reference label .collapsed, r.drop 1) else none
    else shortcut

/-- The node of a link or an image around some pieces. -/
def linkNode (env : Surroundings) (image : Bool) (pieces : List Piece) (position : Option Position) : Linked → Node :=
  let children := Piece.nodes env.dialect (!image) pieces
  fun
  | .target t =>
    if image then .leaf (.image t.url (altText children) t.title) position
    else .branch (.link t.url t.title) position children
  | .reference label kind =>
    let identifier := identifierOf (sourceChars label)
    let text := some (stringText (sourceChars label))
    if image then .leaf (.imageReference (altText children) identifier text kind) position
    else .branch (.linkReference identifier text kind) position children

/-- Reads a closing bracket. -/
def closeBracket (env : Surroundings) (r : Reading) (g : Glyph) (gs : List Glyph) : Reading × List Glyph :=
  match r.brackets with
  | [] => (r.push (.plain [g]), gs)
  | b :: outer =>
    let failed : Reading × List Glyph :=
      ({ r with brackets := outer, pieces := .plain [g] :: flattenBracket b r.pieces }, gs)
    let label := takenOf b.behind (g :: gs)
    let position (rest : List Glyph) := span (b.glyphs ++ takenOf b.behind rest)
    let passive := outer.map fun o => if o.kind = .image then o else { o with active := false }
    let identifier := identifierOf (sourceChars label)
    let caret := b.glyphs.drop 1
    if !b.active then failed
    else if b.kind = .footnote && env.footnotes.contains identifier then
      let leaf := Leaf.footnoteReference identifier (some (String.ofList (unescape (sourceChars label))))
      ({ r with brackets := passive, pieces := .node (.leaf leaf (position gs)) :: b.before }, gs)
    else if b.kind = .footnote then
      match linked? env (caret ++ label) gs with
      | some (l, rest) =>
        let node := linkNode env false (.plain caret :: r.pieces.reverse) (position rest) l
        ({ r with brackets := passive, pieces := .node node :: b.before }, rest)
      | none => failed
    else
      match linked? env label gs with
      | some (l, rest) =>
        let image := b.kind = .image
        let node := linkNode env image r.pieces.reverse (position rest) l
        ({ r with brackets := if image then outer else passive, pieces := .node node :: b.before }, rest)
      | none => failed

/-- Opens a bracket of so many glyphs. -/
def openBracket (kind : BracketKind) (size : Nat) (r : Reading) (gs : List Glyph) : Reading × List Glyph :=
  let bracket : Bracket := ⟨kind, true, gs.take size, gs.drop size, r.pieces⟩
  ({ r with brackets := bracket :: r.brackets, pieces := [] }, gs.drop size)

/-- Adds a leaf that takes the glyphs in front of a rest. -/
def leaf (content : Leaf) (gs rest : List Glyph) (r : Reading) : Reading × List Glyph :=
  (r.push (.node (.leaf content (span (takenOf gs rest)))), rest)

/-- Reads a span of code or a formula; a run of marks that no equal run closes is text. -/
def readSpan (env : Surroundings) (r : Reading) (g : Glyph) (gs : List Glyph) : Reading × List Glyph :=
  let run := g :: gs.takeWhile (·.char = g.char)
  let rest := gs.drop (run.length - 1)
  match splitAtRun g.char run.length (rest.length + 1) rest with
  | some (inside, after) =>
    let value := spanValue env.inTable inside
    r.leaf (if g.char = '$' then .inlineMath value else .inlineCode value) (g :: gs) after
  | none => (r.push (.plain run), rest)

/-- Reads what a backslash starts: a break, or a character without its meaning. -/
def readEscape (r : Reading) (g : Glyph) (gs : List Glyph) : Reading × List Glyph :=
  match gs with
  | h :: rest =>
    if h.isEol then (r.push (.node (.leaf .hardBreak (some ⟨g.start, h.stop⟩))), dropSpaces rest)
    else if isAsciiPunctuation h.char then (r.push (.replaced [h.char] ⟨g.start, h.stop⟩), rest)
    else (r.push (.plain [g]), gs)
  | [] => (r.push (.plain [g]), gs)

/-- Reads what an angle bracket starts: an address or markup. -/
def readAngle (env : Surroundings) (r : Reading) (g : Glyph) (gs : List Glyph) : Reading × List Glyph :=
  match Address.enclosed? gs with
  | some (before, inside, close, rest) =>
    let url := before ++ sourceText inside
    let link := Node.branch (.link url none) (some ⟨g.start, close.stop⟩)
      [.leaf (.text (sourceText inside)) (span inside)]
    (r.push (.node link), rest)
  | none =>
    match if env.dialect.html then markupRest? gs else none with
    | some rest => r.leaf (.html (String.ofList (markupText false (takenOf (g :: gs) rest)))) (g :: gs) rest
    | none => (r.push (.plain [g]), gs)

/-- Reads blanks. At the end of a line they are dropped, but two spaces break the line. -/
def readBlanks (r : Reading) (g : Glyph) (gs : List Glyph) : Reading × List Glyph :=
  let blanks := g :: gs.takeWhile Glyph.isSpace
  match gs.drop (blanks.length - 1) with
  | [] => (r, [])
  | h :: rest =>
    if !h.isEol then (r.push (.plain blanks), h :: rest)
    else if 2 ≤ blanks.length && blanks.all (·.char = ' ') then
      (r.push (.node (.leaf .hardBreak (some ⟨g.start, h.stop⟩))), dropSpaces rest)
    else (r, h :: rest)

/-- Reads a glyph as it is. -/
def readPlain (r : Reading) (g : Glyph) (gs : List Glyph) : Reading × List Glyph := (r.push (.plain [g]), gs)

/-- Reads a character reference behind its ampersand. -/
def readReference (r : Reading) (g : Glyph) (gs : List Glyph) : Reading × List Glyph :=
  match reference? (chars gs) with
  | some (value, n) => (r.push (.replaced value ⟨g.start, ((gs[n - 1]?).getD g).stop⟩), gs.drop n)
  | none => r.readPlain g gs

/-- Reads a run of marks. -/
def readRun (gfm : Bool) (r : Reading) (g : Glyph) (gs : List Glyph) : Reading × List Glyph :=
  let run := g :: gs.takeWhile (·.char = g.char)
  let rest := gs.drop (run.length - 1)
  (r.push (.run (Run.between gfm r.previous (rest.head?.map (·.char)) run)), rest)

/-- Reads a bare address, or its first glyph if there is none. -/
def readAddress (a : Option Address.Bare) (r : Reading) (g : Glyph) (gs : List Glyph) : Reading × List Glyph :=
  match a with
  | some a => (r.push (.address a.before a.glyphs), a.rest)
  | none => r.readPlain g gs

/-- Reads the next piece. -/
def next (env : Surroundings) (r : Reading) (g : Glyph) (gs : List Glyph) : Reading × List Glyph :=
  let d := env.dialect
  let second := gs.head?.map (·.char)
  match g.char with
  | ' ' | '\t' => r.readBlanks g gs
  | '\n' | '\r' => (r.push (.replaced g.text ⟨g.start, g.stop⟩), dropSpaces gs)
  | '\\' => r.readEscape g gs
  | '&' => r.readReference g gs
  | '\x60' => r.readSpan env g gs
  | '$' => if d.math then r.readSpan env g gs else r.readPlain g gs
  | '<' => r.readAngle env g gs
  | '[' => if d.gfm && second = some '^' then r.openBracket .footnote 2 (g :: gs) else r.openBracket .link 1 (g :: gs)
  | '!' =>
    if second = some '[' && !(d.gfm && gs[1]?.any (·.char = '^')) then r.openBracket .image 2 (g :: gs)
    else r.readPlain g gs
  | ']' => r.closeBracket env g gs
  | '*' | '_' => readRun d.gfm r g gs
  | '~' => if d.gfm then readRun d.gfm r g gs else r.readPlain g gs
  | 'h' | 'H' => readAddress (if d.gfm then Address.withProtocol? r.previous (g :: gs) else none) r g gs
  | 'w' | 'W' => readAddress (if d.gfm then Address.withoutProtocol? r.previous (g :: gs) else none) r g gs
  | _ => r.readPlain g gs

/-- Reads glyphs to their end. -/
def readAll (env : Surroundings) : Nat → Reading → List Glyph → Reading
  | 0, r, _ => r
  | _ + 1, r, [] => r
  | n + 1, r, g :: gs =>
    let (r, rest) := r.next env g gs
    let single := rest.head?.map (·.start) = gs.head?.map (·.start)
    let last := if single then g else ((takenOf (g :: gs) rest).getLast?).getD g
    readAll env n { r with previous := some last.char } rest

end Reading

/-- The nodes of running text. -/
def phrase (env : Surroundings) (gs : List Glyph) : List Node :=
  Piece.nodes env.dialect false (Reading.readAll env gs.length {} gs).toPieces

end Folio.Markdown
