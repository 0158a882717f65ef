import Folio.Markdown.Address
import Folio.Markdown.Dialect
import Folio.Markdown.Node

/-!
# Pieces of running text

What the text of a paragraph is cut into: plain glyphs, replaced characters, runs of marks, bare addresses and
finished nodes. Runs of marks are matched into emphasis, and what is left becomes text.
-/

namespace Folio.Markdown

open Folio.Text

/-- A run of equal marks, and whether it may open or close emphasis. -/
structure Run where
  glyphs : List Glyph
  opens : Bool
  closes : Bool
deriving Repr

/-- A piece of running text. -/
inductive Piece where
  | plain (glyphs : List Glyph)
  | replaced (value : List Char) (position : Position)
  | run (run : Run)
  | address (before : String) (glyphs : List Glyph)
  | node (node : Node)
deriving Repr

/-- The classes of characters beside a run of marks. -/
inductive Side where
  | blank
  | mark
  | other
deriving DecidableEq, Repr

/-- The class of a neighbour; there is a blank at the ends of a text. -/
def Side.of : Option Char → Side
  | none => .blank
  | some c => if Address.isEnd c then .blank else if isPunctuation c then .mark else .other

namespace Run

def char (r : Run) : Char := (r.glyphs.head?.map (·.char)).getD ' '

/-- Is a neighbour a mark that a run may stand next to? -/
def isMark (gfm : Bool) : Option Char → Bool
  | none => false
  | some c => c = '*' || c = '_' || (gfm && c = '~')

/-- A run between two neighbours. A run opens if it leans on what follows, and closes if it leans on what comes
before it; an underscore within a word does neither. -/
def between (gfm : Bool) (previous next : Option Char) (glyphs : List Glyph) : Run :=
  let before := Side.of previous
  let after := Side.of next
  let mark := (glyphs.head?.map (·.char)).getD ' '
  let opens := after = .other || (after = .mark && before ≠ .other) || (mark ≠ '~' && isMark gfm next)
  let closes := before = .other || (before = .mark && after ≠ .other) || (mark ≠ '~' && isMark gfm previous)
  if mark = '_' then
    ⟨glyphs, opens && (before ≠ .other || !closes), closes && (after ≠ .other || !opens)⟩
  else ⟨glyphs, opens, closes⟩

/-- May an opening run be closed by another one? Of runs that could do both, the sizes must not add up to a multiple
of three. -/
def matches? (opening closing : Run) : Bool :=
  let m := opening.glyphs.length
  let n := closing.glyphs.length
  let both := opening.closes || closing.opens
  opening.opens && opening.char = closing.char && !(both && n % 3 ≠ 0 && (m + n) % 3 = 0) &&
    (closing.char ≠ '~' || (m = n && n ≤ 2))

end Run

namespace Piece

/-- The last piece, of pieces newest first, that a run may close: the pieces behind it in order, its run and the
pieces before it. -/
def opener? (closing : Run) (inside : List Piece) : List Piece → Option (List Piece × Run × List Piece)
  | [] => none
  | run r :: older =>
    if r.matches? closing then some (inside, r, older) else opener? closing (run r :: inside) older
  | p :: older => opener? closing (p :: inside) older

/-- Adds a text to nodes that follow it. Texts that touch become one. -/
def prependText (value : String) (position : Position) : List Node → List Node
  | .leaf (.text more) (some p) :: rest => .leaf (.text (value ++ more)) (some ⟨position.start, p.stop⟩) :: rest
  | rest => .leaf (.text value) (some position) :: rest

/-- The text of glyphs, in front of other nodes. -/
def prependGlyphs (gs : List Glyph) (rest : List Node) : List Node :=
  match span gs with
  | some position => prependText (sourceText gs) position rest
  | none => rest

/-- A link from a bare address. -/
def addressNode (before : String) (gs : List Glyph) : Node :=
  let position := span gs
  .branch (.link (before ++ sourceText gs) none) position [.leaf (.text (sourceText gs)) position]

/-- Adds glyphs in front of pieces; glyphs that touch become one piece. -/
def prependPlain (gs : List Glyph) : List Piece → List Piece
  | plain more :: rest => plain (gs ++ more) :: rest
  | rest => plain gs :: rest

/-- Runs that match nothing become glyphs, and bare addresses too if links are not wanted. -/
def join (wantsLinks : Bool) : List Piece → List Piece
  | [] => []
  | plain gs :: rest => prependPlain gs (join wantsLinks rest)
  | run r :: rest => prependPlain r.glyphs (join wantsLinks rest)
  | address before gs :: rest =>
    if wantsLinks then address before gs :: join wantsLinks rest else prependPlain gs (join wantsLinks rest)
  | p :: rest => p :: join wantsLinks rest

/-- The nodes of joined pieces. -/
def toNodes (wantsMail : Bool) : List Piece → List Node
  | [] => []
  | plain gs :: rest =>
    let after := toNodes wantsMail rest
    if wantsMail then
      (Address.mailParts (gs.length + 1) [] gs).foldr (fun
        | .other gs, nodes => prependGlyphs gs nodes
        | .mail before gs, nodes => addressNode before gs :: nodes) after
    else prependGlyphs gs after
  | replaced value position :: rest => prependText (String.ofList value) position (toNodes wantsMail rest)
  | run r :: rest => prependGlyphs r.glyphs (toNodes wantsMail rest)
  | address before gs :: rest => addressNode before gs :: toNodes wantsMail rest
  | node n :: rest => n :: toNodes wantsMail rest

/-- The nodes of pieces, within a link or not. There is no link in a link. -/
def settle (d : Dialect) (inLink : Bool) (ps : List Piece) : List Node :=
  toNodes (d.gfm && !inLink) (join (!inLink) ps)

/-- The branch that a match of so many marks makes. -/
def emphasisKind (mark : Char) (taken : Nat) : Branch :=
  if mark = '~' then .delete else if taken = 1 then .emphasis else .strong

/-- Adds a run to pieces newest first: it closes what it can, and the rest of it stays. -/
def addRun (d : Dialect) (inLink : Bool) : Nat → Run → List Piece → List Piece
  | 0, _, done => done
  | n + 1, r, done =>
    match if r.closes then opener? r [] done else none with
    | some (inside, opening, older) =>
      let taken := if 1 < opening.glyphs.length && 1 < r.glyphs.length then 2 else 1
      let kept := opening.glyphs.take (opening.glyphs.length - taken)
      let rest := r.glyphs.drop taken
      let position := span (opening.glyphs.drop kept.length ++ r.glyphs.take taken)
      let made := node (.branch (emphasisKind r.char taken) position (settle d inLink inside))
      let done := made :: (if kept.isEmpty then older else run { opening with glyphs := kept } :: older)
      if rest.isEmpty then done else addRun d inLink n { r with glyphs := rest } done
    | none => run r :: done

/-- Matches the runs of pieces. -/
def matchRuns (d : Dialect) (inLink : Bool) (ps : List Piece) : List Piece :=
  (ps.foldl (fun done p =>
    match p with
    | run r => addRun d inLink r.glyphs.length r done
    | p => p :: done) []).reverse

/-- The nodes of pieces after their runs are matched. -/
def nodes (d : Dialect) (inLink : Bool) (ps : List Piece) : List Node := settle d inLink (matchRuns d inLink ps)

end Piece

end Folio.Markdown
