import Folio.Markdown.Shape

/-!
# Tables

The rows of a table. A row is cut at its pipes; an escaped pipe belongs to its cell. The row below the head aligns
the columns.
-/

namespace Folio.Markdown

open Folio.Text

/-- Cuts a row at the pipes that are not escaped; each piece comes with the pipe behind it. -/
def cutAtPipes (acc : List Glyph) : List Glyph → List (List Glyph × List Glyph)
  | [] => [(acc.reverse, [])]
  | g :: gs =>
    if g.char = '|' then (acc.reverse, [g]) :: cutAtPipes [] gs
    else if g.char = '\\' then
      match gs with
      | h :: hs =>
        if h.char = '|' || h.char = '\\' then cutAtPipes (h :: g :: acc) hs else cutAtPipes (g :: acc) (h :: hs)
      | [] => [((g :: acc).reverse, [])]
    else cutAtPipes (g :: acc) gs

/-- A cell: the glyphs from the pipe in front of it to the next one, and its content between the blanks. -/
structure Cell where
  glyphs : List Glyph
  content : List Glyph
deriving Repr

/-- The cells of the pieces behind a pipe. There is none behind a pipe that ends the row. -/
def cellsBehind (pipe : List Glyph) : List (List Glyph × List Glyph) → List Cell
  | [] => []
  | (piece, next) :: rest =>
    let content := dropEndSpaces (dropSpaces piece)
    match rest with
    | [(last, _)] =>
      if isBlankLine last then [⟨pipe ++ piece ++ next ++ last, content⟩]
      else [⟨pipe ++ piece, content⟩, ⟨next ++ last, dropEndSpaces (dropSpaces last)⟩]
    | rest => ⟨pipe ++ piece, content⟩ :: cellsBehind next rest

/-- The cells of a row. There is none in front of a pipe that starts the row. -/
def cells (gs : List Glyph) : List Cell :=
  match cutAtPipes [] gs with
  | (piece, pipe) :: next :: rest =>
    if isBlankLine piece then cellsBehind (piece ++ pipe) (next :: rest)
    else cellsBehind [] ((piece, pipe) :: next :: rest)
  | pieces => cellsBehind [] pieces

/-- The alignment that a cell of the row below the head gives: dashes with a colon on the side of the text. -/
def align? (cell : List Char) : Option (Option Align) :=
  let left := cell.head? = some ':'
  let marks := if left then cell.drop 1 else cell
  let rest := marks.dropWhile (· = '-')
  if marks.head? ≠ some '-' then none
  else if rest.isEmpty then some (if left then some .left else none)
  else if rest = [':'] then some (some (if left then .center else .right))
  else none

/-- The alignments that the row below the head gives. A row of dashes alone is none. -/
def aligns? (gs : List Glyph) : Option (List (Option Align)) := do
  let line ← unindent? gs
  if !(line.any fun g => g.char = '|' || g.char = ':') then none
  else (cells line).mapM fun cell => align? (chars cell.content)

/-- Can a line be the head of a table? Only a line that no other mark starts, and that is more than a pipe. -/
def isTableHead (gs : List Glyph) : Bool :=
  let first := (gs.head?.map (·.char)).getD ' '
  indent gs < tabSize && chars (dropEndSpaces (dropSpaces gs)) ≠ ['|'] &&
    !(['#', '$', '\x60', '~', '*', '_', '<', 'e', 'i', '\x7b'].contains first)

end Folio.Markdown
