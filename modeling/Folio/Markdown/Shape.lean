import Folio.Markdown.Destination

/-!
# Shapes of lines

What the start of a line says: a heading, an underline, a break between topics, a fence, or the mark of a
container. Marks are indented by less than a tab stop.
-/

namespace Folio.Markdown

open Folio.Text

/-- Passes an indentation of less than a tab stop. -/
def unindent? (gs : List Glyph) : Option (List Glyph) :=
  if indent gs < tabSize then some (dropSpaces gs) else none

/-- A line of three or more stars, dashes or underscores. -/
def isThematicBreak (gs : List Glyph) : Bool :=
  match unindent? gs with
  | some (g :: r) =>
    (g.char = '*' || g.char = '-' || g.char = '_') && r.all (fun h => h.char = g.char || h.isSpace) &&
      2 ≤ r.countP (·.char = g.char)
  | _ => false

/-- Drops the closing marks of a heading, from the end: number signs that stand alone. -/
def dropClosing (r : List Glyph) : List Glyph :=
  match _h : (dropSpaces r).dropWhile (·.char = '#') with
  | g :: rest => if g.isSpace then dropClosing rest else dropSpaces r
  | [] => []
termination_by r.length
decreasing_by
  have h₁ := congrArg List.length _h
  have h₂ := (List.dropWhile_sublist (l := dropSpaces r) (fun g : Glyph => decide (g.char = '#'))).length_le
  have h₃ := (List.dropWhile_sublist (l := r) Glyph.isSpace).length_le
  simp only [List.length_cons] at h₁
  simp only [dropSpaces] at h₁ h₂
  omega

/-- The depth and the content of a heading. Number signs in front of its first word are no content. -/
def headingLine? (gs : List Glyph) : Option (Nat × List Glyph) := do
  let line ← unindent? gs
  let depth := (line.takeWhile (·.char = '#')).length
  let rest := line.drop depth
  if depth = 0 || 6 < depth || rest.head?.any (fun g => !g.isSpace) then none
  else
    let content := rest.dropWhile fun g => g.isSpace || g.char = '#'
    some (depth, (dropClosing content.reverse).reverse)

/-- The depth of the heading that a line underlines. -/
def underline? (gs : List Glyph) : Option Nat :=
  match unindent? gs with
  | some (g :: r) =>
    if (g.char = '=' || g.char = '-') && isBlankLine (r.dropWhile (·.char = g.char)) then
      some (if g.char = '=' then 1 else 2)
    else none
  | _ => none

/-- A fence: its mark, how many there are, its indentation, and the words behind it. -/
structure Fence where
  mark : Char
  size : Nat
  indentation : Nat
  info : List Glyph
  details : List Glyph
deriving Repr

/-- The number of marks that open a fence. -/
def Fence.least (mark : Char) : Nat := if mark = '$' then 2 else 3

/-- Reads an opening fence. -/
def fence? (math : Bool) (gs : List Glyph) : Option Fence :=
  match unindent? gs with
  | some (g :: r) =>
    let mark := g.char
    let size := 1 + (r.takeWhile (·.char = mark)).length
    let words := dropSpaces (r.drop (size - 1))
    if !(mark = '\x60' || mark = '~' || (math && mark = '$')) || size < Fence.least mark then none
    else if mark ≠ '~' && words.any (·.char = mark) then none
    else if mark = '$' then some ⟨mark, size, indent gs, [], words⟩
    else
      let info := words.takeWhile fun h => !h.isSpace
      some ⟨mark, size, indent gs, info, dropSpaces (words.drop info.length)⟩
  | _ => none

/-- Does a line close the fence? -/
def Fence.isClosedBy (f : Fence) (gs : List Glyph) : Bool :=
  match unindent? gs with
  | some line =>
    f.size ≤ (line.takeWhile (·.char = f.mark)).length && isBlankLine (line.dropWhile (·.char = f.mark))
  | none => false

/-- A label of a footnote has no blanks. -/
def isFootnoteLabel (label : List Glyph) : Bool :=
  !label.isEmpty && bytes label ≤ maxLabel && label.all fun g => !isBlankOrEol g.char

/-- Passes the mark of a quote and a column behind it. -/
def quoteMark? (gs : List Glyph) : Option (List Glyph) :=
  match unindent? gs with
  | some (g :: r) => if g.char = '>' then some (dropColumns 1 r) else none
  | _ => none

/-- The mark of a list item: the character that lists of one kind share, the number of an ordered item, the
columns that the content of the item is indented by, whether the item starts with a blank line, and the box of a
task. -/
structure ItemMark where
  mark : Char
  number : Option Nat
  width : Nat
  blank : Bool
  checked : Option Bool := none
deriving Repr

/-- The longest number of an item. -/
def maxItemDigits : Nat := 9

/-- Reads the mark of a list item. Within a paragraph only a filled item starts that is not numbered or has the
number one. -/
def itemMark? (interrupts : Bool) (gs : List Glyph) : Option (ItemMark × List Glyph) := do
  let line ← unindent? gs
  let digits := line.takeWhile fun g => g.char.isDigit
  let (mark, number, r) ← match line.drop digits.length with
    | [] => none
    | g :: r =>
      if digits.isEmpty then
        if g.char = '+' || ((g.char = '*' || g.char = '-') && !isThematicBreak gs) then some (g.char, none, r) else none
      else if (g.char = '.' || g.char = ')') && digits.length ≤ maxItemDigits &&
          !(interrupts && chars digits ≠ ['1']) then some (g.char, some (Entity.number 10 (chars digits)), r)
      else none
  let taken := indent gs + digits.length + 1
  if isBlankLine r then if interrupts then none else some ({ mark, number, width := taken + 1, blank := true }, r)
  else if indent r = 0 then none
  else
    let blanks := if indent r ≤ tabSize then indent r else 1
    some ({ mark, number, width := taken + blanks, blank := false }, dropColumns blanks r)

/-- Reads the label in front of a footnote, and passes the blanks behind it. -/
def footnoteMark? (gs : List Glyph) : Option Part := do
  match ← unindent? gs with
  | bracket :: caret :: r =>
    let (label, rest) ← readLabelInside [] r
    if bracket.char = '[' && caret.char = '^' && isFootnoteLabel label && rest.head?.any (·.char = ':') then
      some (label, dropSpaces (rest.drop 1))
    else none
  | _ => none

end Folio.Markdown
