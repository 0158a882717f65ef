import Folio.Markdown.Escape
import Folio.Markdown.Glyph

/-!
# Labels, destinations and titles

The parts of definitions and links. Each reader takes the glyphs from where its part starts and returns the
glyphs of the part and those behind it.
-/

namespace Folio.Markdown

open Folio.Text

/-- A part and what follows it. -/
abbrev Part := List Glyph × List Glyph

/-- The limit of the length of a label. -/
def maxLabel : Nat := 999

/-- The nesting limit of parentheses in a destination. -/
def maxParens : Nat := 32

/-- The bytes that glyphs take. -/
def bytes (gs : List Glyph) : Nat := byteSize (gs.map (·.char))

/-- Reads a label behind its bracket up to the closing one. -/
def readLabelInside (acc : List Glyph) : List Glyph → Option Part
  | [] => none
  | g :: gs =>
    if g.char = ']' then some (acc.reverse, gs)
    else if g.char = '[' then none
    else if g.char = '\\' then
      match gs with
      | h :: hs =>
        if h.char = '[' || h.char = '\\' || h.char = ']' then readLabelInside (h :: g :: acc) hs
        else readLabelInside (g :: acc) (h :: hs)
      | [] => none
    else readLabelInside (g :: acc) gs

/-- Reads a label in brackets. It is not too long, and there is more than blanks in it. -/
def readLabel : List Glyph → Option Part
  | g :: gs =>
    if g.char = '[' then
      match readLabelInside [] gs with
      | some (label, rest) =>
        if bytes label ≤ maxLabel && label.any fun h => !isBlankOrEol h.char then some (label, rest) else none
      | none => none
    else none
  | [] => none

/-- Reads a destination in angle brackets behind the opening one. -/
def readEnclosed (acc : List Glyph) : List Glyph → Option Part
  | [] => none
  | g :: gs =>
    if g.char = '>' then some (acc.reverse, gs)
    else if g.isEol || g.char = '<' then none
    else if g.char = '\\' then
      match gs with
      | h :: hs =>
        if h.char = '<' || h.char = '>' || h.char = '\\' then readEnclosed (h :: g :: acc) hs
        else readEnclosed (g :: acc) (h :: hs)
      | [] => none
    else readEnclosed (g :: acc) gs

/-- Reads a destination without angle brackets: no blanks and controls, and balanced parentheses. -/
def readBare (acc : List Glyph) (depth : Nat) : List Glyph → Option Part
  | [] => if depth = 0 then some (acc.reverse, []) else none
  | g :: gs =>
    if g.char = '\t' || g.isEol || g.char = ' ' then if depth = 0 then some (acc.reverse, g :: gs) else none
    else if g.char = ')' && depth = 0 then some (acc.reverse, g :: gs)
    else if g.char = '(' then if depth < maxParens then readBare (g :: acc) (depth + 1) gs else none
    else if g.char = ')' then readBare (g :: acc) (depth - 1) gs
    else if isAsciiControl g.char && g.char ≠ '\x00' then none
    else if g.char = '\\' then
      match gs with
      | h :: hs =>
        if h.char = '(' || h.char = ')' || h.char = '\\' then readBare (h :: g :: acc) depth hs
        else readBare (g :: acc) depth (h :: hs)
      | [] => readBare (g :: acc) depth []
    else readBare (g :: acc) depth gs

/-- Reads a destination. -/
def readDestination : List Glyph → Option Part
  | [] => none
  | g :: gs =>
    if g.char = '<' then readEnclosed [] gs
    else if g.char = ' ' || g.char = ')' || isAsciiControl g.char then none
    else readBare [] 0 (g :: gs)

/-- Reads a title up to its closing mark; a line of it must not be blank. -/
def readTitleInside (close : Char) (acc : List Glyph) : List Glyph → Option Part
  | [] => none
  | g :: gs =>
    if g.char = close then some (acc.reverse, gs)
    else if g.isEol then
      match gs.dropWhile Glyph.isSpace with
      | h :: _ => if h.isEol then none else readTitleInside close (g :: acc) gs
      | [] => none
    else if g.char = '\\' then
      match gs with
      | h :: hs =>
        if h.char = close || h.char = '\\' then readTitleInside close (h :: g :: acc) hs
        else readTitleInside close (g :: acc) (h :: hs)
      | [] => none
    else readTitleInside close (g :: acc) gs

/-- Reads a title in quotes or parentheses. -/
def readTitle : List Glyph → Option Part
  | [] => none
  | g :: gs =>
    if g.char = '"' || g.char = '\'' then readTitleInside g.char [] gs
    else if g.char = '(' then readTitleInside ')' [] gs
    else none

/-- Passes spaces and tabs and at most one line ending. -/
def skipBlanks (gs : List Glyph) : List Glyph :=
  match dropSpaces gs with
  | g :: r => if g.isEol then dropSpaces r else g :: r
  | [] => []

/-- A link target: the destination and a title. -/
structure Target where
  url : String
  title : Option String
deriving Repr

/-- The text of a destination. -/
def urlText (gs : List Glyph) : String := String.ofList (unescape (chars gs))

def titleText (gs : List Glyph) : String := stringText (sourceChars gs)

/-- Reads the target of a link behind its opening parenthesis. -/
def readResource (gs : List Glyph) : Option (Target × Glyph × List Glyph) :=
  let close (url : String) (title : Option String) (gs : List Glyph) : Option (Target × Glyph × List Glyph) :=
    match skipBlanks gs with
    | g :: r => if g.char = ')' then some (⟨url, title⟩, g, r) else none
    | [] => none
  match close "" none gs with
  | some r => some r
  | none => do
    let (url, rest) ← readDestination (skipBlanks gs)
    let next := skipBlanks rest
    if next.length < rest.length then
      match readTitle next with
      | some (title, rest) => close (urlText url) (some (titleText title)) rest
      | none => close (urlText url) none rest
    else close (urlText url) none rest

/-- A definition: its label, its target, the glyphs that it takes and those behind it. -/
structure Definition where
  label : List Glyph
  target : Target
  taken : List Glyph
  rest : List Glyph

/-- Splits off what is left of a line that has only blanks. -/
def endOfLine? (gs : List Glyph) : Option Part :=
  let blanks := gs.takeWhile Glyph.isSpace
  match dropSpaces gs with
  | [] => some (blanks, [])
  | g :: r => if g.isEol then some (blanks, r) else none

/-- Reads a definition at the start of a paragraph. -/
def readDefinition (gs : List Glyph) : Option Definition := do
  let (label, rest) ← readLabel (dropSpaces gs)
  let rest ← match rest with
    | g :: r => if g.char = ':' then some r else none
    | [] => none
  let (url, rest) ← readDestination (skipBlanks rest)
  let make (title : Option String) (rest : List Glyph) : Option Definition :=
    (endOfLine? rest).map fun (blanks, after) =>
      ⟨label, ⟨urlText url, title⟩, gs.take (gs.length - rest.length + blanks.length), after⟩
  let next := skipBlanks rest
  let titled : Option Definition :=
    if next.length < rest.length then
      (readTitle next).bind fun (title, rest) => make (some (titleText title)) rest
    else none
  match titled with
  | some d => some d
  | none => make none rest

end Folio.Markdown
