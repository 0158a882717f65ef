import Folio.Markdown.Shape
import Folio.Markdown.Tag

/-!
# Blocks of markup

A line may open a block of markup. Some kinds of block end in the line that has their end mark, the others at a
blank line.
-/

namespace Folio.Markdown

open Folio.Text

/-- The kinds of blocks of markup: an element of raw text, a comment, an instruction, a declaration, a section of
character data, an element of the page's structure, and any other tag that fills a line. -/
inductive HtmlBlock where
  | rawText
  | comment
  | instruction
  | declaration
  | data
  | structural
  | complete
deriving DecidableEq, Repr

namespace HtmlBlock

/-- The elements whose content is raw text. -/
def rawTextNames : List String := ["pre", "script", "style", "textarea"]

/-- The elements that open a block of markup within a paragraph too. -/
def structuralNames : List String :=
  ["address", "article", "aside", "base", "basefont", "blockquote", "body", "caption", "center", "col", "colgroup",
    "dd", "details", "dialog", "dir", "div", "dl", "dt", "fieldset", "figcaption", "figure", "footer", "form",
    "frame", "frameset", "h1", "h2", "h3", "h4", "h5", "h6", "head", "header", "hr", "html", "iframe", "legend",
    "li", "link", "main", "menu", "menuitem", "nav", "noframes", "ol", "optgroup", "option", "p", "param",
    "search", "section", "summary", "table", "tbody", "td", "tfoot", "th", "thead", "title", "tr", "track", "ul"]

def lowerName (name : List Glyph) : String := String.ofList (name.map fun g => g.char.toLower)

/-- The kind of block that a tag opens. -/
def ofTag? (mayComplete closing : Bool) (name rest : List Glyph) : Option HtmlBlock :=
  let slash := rest.head?.any (·.char = '/')
  if !(rest.head?.all fun g => g.isSpace || g.char = '/' || g.char = '>') then none
  else if !slash && !closing && rawTextNames.contains (lowerName name) then some rawText
  else if structuralNames.contains (lowerName name) then
    if slash && !(rest[1]?.any (·.char = '>')) then none else some structural
  else if mayComplete then
    match if closing then closeTagRest? rest else openTagRest? true rest with
    | some after => if isBlankLine after then some complete else none
    | none => none
  else none

/-- The kind of block that a line opens. -/
def opened? (mayComplete : Bool) (gs : List Glyph) : Option HtmlBlock := do
  match ← unindent? gs with
  | lt :: r =>
    if lt.char ≠ '<' then none
    else match r with
      | g :: r' =>
        if g.char = '!' then
          if ['-', '-'].isPrefixOf (chars r') then some comment
          else if "[CDATA[".toList.isPrefixOf (chars r') then some data
          else if r'.head?.any (·.char.isAlpha) then some declaration
          else none
        else if g.char = '?' then some instruction
        else if g.char = '/' then
          (tagName? r').bind fun (name, rest) => ofTag? mayComplete true name rest
        else (tagName? (g :: r')).bind fun (name, rest) => ofTag? mayComplete false name rest
      | [] => none
  | [] => none

/-- Is there such a piece in a text? -/
def hasInfix (piece : List Char) : List Char → Bool
  | [] => piece.isEmpty
  | c :: s => piece.isPrefixOf (c :: s) || hasInfix piece s

/-- Is there the end of a section of character data? Brackets are taken in pairs. -/
def hasDataEnd : List Char → Bool
  | [] => false
  | c :: s =>
    if c = ']' then
      match s with
      | d :: s' => if d = ']' then s'.head? = some '>' || hasDataEnd s' else hasDataEnd (d :: s')
      | [] => false
    else hasDataEnd s

/-- Does the block end in a line? -/
def endsIn (kind : HtmlBlock) (gs : List Glyph) : Bool :=
  let s := chars gs
  match kind with
  | rawText => rawTextNames.any fun name => hasInfix ("</".toList ++ name.toList ++ ['>']) (s.map Char.toLower)
  | comment => hasInfix "-->".toList s
  | instruction => hasInfix "?>".toList s
  | declaration => s.contains '>'
  | data => hasDataEnd s
  | structural | complete => false

/-- Does the block end at a blank line? -/
def endsAtBlank (kind : HtmlBlock) : Bool := kind = structural || kind = complete

end HtmlBlock

end Folio.Markdown
