import Folio.Markdown.Glyph
import Folio.Markdown.Escape

/-!
# Tags

The attributes of a tag, read character by character. A tag that stands on a line of its own may chain values with
equals signs; a tag in running text must not.
-/

namespace Folio.Markdown

/-- Where a reader of a tag stands. -/
inductive TagPart where
  | between
  | name
  | afterName
  | beforeValue
  | quoted (mark : Char)
  | unquoted
  | afterQuoted
  | slash
  | closed
deriving DecidableEq, Repr

namespace TagPart

def isNameStart (c : Char) : Bool := c.isAlpha || c = ':' || c = '_'

def isNameChar (c : Char) : Bool := isNameStart c || c.isDigit || c = '-' || c = '.'

/-- Where the reader stands after a character between attributes. -/
def afterBetween (c : Char) : Option TagPart :=
  if isBlankOrEol c then some between
  else if c = '/' then some slash
  else if c = '>' then some closed
  else if isNameStart c then some name
  else none

/-- Where the reader stands after a character behind the name of an attribute. -/
def afterNameChar (c : Char) : Option TagPart :=
  if isBlankOrEol c then some afterName
  else if c = '=' then some beforeValue
  else afterBetween c

/-- Where the reader stands after one more character. -/
def next (chained : Bool) : TagPart → Char → Option TagPart
  | between, c => afterBetween c
  | name, c => if isNameChar c then some name else afterNameChar c
  | afterName, c => afterNameChar c
  | beforeValue, c =>
    if isBlankOrEol c then some beforeValue
    else if c = '"' || c = '\'' then some (quoted c)
    else if c = '<' || c = '=' || c = '>' || c = '\x60' then none
    else some unquoted
  | quoted mark, c => some (if c = mark then afterQuoted else quoted mark)
  | unquoted, c =>
    if chained && (isBlankOrEol c || c = '/' || c = '>' || c = '=') then afterNameChar c
    else if isBlankOrEol c || c = '/' || c = '>' then afterBetween c
    else if c = '"' || c = '\'' || c = '<' || c = '=' || c = '\x60' then none
    else some unquoted
  | afterQuoted, c => if isBlankOrEol c || c = '/' || c = '>' then afterBetween c else none
  | slash, c => if c = '>' then some closed else none
  | closed, _ => none

/-- What follows the tag. -/
def rest? (chained : Bool) (part : TagPart) : List Glyph → Option (List Glyph)
  | [] => none
  | g :: gs =>
    match part.next chained g.char with
    | some closed => some gs
    | some part => rest? chained part gs
    | none => none

end TagPart

/-- The name at the start of a tag, and what follows it. -/
def tagName? (gs : List Glyph) : Option (List Glyph × List Glyph) :=
  match gs with
  | g :: _ =>
    let isNamed := fun h : Glyph => h.char.isAlphanum || h.char = '-'
    if g.char.isAlpha then some (gs.takeWhile isNamed, gs.dropWhile isNamed) else none
  | [] => none

/-- What follows an opening tag whose name has been read. -/
def openTagRest? (chained : Bool) (gs : List Glyph) : Option (List Glyph) :=
  match gs with
  | g :: _ =>
    if isBlankOrEol g.char || g.char = '/' || g.char = '>' then TagPart.rest? chained .between gs else none
  | [] => none

/-- What follows a closing tag whose name has been read. -/
def closeTagRest? (gs : List Glyph) : Option (List Glyph) :=
  match gs.dropWhile fun g => isBlankOrEol g.char with
  | g :: r => if g.char = '>' then some r else none
  | [] => none

end Folio.Markdown
