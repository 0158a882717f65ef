/-!
# Tokens of YAML

What the indentation and the indicators of a YAML text mean: where block and flow collections start and end, what
is a key and what its value, and the scalars between them.
-/

namespace Folio.Yaml

/-- A token. A scalar says whether it was written plain, without quotes and not as a block. -/
inductive Token where
  | versionDirective (major minor : Nat)
  | tagDirective (handle target : List Char)
  | documentStart
  | documentEnd
  | blockSequenceStart
  | blockMappingStart
  | blockEnd
  | flowSequenceStart
  | flowSequenceEnd
  | flowMappingStart
  | flowMappingEnd
  | blockEntry
  | flowEntry
  | key
  | value
  | alias (name : List Char)
  | anchor (name : List Char)
  | tag (handle suffix : List Char)
  | scalar (text : List Char) (plain : Bool)
  | streamEnd
deriving Repr, DecidableEq, Inhabited

/-- A place in the text. -/
structure Cursor where
  rest : List Char
  line : Nat
  column : Nat
  index : Nat
deriving Repr

/-- Line breaks: line feed, carriage return, and the three of Unicode. -/
def isBreak (c : Char) : Bool :=
  c = '\n' || c = '\r' || c = '\u0085' || c = '\u2028' || c = '\u2029'

/-- Space and tab. -/
def isSpaceTab (c : Char) : Bool := c = ' ' || c = '\t'

/-- At the end of the text, or before a space, a tab or a line break. -/
def atGap : List Char → Bool
  | [] => true
  | c :: _ => isSpaceTab c || isBreak c

/-- At the end of the text or of a line. -/
def atLineEnd : List Char → Bool
  | [] => true
  | c :: _ => isBreak c

/-- The characters that a YAML text may hold. -/
def isReadable (c : Char) : Bool :=
  c = '\t' || c = '\n' || c = '\r' || c = '\u0085' ||
    (32 ≤ c.toNat && c.toNat ≤ 126) || (0xA0 ≤ c.toNat && c.toNat ≤ 0xFFFD && c.toNat != 0xFEFF) ||
    0x10000 ≤ c.toNat

namespace Cursor

/-- The start of a text. -/
def start (s : List Char) : Cursor := ⟨s, 0, 0, 0⟩

/-- Past some characters of one line. -/
def skip (c : Cursor) (n : Nat) : Cursor :=
  { c with rest := c.rest.drop n, column := c.column + n, index := c.index + n }

/-- Past a line break, which is given in its normal form. -/
def takeBreak (c : Cursor) : List Char × Cursor :=
  match c.rest with
  | '\r' :: '\n' :: r => (['\n'], ⟨r, c.line + 1, 0, c.index + 2⟩)
  | b :: r =>
    if isBreak b then
      (if b = '\u2028' || b = '\u2029' then [b] else ['\n'], ⟨r, c.line + 1, 0, c.index + 1⟩)
    else ([], c)
  | [] => ([], c)

/-- The characters of a class from here on, and the place behind them. -/
def takeWhile (c : Cursor) (p : Char → Bool) : List Char × Cursor :=
  let s := c.rest.takeWhile p
  (s, c.skip s.length)

def skipWhile (c : Cursor) (p : Char → Bool) : Cursor := (c.takeWhile p).2

/-- At the start of a line that opens or ends a document. -/
def atDocumentMark (c : Cursor) : Bool :=
  c.column == 0 &&
    match c.rest with
    | '-' :: '-' :: '-' :: r => atGap r
    | '.' :: '.' :: '.' :: r => atGap r
    | _ => false

end Cursor

end Folio.Yaml
