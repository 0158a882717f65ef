import Folio.Yaml.Token
import Folio.Text.Letter

/-!
# Scalars of YAML as written

Plain and quoted scalars fold their line breaks; block scalars keep or fold them and cut or keep those at the end.
Every reader returns the text of the scalar and the place behind it, or nothing where the text is not well formed.
-/

namespace Folio.Yaml

open Folio.Text

/-- The blanks between two pieces of a scalar: the spaces before the first line break, and the breaks. -/
structure Gap where
  spaces : List Char
  breaks : List Char

/-- One line break becomes a space; of several the first is dropped. -/
def Gap.folded (g : Gap) : List Char :=
  match g.breaks with
  | [] => g.spaces
  | ['\n'] => [' ']
  | '\n' :: more => more
  | all => all

/-- Reads blanks and line breaks. After a line break a tab left of `indent` is refused. -/
def readGap (indent : Int) (g : Gap) (c : Cursor) : Nat → Option (Gap × Cursor)
  | 0 => some (g, c)
  | fuel + 1 =>
    match c.rest with
    | [] => some (g, c)
    | x :: _ =>
      if isSpaceTab x then
        if g.breaks.isEmpty then readGap indent { g with spaces := g.spaces ++ [x] } (c.skip 1) fuel
        else if x = '\t' && (c.column : Int) < indent then none
        else readGap indent g (c.skip 1) fuel
      else if isBreak x then
        let (b, c') := c.takeBreak
        readGap indent { g with breaks := g.breaks ++ b } c' fuel
      else some (g, c)

/-- Does the plain scalar end before this character? -/
def endsPlain (flow : Bool) : List Char → Bool
  | [] => true
  | ':' :: r => atGap r
  | c :: _ => flow && (c = ',' || c = '[' || c = ']' || c = '\x7b' || c = '\x7d')

/-- A colon before a flow indicator may not stand in a plain scalar of a flow collection. -/
def isBadColon (flow : Bool) : List Char → Bool
  | ':' :: c :: _ => flow && (c = ',' || c = '?' || c = '[' || c = ']' || c = '\x7b' || c = '\x7d')
  | _ => false

/-- The characters of a plain scalar up to a blank or its end. -/
def readPlainPiece (flow : Bool) (acc : List Char) (c : Cursor) : Nat → Option (List Char × Cursor)
  | 0 => some (acc.reverse, c)
  | fuel + 1 =>
    if atGap c.rest then some (acc.reverse, c)
    else if isBadColon flow c.rest then none
    else if endsPlain flow c.rest then some (acc.reverse, c)
    else
      match c.rest with
      | [] => some (acc.reverse, c)
      | x :: _ => readPlainPiece flow (x :: acc) (c.skip 1) fuel

/-- Reads a plain scalar. The flag says whether a line break was passed at its end. -/
def readPlain (flow : Bool) (indent : Int) (text : List Char) (gap : Gap) (c : Cursor) :
    Nat → Option (List Char × Bool × Cursor)
  | 0 => none
  | fuel + 1 =>
    if c.atDocumentMark || c.rest.head? = some '#' then some (text, !gap.breaks.isEmpty, c)
    else do
      let (piece, c') ← readPlainPiece flow [] c c.rest.length
      let text' := if piece.isEmpty then text else text ++ gap.folded ++ piece
      let ended := piece.isEmpty && !gap.breaks.isEmpty
      if !atGap c'.rest || c'.rest.isEmpty then some (text', ended, c')
      else
        let (gap', c'') ← readGap indent ⟨[], []⟩ c' c'.rest.length
        if !flow && (c''.column : Int) < indent then some (text', !gap'.breaks.isEmpty, c'')
        else readPlain flow indent text' gap' c'' fuel

/-- The character of a short escape. -/
def shortEscape? : Char → Option Char
  | '0' => some '\x00'
  | 'a' => some '\x07'
  | 'b' => some '\x08'
  | 't' => some '\t'
  | '\t' => some '\t'
  | 'n' => some '\n'
  | 'v' => some '\x0b'
  | 'f' => some '\x0c'
  | 'r' => some '\r'
  | 'e' => some '\x1b'
  | ' ' => some ' '
  | '"' => some '"'
  | '/' => some '/'
  | '\\' => some '\\'
  | 'N' => some '\u0085'
  | '_' => some '\u00a0'
  | 'L' => some '\u2028'
  | 'P' => some '\u2029'
  | _ => none

/-- How many hexadecimal digits an escape takes. -/
def hexEscape? : Char → Option Nat
  | 'x' => some 2
  | 'u' => some 4
  | 'U' => some 8
  | _ => none

/-- The character of an escape that starts behind the backslash. -/
def readEscape (c : Cursor) : Option (Char × Cursor) :=
  match c.rest with
  | [] => none
  | x :: r =>
    match shortEscape? x with
    | some y => some (y, c.skip 1)
    | none =>
      match hexEscape? x with
      | none => none
      | some n =>
        let ds := r.take n
        let v := ds.foldl (fun a d => a * 16 + hexValue d) 0
        if ds.length = n && ds.all isHexDigit && v.isValidChar then some (Char.ofNat v, c.skip (1 + n)) else none

/-- The characters of a quoted scalar up to a blank or its closing quote. The flag says that the piece ended
with an escaped line break. -/
def readQuotedPiece (single : Bool) (acc : List Char) (c : Cursor) : Nat → Option (List Char × Bool × Cursor)
  | 0 => none
  | fuel + 1 =>
    if atGap c.rest then some (acc.reverse, false, c)
    else
      match single, c.rest with
      | true, '\'' :: '\'' :: _ => readQuotedPiece single ('\'' :: acc) (c.skip 2) fuel
      | true, '\'' :: _ => some (acc.reverse, false, c)
      | false, '"' :: _ => some (acc.reverse, false, c)
      | false, '\\' :: r =>
        if atLineEnd r && !r.isEmpty then some (acc.reverse, true, ((c.skip 1).takeBreak).2)
        else
          match readEscape (c.skip 1) with
          | some (x, c') => readQuotedPiece single (x :: acc) c' fuel
          | none => none
      | _, x :: _ => readQuotedPiece single (x :: acc) (c.skip 1) fuel
      | _, [] => none

/-- Reads a quoted scalar from behind its opening quote to behind its closing quote. -/
def readQuoted (single : Bool) (text : List Char) (c : Cursor) : Nat → Option (List Char × Cursor)
  | 0 => none
  | fuel + 1 =>
    if c.atDocumentMark || c.rest.isEmpty then none
    else do
      let (piece, escaped, c') ← readQuotedPiece single [] c (c.rest.length + 1)
      let text' := text ++ piece
      if !escaped && c'.rest.head? = some (if single then '\'' else '"') then some (text', c'.skip 1)
      else
        let (gap, c'') ← readGap 0 ⟨[], []⟩ c' c'.rest.length
        let between := if escaped then gap.breaks else gap.folded
        readQuoted single (text' ++ between) c'' fuel

/-- What a block scalar does with the line breaks at its end. -/
inductive Chomp where
  | strip
  | clip
  | keep
deriving DecidableEq

/-- The header of a block scalar behind its indicator: what to do at the end, and a stated indentation. -/
def readBlockHeader (c : Cursor) : Option (Chomp × Nat × Cursor) :=
  let chomp? : Char → Option Chomp := fun
    | '+' => some .keep
    | '-' => some .strip
    | _ => none
  let (chomp, width, c') : Chomp × Option Nat × Cursor :=
    match c.rest with
    | x :: y :: _ =>
      match chomp? x with
      | some k => if y.isDigit then (k, some (y.toNat - 48), c.skip 2) else (k, none, c.skip 1)
      | none =>
        if x.isDigit then
          match chomp? y with
          | some k => (k, some (x.toNat - 48), c.skip 2)
          | none => (.clip, some (x.toNat - 48), c.skip 1)
        else (.clip, none, c)
    | [x] =>
      match chomp? x with
      | some k => (k, none, c.skip 1)
      | none => if x.isDigit then (.clip, some (x.toNat - 48), c.skip 1) else (.clip, none, c)
    | [] => (.clip, none, c)
  if width = some 0 then none
  else
    let c' := c'.skipWhile isSpaceTab
    let c' := if c'.rest.head? = some '#' then c'.skipWhile (!isBreak ·) else c'
    if atLineEnd c'.rest then some (chomp, width.getD 0, c'.takeBreak.2) else none

/-- Passes indentation and empty lines. `indent` is 0 while the indentation of the block is not known. -/
def readBlockBreaks (indent : Nat) (deepest : Nat) (breaks : List Char) (c : Cursor) :
    Nat → Option (List Char × Nat × Cursor)
  | 0 => some (breaks, deepest, c)
  | fuel + 1 =>
    let spaces := c.rest.takeWhile (· = ' ')
    let n := if indent = 0 then spaces.length else min spaces.length (indent - c.column)
    let c := c.skip n
    let deepest := max deepest c.column
    match c.rest with
    | '\t' :: _ => if indent = 0 || c.column < indent then none else some (breaks, deepest, c)
    | x :: _ =>
      if isBreak x then
        let (b, c') := c.takeBreak
        readBlockBreaks indent deepest (breaks ++ b) c' fuel
      else some (breaks, deepest, c)
    | [] => some (breaks, deepest, c)

/-- The lines of a block scalar: the text so far, the break that ended the line before, and the empty lines after
it. -/
def readBlockLines (literal : Bool) (indent : Nat) (text leading trailing : List Char) (wasBlank : Bool) (c : Cursor) :
    Nat → Option (List Char × List Char × List Char × Cursor)
  | 0 => none
  | fuel + 1 =>
    if c.column != indent || c.rest.isEmpty then some (text, leading, trailing, c)
    else
      let blank := match c.rest with
        | x :: _ => isSpaceTab x
        | [] => false
      let joint :=
        if !literal && leading = ['\n'] && !wasBlank && !blank then
          (if trailing.isEmpty then [' '] else [])
        else leading
      let (body, c) := c.takeWhile (!isBreak ·)
      let (leading', c) := c.takeBreak
      match readBlockBreaks indent 0 [] c (c.rest.length + 1) with
      | none => none
      | some (trailing', _, c) =>
        readBlockLines literal indent (text ++ joint ++ trailing ++ body) leading' trailing' blank c fuel

/-- Reads a block scalar from behind its indicator. `parent` is the indentation of the collection around it. -/
def readBlock (literal : Bool) (parent : Int) (c : Cursor) : Option (List Char × Cursor) := do
  let (chomp, width, c) ← readBlockHeader c
  let stated : Nat := if width = 0 then 0 else if 0 ≤ parent then parent.toNat + width else width
  let (breaks, deepest, c) ← readBlockBreaks stated 0 [] c (c.rest.length + 1)
  let indent := if stated = 0 then max deepest (max (parent + 1).toNat 1) else stated
  let (text, leading, trailing, c) ← readBlockLines literal indent [] [] breaks false c (c.rest.length + 1)
  some (text ++ (if chomp = .strip then [] else leading) ++ (if chomp = .keep then trailing else []), c)

end Folio.Yaml
