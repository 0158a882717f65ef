import Folio.Yaml.Scalar

/-!
# From YAML text to tokens

Block structure is read off the columns: `indents` holds the columns of the open block collections. A key without
an indicator is recognised late, at its colon, so each flow level remembers where a key could have started and the
tokens of the key are put there afterwards.
-/

namespace Folio.Yaml

/-- A place where a key may have started. A required key is one that stands at the indentation of its mapping. -/
structure KeyMark where
  required : Bool
  token : Nat
  line : Nat
  column : Nat
  index : Nat

/-- The state between two tokens. `tokens` is in reverse, `keys` has one entry per open flow collection and one
for the block level below them. -/
structure Lexer where
  cursor : Cursor
  tokens : List Token
  indent : Int
  indents : List Int
  keys : List (Option KeyMark)
  keyAllowed : Bool

namespace Lexer

def start (s : List Char) : Lexer :=
  { cursor := .start s, tokens := [], indent := -1, indents := [], keys := [none], keyAllowed := true }

/-- How many flow collections are open. -/
def flowLevel (l : Lexer) : Nat := l.keys.length - 1

def inFlow (l : Lexer) : Bool := l.flowLevel != 0

def push (l : Lexer) (t : Token) : Lexer := { l with tokens := t :: l.tokens }

/-- Puts a token in front of the one with the given number. -/
def insertAt (l : Lexer) (n : Nat) (t : Token) : Lexer :=
  { l with tokens := l.tokens.insertIdx (l.tokens.length - n) t }

/-- Opens a block collection at a column right of the current indentation. -/
def openBlock (l : Lexer) (column : Nat) (at? : Option Nat) (t : Token) : Lexer :=
  if !l.inFlow && l.indent < (column : Int) then
    let l := { l with indents := l.indent :: l.indents, indent := column }
    match at? with
    | some n => l.insertAt n t
    | none => l.push t
  else l

/-- Closes the block collections right of a column. -/
def closeBlocks (l : Lexer) (column : Int) : List Int → Lexer
  | [] => l
  | i :: is =>
    if column < l.indent then
      closeBlocks { l with tokens := .blockEnd :: l.tokens, indent := i, indents := is } column is
    else l

def unindent (l : Lexer) (column : Int) : Lexer :=
  if l.inFlow then l else l.closeBlocks column l.indents

/-- Forgets the place where a key could have started; a required key must not be forgotten. -/
def dropKey (l : Lexer) : Option Lexer :=
  match l.keys with
  | some k :: ks => if k.required then none else some { l with keys := none :: ks }
  | _ => some l

/-- Remembers that a key may start here. -/
def markKey (l : Lexer) : Option Lexer :=
  if l.keyAllowed then
    (l.dropKey).map fun l =>
      let k : KeyMark :=
        { required := !l.inFlow && l.indent == (l.cursor.column : Int)
          token := l.tokens.length, line := l.cursor.line, column := l.cursor.column, index := l.cursor.index }
      { l with keys := some k :: l.keys.tail }
  else some l

/-- A key stands on one line and has at most 1024 characters: forgets those that are out of reach. -/
def dropStaleKeys (l : Lexer) : Option Lexer :=
  let stale (k : KeyMark) : Bool := k.line < l.cursor.line || k.index + 1024 < l.cursor.index
  if l.keys.any (fun k => k.any fun k => stale k && k.required) then none
  else some { l with keys := l.keys.map fun k => k.filter fun k => !stale k }

/-- Passes blanks, comments and line breaks up to the next token. -/
def skipGap (l : Lexer) : Nat → Lexer
  | 0 => l
  | fuel + 1 =>
    let c := l.cursor.skipWhile fun x => x = ' ' || ((l.inFlow || !l.keyAllowed) && x = '\t')
    let c := if c.rest.head? = some '#' then c.skipWhile (!isBreak ·) else c
    match c.rest with
    | x :: _ =>
      if isBreak x then
        skipGap { l with cursor := c.takeBreak.2, keyAllowed := l.keyAllowed || !l.inFlow } fuel
      else { l with cursor := c }
    | [] => { l with cursor := c }

/-- Moves on by some characters of the line. -/
def skip (l : Lexer) (n : Nat) : Lexer := { l with cursor := l.cursor.skip n }

def isNameChar (c : Char) : Bool := c.isAlphanum || c = '_' || c = '-'

def isTagChar (c : Char) : Bool := isNameChar c || ";/?:@&=+$.!~*'()".toList.contains c

/-- An anchor or an alias behind its indicator. -/
def readName (l : Lexer) (make : List Char → Token) : Option Lexer := do
  let l ← l.markKey
  let (name, c) := (l.cursor.skip 1).takeWhile isNameChar
  let ended := match c.rest with
    | x :: _ => atGap c.rest || "?:,]\x7d%@\x60".toList.contains x
    | [] => true
  if name.isEmpty || !ended then none
  else some { l with cursor := c, tokens := make name :: l.tokens, keyAllowed := false }

/-- A tag: `!<target>`, `!suffix`, `!handle!suffix` or a lone `!`. -/
def readTag (l : Lexer) : Option Lexer := do
  let l ← l.markKey
  let c := l.cursor.skip 1
  let (handle, suffix, c) ←
    match c.rest with
    | '<' :: _ =>
      let (target, c) := (c.skip 1).takeWhile fun x => isTagChar x || ",[]%".toList.contains x
      match c.rest with
      | '>' :: _ => if target.isEmpty then none else some ([], target, c.skip 1)
      | _ => none
    | _ =>
      let (word, c') := c.takeWhile isNameChar
      match c'.rest with
      | '!' :: _ =>
        let (suffix, c') := (c'.skip 1).takeWhile isTagChar
        if suffix.isEmpty then none else some ('!' :: word ++ ['!'], suffix, c')
      | _ =>
        let (more, c') := c'.takeWhile isTagChar
        if (word ++ more).isEmpty then some ([], ['!'], c') else some (['!'], word ++ more, c')
  if atGap c.rest || (l.inFlow && c.rest.head? = some ',') then
    some { l with cursor := c, tokens := .tag handle suffix :: l.tokens, keyAllowed := false }
  else none

/-- The decimal number that digits write. -/
def decimal (ds : List Char) : Nat := ds.foldl (fun n d => n * 10 + (d.toNat - 48)) 0

/-- A directive line. -/
def readDirective (l : Lexer) : Option Lexer := do
  let l ← (l.unindent (-1)).dropKey
  let (name, c) := (l.cursor.skip 1).takeWhile isNameChar
  let c := c.skipWhile isSpaceTab
  let (t, c) ←
    if name = "YAML".toList then
      let (major, c) := c.takeWhile Char.isDigit
      match c.rest with
      | '.' :: _ =>
        let (minor, c) := (c.skip 1).takeWhile Char.isDigit
        if major.isEmpty || minor.isEmpty then none
        else some (Token.versionDirective (decimal major) (decimal minor), c)
      | _ => none
    else if name = "TAG".toList then
      let (handle, c) := c.takeWhile fun x => isNameChar x || x = '!'
      let c' := c.skipWhile isSpaceTab
      let (target, c'') := c'.takeWhile fun x => isTagChar x || ",[]%".toList.contains x
      if handle.isEmpty || target.isEmpty || c'.column = c.column || !atGap c''.rest then none
      else some (Token.tagDirective handle target, c'')
    else none
  let c := c.skipWhile isSpaceTab
  let c := if c.rest.head? = some '#' then c.skipWhile (!isBreak ·) else c
  if atLineEnd c.rest then
    some { l with cursor := c.takeBreak.2, tokens := t :: l.tokens, keyAllowed := false }
  else none

/-- The colon that ends a key: the key was remembered, or the key is empty. -/
def readColon (l : Lexer) : Option Lexer :=
  match l.keys with
  | some k :: ks =>
    let l := { l with keys := none :: ks, keyAllowed := false }
    let l := (l.insertAt k.token .key).openBlock k.column (some k.token) .blockMappingStart
    some ((l.push .value).skip 1)
  | _ =>
    if !l.inFlow && !l.keyAllowed then none
    else
      let l := l.openBlock l.cursor.column none .blockMappingStart
      some (({ l with keyAllowed := !l.inFlow }.push .value).skip 1)

/-- Opens a flow collection. -/
def openFlow (l : Lexer) (t : Token) : Option Lexer :=
  (l.markKey).map fun l => ({ l with keys := none :: l.keys, keyAllowed := true }.push t).skip 1

/-- Closes a flow collection. -/
def closeFlow (l : Lexer) (t : Token) : Option Lexer :=
  (l.dropKey).map fun l =>
    ({ l with keys := if l.inFlow then l.keys.tail else l.keys, keyAllowed := false }.push t).skip 1

/-- Can a plain scalar start here? -/
def startsPlain (flow : Bool) : List Char → Bool
  | [] => false
  | c :: r =>
    if c = '-' then !(r.head?.any isSpaceTab)
    else if c = '?' || c = ':' then !flow && !atGap r
    else !(isSpaceTab c || isBreak c || ",[]#&*!|>'\"%@\x7b\x7d\x60".toList.contains c)

/-- Reads one token that starts at the cursor. -/
def readToken (l : Lexer) : Option Lexer :=
  let next := l.cursor.rest.drop 1
  match l.cursor.rest with
  | [] => none
  | x :: _ =>
    if l.cursor.column = 0 && x = '%' then l.readDirective
    else if l.cursor.atDocumentMark then do
      let l ← (l.unindent (-1)).dropKey
      some (({ l with keyAllowed := false }.push (if x = '-' then .documentStart else .documentEnd)).skip 3)
    else if x = '[' then l.openFlow .flowSequenceStart
    else if x = '\x7b' then l.openFlow .flowMappingStart
    else if x = ']' then l.closeFlow .flowSequenceEnd
    else if x = '\x7d' then l.closeFlow .flowMappingEnd
    else if x = ',' then do
      let l ← l.dropKey
      some (({ l with keyAllowed := true }.push .flowEntry).skip 1)
    else if x = '-' && atGap next then
      if !l.inFlow && !l.keyAllowed then none
      else do
        let l ← (l.openBlock l.cursor.column none .blockSequenceStart).dropKey
        some (({ l with keyAllowed := true }.push .blockEntry).skip 1)
    else if x = '?' && (l.inFlow || atGap next) then
      if !l.inFlow && !l.keyAllowed then none
      else do
        let l ← (l.openBlock l.cursor.column none .blockMappingStart).dropKey
        some (({ l with keyAllowed := !l.inFlow }.push .key).skip 1)
    else if x = ':' && (l.inFlow || atGap next) then l.readColon
    else if x = '*' then l.readName .alias
    else if x = '&' then l.readName .anchor
    else if x = '!' then l.readTag
    else if (x = '|' || x = '>') && !l.inFlow then do
      let l ← l.dropKey
      let (text, c) ← readBlock (x = '|') l.indent (l.cursor.skip 1)
      some ({ l with cursor := c, keyAllowed := true }.push (.scalar text false))
    else if x = '\'' || x = '"' then do
      let l ← l.markKey
      let (text, c) ← readQuoted (x = '\'') [] (l.cursor.skip 1) (l.cursor.rest.length + 1)
      some ({ l with cursor := c, keyAllowed := false }.push (.scalar text false))
    else if startsPlain l.inFlow l.cursor.rest then do
      let l ← l.markKey
      let (text, ended, c) ← readPlain l.inFlow (l.indent + 1) [] ⟨[], []⟩ l.cursor (l.cursor.rest.length + 1)
      some ({ l with cursor := c, keyAllowed := ended }.push (.scalar text true))
    else none

/-- Reads all tokens. Every token takes at least one character, so the length of the text bounds their number. -/
def run (l : Lexer) : Nat → Option (List Token)
  | 0 => none
  | fuel + 1 => do
    let l := l.skipGap (l.cursor.rest.length + 1)
    let l ← l.dropStaleKeys
    if l.cursor.rest.isEmpty then
      let l ← (l.unindent (-1)).dropKey
      some (Token.streamEnd :: l.tokens).reverse
    else
      let l := l.unindent l.cursor.column
      (← l.readToken).run fuel

end Lexer

/-- The tokens of a text, if it has only characters that YAML admits and every token is well formed. -/
def tokens? (s : List Char) : Option (List Token) :=
  let s := match s with
    | '\ufeff' :: r => r
    | s => s
  if s.all isReadable then (Lexer.start s).run (s.length + 1) else none

end Folio.Yaml
