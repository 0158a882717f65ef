import Folio.CodeMeta

/-!
# Scanning a meta string by its bytes

The reader of meta strings one step at a time. A scan holds a place in the text that is counted in bytes: its loops go
past the character that they have looked at, and a fixed byte past a sign, a quote or a bracket. A look or a cut at a
place inside a character, or beyond the end, stops the scan without a result.
-/

namespace Folio

namespace Text

/-- A text in front of and behind a number of bytes, unless they end inside a character or beyond the end. -/
def splitAt? : List Char → Nat → Option (List Char × List Char)
  | s, 0 => some ([], s)
  | [], _ + 1 => none
  | c :: s, n + 1 =>
    if n + 1 < c.utf8Size then none
    else (splitAt? s (n + 1 - c.utf8Size)).map fun (front, rest) => (c :: front, rest)

/-- The character at a place of a text, if there is any. -/
def peek? (s : List Char) (n : Nat) : Option (Option Char) := (splitAt? s n).map (·.2.head?)

/-- What a text has between two places. -/
def slice? (s : List Char) (start stop : Nat) : Option (List Char) := do
  let (front, _) ← splitAt? s stop
  let (_, run) ← splitAt? front start
  pure run

end Text

open Text

namespace CodeMeta

/-- Where a scan is: the loop that runs, with the values that it holds. -/
inductive Phase where
  /-- At the head of the main loop. -/
  | turn
  | separators
  | key (start : Nat)
  /-- Behind a key, in search of a sign. -/
  | sign (key : String)
  /-- Behind a sign, in search of a value. -/
  | value (key : String)
  | quoted (key : String) (quote : Char) (text : List Char) (escaped : Bool)
  | bare (key : String) (start : Nat)
  /-- At a token that is no entry. -/
  | foreign
  | enclosed (start : Nat) (close : Char)
  /-- Behind what is enclosed, in search of a separator. -/
  | tail (start : Nat)
  | ended (error : Option MetaError)
deriving DecidableEq, Repr

/-- A turn of the main loop has begun and is not over. -/
def Phase.inTurn : Phase → Bool
  | .turn => false
  | .ended _ => false
  | _ => true

structure Scan where
  phase : Phase
  pos : Nat
  entries : List (String × Option String)
  log : List LogLine
deriving DecidableEq, Repr

namespace Scan

def start : Scan := ⟨.turn, 0, [], []⟩

def enter (st : Scan) (phase : Phase) : Scan := { st with phase := phase }

/-- Past the character that was looked at. -/
def past (st : Scan) (c : Char) : Scan := { st with pos := st.pos + c.utf8Size }

/-- Past a character that takes one byte. -/
def pastByte (st : Scan) : Scan := { st with pos := st.pos + 1 }

/-- An entry ends a turn. -/
def push (st : Scan) (key : String) (value : Option String) : Scan :=
  { st with phase := .turn, entries := st.entries ++ [(key, value)] }

/-- What is passed by ends a turn. -/
def note (st : Scan) (message : String) : Scan :=
  { st with phase := .turn, log := st.log ++ [⟨.debug, message⟩] }

/-- A malformed entry ends a turn, or the scan. -/
def reject (st : Scan) (e : MetaError) : Scan :=
  if e.key = strictKey then st.enter (.ended (some e)) else st.note ("skipping code meta entry: " ++ e.message)

/-- Behind separators. -/
def beginItem (s : List Char) (st : Scan) : Scan :=
  if byteSize s ≤ st.pos then st.enter (.ended none) else st.enter (.key st.pos)

/-- Behind the characters of a key, of which there may be none. -/
def takeKey? (s : List Char) (start : Nat) (st : Scan) : Option Scan :=
  if start < st.pos then (slice? s start st.pos).map fun key => st.enter (.sign (String.ofList key))
  else some (st.enter .foreign)

/-- Behind a key and white space. -/
def beginValue (key : String) (st : Scan) (next : Option Char) : Scan :=
  if next = some '=' ∨ next = some ':' then st.pastByte.enter (.value key) else st.push key none

/-- Behind a sign and white space. -/
def readValue (key : String) (st : Scan) : Option Char → Scan
  | none => st.reject (.missingValue key)
  | some c =>
    if c = '"' ∨ c = '\'' then st.pastByte.enter (.quoted key c [] false)
    else if c = ',' then st.reject (.missingValue key)
    else st.enter (.bare key st.pos)

def takeBare? (s : List Char) (key : String) (start : Nat) (st : Scan) : Option Scan :=
  (slice? s start st.pos).map fun value => st.push key (some (String.ofList value))

/-- A look inside quotes. -/
def readQuoted (key : String) (quote : Char) (text : List Char) (escaped : Bool) (st : Scan) : Option Char → Scan
  | none => st.reject (.unterminatedQuote key quote)
  | some c =>
    if escaped then (st.past c).enter (.quoted key quote (text ++ [c]) false)
    else if c = '\\' then (st.past c).enter (.quoted key quote text true)
    else if c = quote then (st.past c).push key (some (String.ofList text))
    else (st.past c).enter (.quoted key quote (text ++ [c]) false)

/-- A look at a token that is no entry. -/
def beginForeign (st : Scan) (next : Option Char) : Scan :=
  match next.bind closing? with
  | some close => st.pastByte.enter (.enclosed st.pos close)
  | none => st.enter (.tail st.pos)

/-- A look inside brackets or quotes of a token that is no entry. -/
def readEnclosed (start : Nat) (close : Char) (st : Scan) : Option Char → Scan
  | none => st.enter (.tail start)
  | some c => if c = close then (st.past c).enter (.tail start) else st.past c

def takeForeign? (s : List Char) (start : Nat) (st : Scan) : Option Scan :=
  (slice? s start st.pos).map fun token => st.note ("skipping code meta token `" ++ String.ofList token ++ "`")

/-- A look of a loop that passes by the characters of a class: past one of them, or out of the loop. -/
def pass (p : Char → Bool) (s : List Char) (st : Scan) (leave : Option Char → Option Scan) : Option Scan :=
  (peek? s st.pos).bind fun
    | none => leave none
    | some c => if p c then some (st.past c) else leave (some c)

/-- One step; a scan that has ended stays as it is. -/
def step (s : List Char) (st : Scan) : Option Scan :=
  match st.phase with
  | .turn => some (st.enter .separators)
  | .separators => st.pass isSeparator s fun _ => some (st.beginItem s)
  | .key start => st.pass isKeyChar s fun _ => st.takeKey? s start
  | .sign key => st.pass isBlank s fun next => some (st.beginValue key next)
  | .value key => st.pass isBlank s fun next => some (st.readValue key next)
  | .quoted key quote text escaped => (peek? s st.pos).map (st.readQuoted key quote text escaped)
  | .bare key start => st.pass (!isSeparator ·) s fun _ => st.takeBare? s key start
  | .foreign => (peek? s st.pos).map st.beginForeign
  | .enclosed start close => (peek? s st.pos).map (st.readEnclosed start close)
  | .tail start => st.pass (!isSeparator ·) s fun _ => st.takeForeign? s start
  | .ended _ => some st

def steps (s : List Char) : Nat → Scan → Option Scan
  | 0, st => some st
  | n + 1, st => (step s st).bind (steps s n)

/-- What a scan that has ended says about the text. -/
def outcome? (st : Scan) : Option (Logged (Except MetaError CodeMeta)) :=
  match st.phase with
  | .ended none => some ⟨.ok ⟨st.entries⟩, st.log⟩
  | .ended (some e) => some ⟨.error e, st.log⟩
  | _ => none

end Scan

/-- The text of a meta string that is scanned. -/
def body (input : String) : List Char := unbrace (trim input.toList)

/-- The state of the scan of a text after so many steps. -/
def after (s : List Char) (n : Nat) : Option Scan := Scan.start.steps s n

end CodeMeta

end Folio
