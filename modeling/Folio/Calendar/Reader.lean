import Folio.Calendar
import Folio.Text.Trim

/-!
# Reading dates

A date stands alone, as year, month and day with dashes between them, or at the start of a timestamp with a time
and an offset from UTC. Of a timestamp the date is kept as it is written, in the time zone of the offset.
-/

namespace Folio.Date

open Folio.Text

/-- Why a timestamp is refused. -/
inductive ReadError where
  | tooShort
  | invalid
  | outOfRange
  | trailing
deriving DecidableEq, Repr

def ReadError.message : ReadError → String
  | .tooShort => "premature end of input"
  | .invalid => "input contains invalid characters"
  | .outOfRange => "input is out of range"
  | .trailing => "trailing input"

/-- The number that decimal digits write. -/
def number (ds : List Char) : Nat := ds.foldl (fun n d => n * 10 + (d.toNat - 48)) 0

/-- Reads at least one and at most `width` digits after white space. -/
def readNumber (width : Nat) (s : List Char) : Option (Nat × List Char) :=
  let s := trimStart s
  let ds := (s.take width).takeWhile Char.isDigit
  if ds.isEmpty then none else some (number ds, s.drop ds.length)

/-- Reads a year: at most four digits, or a sign and any number of digits. -/
def readYear (s : List Char) : Option (Int × List Char) :=
  match trimStart s with
  | '-' :: r =>
    let ds := r.takeWhile Char.isDigit
    if ds.isEmpty then none else some (-(number ds : Int), r.drop ds.length)
  | '+' :: r =>
    let ds := r.takeWhile Char.isDigit
    if ds.isEmpty then none else some (number ds, r.drop ds.length)
  | s => (readNumber 4 s).map fun (n, r) => (n, r)

/-- A date alone, year first. -/
def readDay? (s : List Char) : Option Date := do
  let (year, s) ← readYear s
  let s ← stripFront? ['-'] s
  let (month, s) ← readNumber 2 s
  let s ← stripFront? ['-'] s
  let (day, s) ← readNumber 2 s
  if s.isEmpty then of? year month day else none

/-- Exactly so many digits, then the rest. -/
def readDigits (n : Nat) (s : List Char) : Except ReadError (Nat × List Char) :=
  let ds := s.take n
  if ds.length = n && ds.all Char.isDigit then .ok (number ds, s.drop n) else .error .invalid

/-- One given character, then the rest. -/
def readChar (p : Char → Bool) : List Char → Except ReadError (List Char)
  | [] => .error .invalid
  | c :: s => if p c then .ok s else .error .invalid

/-- Two digits of an offset, the first of them up to a limit. -/
def readOffsetPart (limit : Char) (s : List Char) : Except ReadError (Nat × List Char) :=
  if byteSize s < 2 then .error .tooShort
  else
    match s with
    | a :: b :: r =>
      if a.isDigit && b.isDigit then
        if a ≤ limit then .ok (number [a, b], r) else .error .outOfRange
      else .error .invalid
    | _ => .error .invalid

/-- The offset from UTC in minutes, and the rest. -/
def readOffset (s : List Char) : Except ReadError (Nat × List Char) :=
  match s with
  | [] => .error .tooShort
  | c :: r =>
    if c = 'Z' || c = 'z' then .ok (0, r)
    else if c = '+' || c = '-' || c = '−' then do
      let (hours, r) ← readOffsetPart '9' r
      let r ←
        match r with
        | [] => .error .tooShort
        | ':' :: r => .ok r
        | _ => .error .invalid
      let (minutes, r) ← readOffsetPart '5' r
      .ok (hours * 60 + minutes, r)
    else .error .invalid

/-- A fraction of a second, if a point starts one. -/
def skipFraction (s : List Char) : Except ReadError (List Char) :=
  match s with
  | '.' :: [] => .error .tooShort
  | '.' :: r =>
    let rest := r.dropWhile Char.isDigit
    if rest.length = r.length then .error .invalid else .ok rest
  | s => .ok s

/-- The date of a timestamp. -/
def readTimestamp (s : List Char) : Except ReadError Date := do
  if byteSize s < 19 then .error .tooShort
  let (year, s) ← readDigits 4 s
  let s ← readChar (· = '-') s
  let (month, s) ← readDigits 2 s
  let s ← readChar (· = '-') s
  let (day, s) ← readDigits 2 s
  match of? year month day with
  | none => .error .outOfRange
  | some date =>
    let s ← readChar (fun c => c = 'T' || c = 't' || c = ' ') s
    let (hour, s) ← readDigits 2 s
    let s ← readChar (· = ':') s
    let (minute, s) ← readDigits 2 s
    let s ← readChar (· = ':') s
    let (second, s) ← readDigits 2 s
    let s ← skipFraction s
    if 23 < hour || 59 < minute || 60 < second then .error .outOfRange
    let (offset, s) ← readOffset s
    if !s.isEmpty then .error .trailing
    else if 24 * 60 ≤ offset then .error .outOfRange
    else .ok date

/-- A date alone or at the start of a timestamp. If it is neither, the reason is that of the timestamp. -/
def read (s : List Char) : Except ReadError Date :=
  match readDay? s with
  | some d => .ok d
  | none => readTimestamp s

end Folio.Date
