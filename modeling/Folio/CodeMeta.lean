import Folio.Text.Trim
import Folio.Log

/-!
# Meta strings of code blocks

What follows the language of a fenced code block: entries `key=value`, `key: value` and bare flags between white
space and commas, possibly all in braces, and tokens that other tools read, which are passed by. Only a malformed
`file` entry is an error.
-/

namespace Folio

open Folio.Text

/-- Why an entry has no value. -/
inductive MetaError where
  | unterminatedQuote (key : String) (quote : Char)
  | missingValue (key : String)
deriving DecidableEq, Repr

namespace MetaError

def key : MetaError → String
  | .unterminatedQuote k _ => k
  | .missingValue k => k

def message : MetaError → String
  | .unterminatedQuote k q => "unterminated " ++ String.singleton q ++ " quote in value of `" ++ k ++ "`"
  | .missingValue k => "missing value for `" ++ k ++ "`"

end MetaError

/-- The entries of a meta string in order; a flag has no value. -/
structure CodeMeta where
  entries : List (String × Option String)
deriving DecidableEq, Repr

namespace CodeMeta

/-- A piece of a meta string. -/
inductive Item where
  | entry (key : String) (value : Option String)
  | foreign (token : String)
  | malformed (error : MetaError)
deriving DecidableEq, Repr

def isSeparator (c : Char) : Bool := isBlank c || c = ','

def isKeyChar (c : Char) : Bool := isLetter c || c = '-' || c = '_' || c = '.'

/-- The character that closes what a character opens. -/
def closing? : Char → Option Char
  | '"' => some '"'
  | '\'' => some '\''
  | '/' => some '/'
  | '\x7b' => some '\x7d'
  | '[' => some ']'
  | '(' => some ')'
  | _ => none

/-- What stands up to and with the first occurrence of a character, or all of it. -/
def upTo (close : Char) : List Char → List Char
  | [] => []
  | c :: s => if c = close then [c] else c :: upTo close s

/-- The length of a token that is no entry: a bracketed or quoted run, then everything up to a separator. -/
def foreignLength (s : List Char) : Nat :=
  let run :=
    match s with
    | [] => 0
    | c :: r =>
      match closing? c with
      | some d => (upTo d r).length + 1
      | none => 0
  run + ((s.drop run).takeWhile (!isSeparator ·)).length

/-- Reads a quoted value behind its quote: a backslash takes the next character as it is. -/
def readQuoted (quote : Char) (acc : List Char) : List Char → Option (List Char × List Char)
  | [] => none
  | c :: s =>
    if c = '\\' then
      match s with
      | [] => none
      | d :: s => readQuoted quote (d :: acc) s
    else if c = quote then some (acc.reverse, s)
    else readQuoted quote (c :: acc) s

/-- Reads the value of a key behind its sign. -/
def readValue (key : String) (s : List Char) : Item × List Char :=
  match s with
  | [] => (.malformed (.missingValue key), [])
  | c :: r =>
    if c = '"' || c = '\'' then
      match readQuoted c [] r with
      | some (v, rest) => (.entry key (some (String.ofList v)), rest)
      | none => (.malformed (.unterminatedQuote key c), [])
    else if c = ',' then (.malformed (.missingValue key), s)
    else (.entry key (some (String.ofList (s.takeWhile (!isSeparator ·)))), s.dropWhile (!isSeparator ·))

/-- Reads one piece where no separator stands. -/
def readItem (s : List Char) : Item × List Char :=
  let key := s.takeWhile isKeyChar
  if key.isEmpty then
    let n := max (foreignLength s) 1
    (.foreign (String.ofList (s.take n)), s.drop n)
  else
    let name := String.ofList key
    let rest := s.dropWhile isKeyChar
    match rest.dropWhile isBlank with
    | c :: r =>
      if c = '=' || c = ':' then readValue name (r.dropWhile isBlank)
      else (.entry name none, c :: r)
    | [] => (.entry name none, [])

theorem readQuoted_length {q : Char} {acc s v rest : List Char} (h : readQuoted q acc s = some (v, rest)) :
    rest.length < s.length := by
  fun_induction readQuoted q acc s with
  | case1 => cases h
  | case2 => cases h
  | case3 acc d s ih =>
    have := ih h
    simp only [List.length_cons]
    omega
  | case4 acc s =>
    simp only [Option.some.injEq, Prod.mk.injEq] at h
    simp [h.2]
  | case5 acc c s _ _ ih =>
    have := ih h
    simp only [List.length_cons]
    omega

theorem readValue_length (key : String) (s : List Char) : (readValue key s).2.length ≤ s.length := by
  unfold readValue
  split
  · simp
  · rename_i c r
    split
    · split
      · rename_i h
        have := readQuoted_length h
        simp only [List.length_cons]
        omega
      · simp
    · split
      · simp
      · exact (List.dropWhile_sublist _).length_le

/-- Every piece takes at least one character. -/
theorem readItem_length {s : List Char} (h : s ≠ []) : (readItem s).2.length < s.length := by
  have hpos : 0 < s.length := List.length_pos_iff.mpr h
  unfold readItem
  simp only
  split
  · simp only [List.length_drop]
    omega
  · rename_i hk
    have hk' : 0 < (s.takeWhile isKeyChar).length := by
      rw [List.length_pos_iff]
      simpa [List.isEmpty_iff] using hk
    have hsum := Text.length_takeWhile_add_length_dropWhile isKeyChar s
    have hsub := (List.dropWhile_sublist isBlank (l := s.dropWhile isKeyChar)).length_le
    split
    · rename_i c r hr
      rw [hr, List.length_cons] at hsub
      split
      · have h1 := readValue_length (String.ofList (s.takeWhile isKeyChar)) (r.dropWhile isBlank)
        have h2 := (List.dropWhile_sublist isBlank (l := r)).length_le
        omega
      · simp only [List.length_cons]
        omega
    · simpa using hpos

/-- The pieces of a meta string. -/
def items (s : List Char) : List Item :=
  let t := s.dropWhile isSeparator
  if _h : t = [] then []
  else (readItem t).1 :: items (readItem t).2
termination_by s.length
decreasing_by
  have h1 := readItem_length ‹_›
  have h2 := (List.dropWhile_sublist isSeparator (l := s)).length_le
  exact Nat.lt_of_lt_of_le h1 h2

/-- The text inside the braces, if the whole string stands in braces. -/
def unbrace (s : List Char) : List Char :=
  match s with
  | '\x7b' :: r =>
    match r.reverse with
    | '\x7d' :: inner => inner.reverse
    | _ => s
  | _ => s

/-- The key whose entries must be well formed. -/
def strictKey : String := "file"

/-- Collects the entries among the pieces, and stops at a malformed entry of the strict key. -/
def collect : List Item → Logged (Except MetaError (List (String × Option String)))
  | [] => pure (.ok [])
  | .entry k v :: is => do
    let r ← collect is
    pure (r.map ((k, v) :: ·))
  | .foreign t :: is => do
    Logged.debug ("skipping code meta token `" ++ t ++ "`")
    collect is
  | .malformed e :: is =>
    if e.key = strictKey then pure (.error e)
    else do
      Logged.debug ("skipping code meta entry: " ++ e.message)
      collect is

/-- Reads a meta string. -/
def parse (input : String) : Logged (Except MetaError CodeMeta) := do
  let r ← collect (items (unbrace (trim input.toList)))
  pure (r.map CodeMeta.mk)

/-- The value of the last entry of a key. -/
def get? (m : CodeMeta) (key : String) : Option String :=
  (m.entries.reverse.lookup key).join

def contains (m : CodeMeta) (key : String) : Bool := m.entries.any fun e => e.1 == key

/-- The file that the block includes. -/
def file? (m : CodeMeta) : Option String := (m.get? strictKey).filter fun s => !s.isEmpty

end CodeMeta

end Folio
