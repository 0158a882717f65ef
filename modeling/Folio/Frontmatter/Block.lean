import Folio.Text.Trim

/-!
# Metadata blocks

A metadata block stands in front of the body of a post, between two lines `---`. A byte order mark and blank
lines may come before it. `Block.find` cuts it out and says where the body begins.
-/

namespace Folio

open Folio.Text

/-- A metadata block: the text between its fences and the text behind the closing fence. -/
structure Block where
  text : List Char
  body : List Char
deriving DecidableEq

namespace Block

/-- A line without its line feed, and what follows it. -/
def cutLine : List Char → List Char × List Char
  | [] => ([], [])
  | c :: s => if c = '\n' then ([], s) else (c :: (cutLine s).1, (cutLine s).2)

theorem cutLine_length_le (s : List Char) : (cutLine s).2.length ≤ s.length := by
  induction s with
  | nil => simp [cutLine]
  | cons c s ih => by_cases h : c = '\n' <;> simp [cutLine, h]; omega

theorem cutLine_length_lt {s : List Char} (h : s ≠ []) : (cutLine s).2.length < s.length := by
  cases s with
  | nil => exact absurd rfl h
  | cons c s =>
    have := cutLine_length_le s
    by_cases h : c = '\n' <;> simp [cutLine, h]; omega

/-- A fence: three dashes, and nothing behind them but carriage returns. -/
def isFence (line : List Char) : Bool := dropEndWhile (· = '\r') line = ['-', '-', '-']

def isBlankLine (line : List Char) : Bool := line.all isBlank

/-- Drops the lines in front that have only white space. -/
def dropBlankLines (s : List Char) : List Char :=
  if _h : s = [] then []
  else if isBlankLine (cutLine s).1 then dropBlankLines (cutLine s).2
  else s
termination_by s.length
decreasing_by exact cutLine_length_lt ‹_›

/-- The text in front of the first fence line with its line ends, and the text behind that line. -/
def untilFence (s : List Char) : Option (List Char × List Char) :=
  if _h : s = [] then none
  else if isFence (cutLine s).1 then some ([], (cutLine s).2)
  else (untilFence (cutLine s).2).map fun r => (s.take (s.length - (cutLine s).2.length) ++ r.1, r.2)
termination_by s.length
decreasing_by exact cutLine_length_lt ‹_›

/-- A text without the byte order mark at its start. -/
def dropMark : List Char → List Char
  | '\ufeff' :: s => s
  | s => s

/-- What a search for a metadata block can find. -/
inductive Search where
  | absent
  | unterminated
  | found (b : Block)
deriving DecidableEq

/-- Looks for a metadata block. The line ends in front of its closing fence are not part of its text. -/
def find (s : List Char) : Search :=
  let s := dropBlankLines (dropMark s)
  if s.isEmpty || !isFence (cutLine s).1 then .absent
  else
    match untilFence (cutLine s).2 with
    | none => .unterminated
    | some (text, body) => .found ⟨dropEndWhile (fun c => c = '\r' || c = '\n') text, body⟩

end Block

end Folio
