import Folio.Entity
import Folio.Text.Case
import Folio.Text.Trim

/-!
# Escapes, character references and labels

In most places of a document a backslash takes the meaning away from a punctuation mark, and a character reference
stands for the characters that it names. Labels are compared without regard to case and the width of blanks.
-/

namespace Folio.Markdown

open Folio.Text

/-- The character of a numeric reference. Controls and code points that are no characters of text are replaced. -/
def numericChar (n : Nat) : Char :=
  if !n.isValidChar || n ≤ 8 || n = 11 || (14 ≤ n && n ≤ 31) || (127 ≤ n && n ≤ 159) ||
      (0xFDD0 ≤ n && n ≤ 0xFDEF) || n % 0x10000 = 0xFFFE || n % 0x10000 = 0xFFFF then '\uFFFD'
  else Char.ofNat n

/-- The text of a character reference behind its ampersand, and the number of characters it takes. A name has at
most 31 characters, a number at most 7 digits or 6 hexadecimal ones. -/
def reference? (s : List Char) : Option (List Char × Nat) :=
  let closed (body : List Char) (before limit : Nat) (text : Option (List Char)) : Option (List Char × Nat) :=
    match s.drop (before + body.length) with
    | ';' :: _ =>
      if body.isEmpty || limit < body.length then none
      else text.map fun t => (t, before + body.length + 1)
    | _ => none
  match s with
  | '#' :: 'x' :: r | '#' :: 'X' :: r =>
    let ds := r.takeWhile isHexDigit
    closed ds 2 6 (some [numericChar (Entity.number 16 ds)])
  | '#' :: r =>
    let ds := r.takeWhile Char.isDigit
    closed ds 1 7 (some [numericChar (Entity.number 10 ds)])
  | _ =>
    let name := s.takeWhile Char.isAlphanum
    closed name 0 31 (Entity.named? name)

/-- Replaces escapes and character references. -/
def unescape (s : List Char) : List Char :=
  match s with
  | [] => []
  | ['\\'] => ['\\']
  | '\\' :: d :: r => if isAsciiPunctuation d then d :: unescape r else '\\' :: unescape (d :: r)
  | '&' :: r =>
    match reference? r with
    | some (t, n) => t ++ unescape (r.drop n)
    | none => '&' :: unescape r
  | c :: r => c :: unescape r
termination_by s.length
decreasing_by all_goals (simp only [List.length_cons, List.length_drop]; omega)

def isBlankOrEol (c : Char) : Bool := c = ' ' || c = '\t' || c = '\n' || c = '\r'

/-- Drops the spaces and tabs around line endings. -/
def trimLines : List Char → List Char
  | [] => []
  | c :: s =>
    if c = '\n' || c = '\r' then c :: (trimLines s).dropWhile fun d => d = ' ' || d = '\t'
    else if c = ' ' || c = '\t' then
      match trimLines s with
      | d :: r => if d = '\n' || d = '\r' then d :: r else c :: d :: r
      | [] => [c]
    else c :: trimLines s

/-- The text of a title or a label. -/
def stringText (s : List Char) : String := String.ofList (unescape (trimLines s))

/-- A label in the form in which labels are compared. -/
def normalizeLabel (s : List Char) : List Char :=
  let words := splitOn ' ' (s.map fun c => if isBlankOrEol c then ' ' else c)
  upper (lower ([' '].intercalate (words.filter fun w => !w.isEmpty)))

/-- The identifier of a label. -/
def identifierOf (s : List Char) : String := String.ofList (lower (normalizeLabel s))

end Folio.Markdown
