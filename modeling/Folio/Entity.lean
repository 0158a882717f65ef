import Folio.Entity.Capitals
import Folio.Entity.SmallToL
import Folio.Entity.SmallToZ
import Folio.Text.Letter

/-!
# Character references

`&name;`, `&#digits;` and `&#xhex;` in HTML text. `Entity.decode` replaces those that are complete and stand
for a character that text may hold, in one pass, and leaves everything else as it is.
-/

namespace Folio.Entity

open Folio.Text

/-- The names that start with a letter. -/
def namesFrom : Char → List (String × List Nat)
  | 'A' => namesUpperA
  | 'B' => namesUpperB
  | 'C' => namesUpperC
  | 'D' => namesUpperD
  | 'E' => namesUpperE
  | 'F' => namesUpperF
  | 'G' => namesUpperG
  | 'H' => namesUpperH
  | 'I' => namesUpperI
  | 'J' => namesUpperJ
  | 'K' => namesUpperK
  | 'L' => namesUpperL
  | 'M' => namesUpperM
  | 'N' => namesUpperN
  | 'O' => namesUpperO
  | 'P' => namesUpperP
  | 'Q' => namesUpperQ
  | 'R' => namesUpperR
  | 'S' => namesUpperS
  | 'T' => namesUpperT
  | 'U' => namesUpperU
  | 'V' => namesUpperV
  | 'W' => namesUpperW
  | 'X' => namesUpperX
  | 'Y' => namesUpperY
  | 'Z' => namesUpperZ
  | 'a' => namesLowerA
  | 'b' => namesLowerB
  | 'c' => namesLowerC
  | 'd' => namesLowerD
  | 'e' => namesLowerE
  | 'f' => namesLowerF
  | 'g' => namesLowerG
  | 'h' => namesLowerH
  | 'i' => namesLowerI
  | 'j' => namesLowerJ
  | 'k' => namesLowerK
  | 'l' => namesLowerL
  | 'm' => namesLowerM
  | 'n' => namesLowerN
  | 'o' => namesLowerO
  | 'p' => namesLowerP
  | 'q' => namesLowerQ
  | 'r' => namesLowerR
  | 's' => namesLowerS
  | 't' => namesLowerT
  | 'u' => namesLowerU
  | 'v' => namesLowerV
  | 'w' => namesLowerW
  | 'x' => namesLowerX
  | 'y' => namesLowerY
  | 'z' => namesLowerZ
  | _ => []

/-- The characters that a name stands for. -/
def named? (name : List Char) : Option (List Char) :=
  match name with
  | [] => none
  | c :: _ => ((namesFrom c).lookup (String.ofList name)).map (·.map Char.ofNat)

/-- The number that digits of a base write. -/
def number (base : Nat) (digits : List Char) : Nat :=
  digits.foldl (fun n c => n * base + hexValue c) 0

/-- The code points that a numeric reference may name: no surrogate, nothing past the last code point, no NUL
and no control character of C0 other than tab, line feed, form feed and carriage return. -/
def isTextCodePoint (n : Nat) : Bool :=
  n.isValidChar && (32 ≤ n || n == 9 || n == 10 || n == 12 || n == 13)

/-- The characters that what stands between `&` and `;` means, if it means any. -/
def meaning? (body : List Char) : Option (List Char) :=
  match body with
  | '#' :: 'x' :: ds | '#' :: 'X' :: ds =>
    if !ds.isEmpty && ds.all isHexDigit && isTextCodePoint (number 16 ds) then
      some [Char.ofNat (number 16 ds)]
    else none
  | '#' :: ds =>
    if !ds.isEmpty && ds.all Char.isDigit && isTextCodePoint (number 10 ds) then
      some [Char.ofNat (number 10 ds)]
    else none
  | _ => named? body

/-- The characters that may stand between `&` and `;`. -/
def isBody (c : Char) : Bool := c.isAlphanum || c = '#'

/-- Splits `body;rest` after an ampersand, if the body has only characters of a reference. -/
def splitBody? (s : List Char) : Option (List Char × List Char) :=
  match s.dropWhile isBody with
  | ';' :: rest => some (s.takeWhile isBody, rest)
  | _ => none

theorem splitBody?_length {s body rest : List Char} (h : splitBody? s = some (body, rest)) :
    rest.length < s.length := by
  unfold splitBody? at h
  split at h
  · rename_i r hs
    simp only [Option.some.injEq, Prod.mk.injEq] at h
    obtain ⟨-, rfl⟩ := h
    have hd := congrArg List.length hs
    have := (List.dropWhile_sublist isBody (l := s)).length_le
    simp only [List.length_cons] at hd
    omega
  · cases h

/-- Replaces every character reference once; the replacement is not read again. -/
def decode : List Char → List Char
  | [] => []
  | c :: cs =>
    if c = '&' then
      match _h : splitBody? cs with
      | some (body, rest) =>
        match meaning? body with
        | some cs' => cs' ++ decode rest
        | none => c :: decode cs
      | none => c :: decode cs
    else c :: decode cs
termination_by s => s.length
decreasing_by
  all_goals simp_wf
  have := splitBody?_length _h
  omega

end Folio.Entity
