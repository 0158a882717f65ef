import Folio.Text.CaseRuns
import Folio.Text.CasingRanges

/-!
# Lower and upper case

A character maps to one or several characters. In a text, a capital sigma that ends a word becomes `ς`;
character by character it always becomes `σ`.
-/

namespace Folio.Text

/-- The lower case of a character taken alone. -/
def lowerChar (c : Char) : List Char :=
  if c.toNat < 128 then [c.toLower]
  else if c = 'İ' then ['i', '\u0307']
  else [Char.ofNat (mapRuns lowerRuns c.toNat)]

/-- The upper case of a character. -/
def upperChar (c : Char) : List Char :=
  if c.toNat < 128 then [c.toUpper]
  else
    match upperExpansions.lookup c.toNat with
    | some ns => ns.map Char.ofNat
    | none => [Char.ofNat (mapRuns upperRuns c.toNat)]

/-- Past the case-ignorable characters, does a cased one come first? -/
def casedFirst (s : List Char) : Bool :=
  match s.dropWhile fun c => caseIgnorableRanges.contains c.toNat with
  | [] => false
  | c :: _ => casedRanges.contains c.toNat

/-- Lower case of what is left of a text, given the part before it in reverse. -/
def lowerFrom (before : List Char) : List Char → List Char
  | [] => []
  | c :: cs =>
    if c = 'Σ' then
      (if casedFirst before && !casedFirst cs then 'ς' else 'σ') :: lowerFrom (c :: before) cs
    else lowerChar c ++ lowerFrom (c :: before) cs

/-- Lower case of a text. -/
def lower (s : List Char) : List Char := lowerFrom [] s

/-- Upper case of a text. -/
def upper (s : List Char) : List Char := s.flatMap upperChar

/-- Lower case of a string. -/
def lowerString (s : String) : String := String.ofList (lower s.toList)

end Folio.Text
