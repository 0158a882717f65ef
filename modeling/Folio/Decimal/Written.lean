import Folio.Decimal.Shortest

/-!
# Written forms of numbers

A number is written with the fewest digits that read back: in a message always positionally, in a document with
an exponent where the positional form would be long.
-/

namespace Folio.Decimal

/-- The sign bit. -/
def isNegative (x : Float) : Bool := x.toBits.toNat.testBit 63

/-- The digits of a decimal and the position of the point in them: `digits = [1, 2]`, `point = 1` is 1.2. -/
def parts (d : Decimal) : List Char × Int :=
  let ds := Nat.toDigits 10 d.digits
  (ds, ds.length + d.exponent)

/-- The digits around a point, with zeros where there are none; a whole number has no point. -/
def positional (ds : List Char) (point : Int) : List Char :=
  if point ≤ 0 then '0' :: '.' :: (List.replicate (-point).toNat '0' ++ ds)
  else if ds.length ≤ point.toNat then ds ++ List.replicate (point.toNat - ds.length) '0'
  else ds.take point.toNat ++ '.' :: ds.drop point.toNat

/-- A number in a message: no exponent, and no fraction for a whole number. -/
def plain (x : Float) : String :=
  if x.isNaN then "NaN"
  else
    let body :=
      if x.isInf then ['i', 'n', 'f']
      else if x == 0 then ['0']
      else
        let (ds, point) := (shortest x).parts
        positional ds point
    String.ofList (if isNegative x then '-' :: body else body)

/-- A number in a message, told apart from an integer by a fraction. -/
def withPoint (x : Float) : String :=
  let s := plain x
  if x.isFinite && !s.toList.contains '.' then s ++ ".0" else s

/-- A finite number in a document: positional from 1e-5 up to below 1e16, and with a fraction even if whole. -/
def written (x : Float) : String :=
  if x == 0 then (if isNegative x then "-0.0" else "0.0")
  else
    let (ds, point) := (shortest x).parts
    let sign := if isNegative x then ['-'] else []
    let body :=
      if -5 < point && point ≤ 16 then
        let s := positional ds point
        if s.contains '.' then s else s ++ ['.', '0']
      else
        let mantissa := match ds with
          | d :: r@(_ :: _) => d :: '.' :: r
          | ds => ds
        mantissa ++ 'e' :: (toString (point - 1)).toList
    String.ofList (sign ++ body)

end Folio.Decimal
