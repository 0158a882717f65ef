/-!
# Dates

Days of the proleptic Gregorian calendar, with a year 0 and years before it, and how they are written.
-/

namespace Folio

namespace Calendar

/-- Leap years: every fourth, but of the full centuries only every fourth. -/
def isLeap (year : Int) : Bool := year % 4 == 0 && (year % 100 != 0 || year % 400 == 0)

/-- The length of a month, 0 if there is no such month. -/
def daysIn (year : Int) (month : Nat) : Nat :=
  match month with
  | 1 | 3 | 5 | 7 | 8 | 10 | 12 => 31
  | 4 | 6 | 9 | 11 => 30
  | 2 => if isLeap year then 29 else 28
  | _ => 0

/-- The first and the last year with dates. -/
def minYear : Int := -262143
def maxYear : Int := 262142

/-- Is there such a day? -/
def isDay (year : Int) (month day : Nat) : Bool :=
  minYear ≤ year && year ≤ maxYear && 1 ≤ day && day ≤ daysIn year month

end Calendar

/-- A day of the calendar. -/
structure Date where
  year : Int
  month : Nat
  day : Nat
  exists_day : Calendar.isDay year month day = true
deriving DecidableEq

namespace Date

/-- The day, if there is one. -/
def of? (year : Int) (month day : Nat) : Option Date :=
  if h : Calendar.isDay year month day then some ⟨year, month, day, h⟩ else none

/-- A number with zeros in front up to a width. -/
def padded (width n : Nat) : List Char :=
  let ds := Nat.toDigits 10 n
  List.replicate (width - ds.length) '0' ++ ds

/-- Years from 0 to 9999 have four digits; others have a sign and at least four digits. -/
def yearText (year : Int) : List Char :=
  if 0 ≤ year ∧ year ≤ 9999 then padded 4 year.toNat
  else (if year < 0 then '-' else '+') :: padded 4 year.natAbs

/-- `YYYY-MM-DD`. -/
def text (d : Date) : String :=
  String.ofList (yearText d.year ++ '-' :: padded 2 d.month ++ '-' :: padded 2 d.day)

theorem of?_eq_some_iff {year : Int} {month day : Nat} {d : Date} :
    of? year month day = some d ↔ d.year = year ∧ d.month = month ∧ d.day = day := by
  unfold of?
  split
  · constructor
    · rintro h; cases h; exact ⟨rfl, rfl, rfl⟩
    · rintro ⟨rfl, rfl, rfl⟩; rfl
  · rename_i hno
    simp only [reduceCtorEq, false_iff, not_and]
    rintro rfl rfl rfl
    exact hno d.exists_day

end Date

end Folio
