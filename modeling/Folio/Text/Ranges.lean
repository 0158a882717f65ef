/-!
# Ranges of code points

Character classes and case mappings of Unicode are given as data: a class is a list of inclusive ranges,
a mapping a list of runs that send an arithmetic progression of code points to another one with the same step.
-/

namespace Folio.Text

/-- Inclusive ranges of code points. -/
abbrev Ranges := List (Nat × Nat)

/-- Does some range hold the code point? -/
def Ranges.contains (rs : Ranges) (n : Nat) : Bool :=
  rs.any fun r => Nat.ble r.1 n && Nat.ble n r.2

theorem Ranges.contains_iff {rs : Ranges} {n : Nat} :
    rs.contains n = true ↔ ∃ r ∈ rs, r.1 ≤ n ∧ n ≤ r.2 := by
  simp [Ranges.contains, List.any_eq_true]

/-- The code points `first, first + step, …, last`, sent to `image, image + step, …`. -/
structure Run where
  first : Nat
  last : Nat
  step : Nat
  image : Nat
deriving Repr, DecidableEq

namespace Run

/-- Is the code point one of the run? -/
def covers (r : Run) (n : Nat) : Bool :=
  Nat.ble r.first n && Nat.ble n r.last && Nat.beq ((n - r.first) % r.step) 0

/-- The image of a code point of the run. -/
def apply (r : Run) (n : Nat) : Nat := r.image + (n - r.first)

end Run

/-- The image of a code point under the first run that covers it, and the code point itself if none does. -/
def mapRuns (rs : List Run) (n : Nat) : Nat :=
  match rs.find? (·.covers n) with
  | some r => r.apply n
  | none => n

end Folio.Text
