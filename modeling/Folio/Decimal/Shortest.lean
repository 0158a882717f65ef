/-!
# The fewest digits that read back

A finite binary number `m · 2^q` stands for every real that rounds to it. `shortest` gives a decimal with the
fewest digits inside that interval and, among those, the one nearest to the number.
-/

namespace Folio

/-- `digits · 10^exponent`. -/
structure Decimal where
  digits : Nat
  exponent : Int
deriving Repr, DecidableEq

namespace Decimal

/-- A positive binary number and the interval around it, over one common denominator: the reals from
`low / unit` to `high / unit` round to `value / unit`, the ends included if `closed`. -/
structure Interval where
  low : Nat
  value : Nat
  high : Nat
  unit : Nat
  closed : Bool

namespace Interval

/-- The interval of `m · 2^q`. Below a power of two (`narrow`) the neighbours lie twice as close. -/
def ofBinary (m : Nat) (q : Int) (narrow : Bool) : Interval :=
  let up := Nat.pow 2 q.toNat
  let unit := 4 * Nat.pow 2 (-q).toNat
  { low := (if narrow then 4 * m - 1 else 4 * m - 2) * up
    value := 4 * m * up
    high := (4 * m + 2) * up
    unit
    closed := m % 2 == 0 }

/-- Does `n / d` lie in the interval? -/
def holds (i : Interval) (n d : Nat) : Bool :=
  let a := n * i.unit
  if i.closed then i.low * d ≤ a && a ≤ i.high * d else i.low * d < a && a < i.high * d

/-- The number of digits before the point if positive, and minus the zeros after it otherwise: the least `k`
with `value / unit < 10^k`, searched downwards from `start` by at most `fuel` steps. -/
def magnitude (i : Interval) (start : Int) : Nat → Int
  | 0 => start
  | fuel + 1 =>
    let k := start - 1
    if i.value * Nat.pow 10 (-k).toNat < i.unit * Nat.pow 10 k.toNat then i.magnitude k fuel else start

/-- The grid point at or next above the number among the multiples of `10^e`, if it lies in the interval. -/
def onGrid? (i : Interval) (e : Int) : Option Decimal :=
  let up := Nat.pow 10 e.toNat
  let down := Nat.pow 10 (-e).toNat
  let below := i.value * down / (i.unit * up)
  let rest := i.value * down % (i.unit * up)
  let lowOk := 0 < below && i.holds (below * up) down
  let highOk := i.holds ((below + 1) * up) down
  if lowOk && (!highOk || 2 * rest < i.unit * up || 2 * rest == i.unit * up && below % 2 == 0) then
    some ⟨below, e⟩
  else if highOk then some ⟨below + 1, e⟩
  else none

/-- The first hit on the grids of 1, 2, …, 17 digits. -/
def search (i : Interval) (k : Int) : Nat → Decimal
  | 0 => ⟨i.value * Nat.pow 10 (17 - k).toNat / (i.unit * Nat.pow 10 (k - 17).toNat), k - 17⟩
  | n + 1 =>
    match i.onGrid? (k - (17 - n)) with
    | some d => d
    | none => i.search k n

end Interval

/-- Drops the zeros at the end of the digits. -/
def reduce (d : Decimal) : Nat → Decimal
  | 0 => d
  | fuel + 1 => if d.digits % 10 == 0 && d.digits != 0 then reduce ⟨d.digits / 10, d.exponent + 1⟩ fuel else d

/-- The shortest decimal of a finite positive number. -/
def shortest (x : Float) : Decimal :=
  let bits := x.toBits.toNat
  let fraction := bits % Nat.pow 2 52
  let biased := bits / Nat.pow 2 52 % Nat.pow 2 11
  let m := if biased == 0 then fraction else fraction + Nat.pow 2 52
  let q : Int := (if biased == 0 then 1 else biased : Nat) - 1075
  if m == 0 then ⟨0, 0⟩
  else
    let i := Interval.ofBinary m q (fraction == 0 && 1 < biased)
    (i.search (i.magnitude 310 640) 17).reduce 20

end Decimal

end Folio
