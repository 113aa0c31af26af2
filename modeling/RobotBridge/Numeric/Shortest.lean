import RobotBridge.Numeric.Binary

/-! The shortest decimal that reads back as a given binary number.
It lies on the coarsest decimal grid with a point in the rounding interval, and is the nearest there. -/
namespace RobotBridge.Numeric

/-- The decimal `digits · 10 ^ exponent`. -/
structure Decimal where
  digits : Nat
  exponent : Int
deriving DecidableEq, Repr

inductive Tie where
  | even
  | up
deriving DecidableEq, Repr

/-- A number `value / den` between the ends of its rounding interval, all over one denominator. -/
structure Interval where
  low : Nat
  value : Nat
  high : Nat
  den : Nat
  /-- The ends round to the number as well. -/
  closed : Bool
deriving DecidableEq, Repr

namespace Interval

def holds (i : Interval) (k : Int) (t : Nat) : Bool :=
  let point := t * i.den * Nat.pow 10 k.toNat
  let scale := Nat.pow 10 (-k).toNat
  if i.closed then i.low * scale ≤ point ∧ point ≤ i.high * scale
  else i.low * scale < point ∧ point < i.high * scale

/-- The multiple of `10 ^ k` in the interval that is nearest to the number, if there is one. -/
def nearest? (i : Interval) (tie : Tie) (k : Int) : Option Nat :=
  let unit := i.den * Nat.pow 10 k.toNat
  let value := i.value * Nat.pow 10 (-k).toNat
  let below := value / unit
  let twice := 2 * (value % unit)
  let preferAbove := unit < twice || twice == unit && (tie == .up || below % 2 == 1)
  match i.holds k below, i.holds k (below + 1) with
  | false, false => none
  | true, false => some below
  | false, true => some (below + 1)
  | true, true => some (if preferAbove then below + 1 else below)

/-- Tries the grids `10 ^ k`, `10 ^ (k - 1)`, …, at most `grids` of them. -/
def coarsest (i : Interval) (tie : Tie) : Nat → Int → Decimal
  | 0, k => ⟨i.value * Nat.pow 10 (-k).toNat / (i.den * Nat.pow 10 k.toNat), k⟩
  | grids + 1, k =>
    match i.nearest? tie k with
    | some digits => ⟨digits, k⟩
    | none => coarsest i tie grids (k - 1)

end Interval

namespace Binary

variable {f : Format}

/-- The reals that round to a finite positive number, in quarters of its last place.
Below a power of two the grid is twice as fine, unless the finest grid has been reached. -/
def interval (x : Binary f) : Interval :=
  let m := x.significand
  let narrow := x.magnitude % Nat.pow 2 f.fractionBits == 0 && 2 * Nat.pow 2 f.fractionBits ≤ x.magnitude
  let up := Nat.pow 2 (x.exponent - 2).toNat
  ⟨(4 * m - (if narrow then 1 else 2)) * up, 4 * m * up, (4 * m + 2) * up, Nat.pow 2 (2 - x.exponent).toNat,
    m % 2 == 0⟩

/-- A power of ten above the number, at most two decades away. -/
def decade (x : Binary f) : Int :=
  (x.exponent + x.significand.log2) * 30103 / 100000 + 2

/-- The absolute value of a finite number with as few digits as read back. -/
def shortest (tie : Tie) (x : Binary f) : Decimal :=
  if x.isZero then ⟨0, 0⟩
  else x.interval.coarsest tie (f.fractionBits + 2) x.decade

end Binary

end RobotBridge.Numeric
