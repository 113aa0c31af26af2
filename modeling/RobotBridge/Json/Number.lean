import RobotBridge.Json.Basic

/-! Numbers in documents. Digits fill a 64-bit significand, later digits only shift the exponent,
and the power of ten is applied to the double of the significand, so the last bit may be off. -/
namespace RobotBridge.Json

open Numeric

/-- Digits read so far: the significand, the power of ten that scales it, and whether it is full. -/
structure Digits where
  significand : Nat
  exponent : Int
  full : Bool
deriving DecidableEq, Repr

namespace Digits

def valueOf (c : Char) : Nat := c.toNat - '0'.toNat

/-- A digit before the point: one that does not fit in 64 bits scales the number by ten. -/
def pushInteger (d : Digits) (c : Char) : Digits :=
  let next := d.significand * 10 + valueOf c
  if d.full || UInt64.size ≤ next then ⟨d.significand, d.exponent + 1, true⟩
  else ⟨next, d.exponent, false⟩

/-- A digit after the point: one that does not fit in 64 bits is ignored, as are all after it. -/
def pushFraction (d : Digits) (c : Char) : Digits :=
  let next := d.significand * 10 + valueOf c
  if d.full || UInt64.size ≤ next then { d with full := true }
  else ⟨next, d.exponent - 1, false⟩

end Digits

/-- The product or quotient of a finite double and a power of ten up to `10 ^ 308`, rounded once. -/
def timesPower (x : Double) (exponent : Int) : Double :=
  let (n, d) := x.fraction
  let (p, q) := (Binary.ofNat (Nat.pow 10 exponent.natAbs) : Double).fraction
  if 0 ≤ exponent then .ofFraction false (n * p) (d * q) else .ofFraction false (n * q) (d * p)

/-- Scales by a power of ten in steps of `10 ^ 308`; refuses a result beyond the doubles.
After two steps down nothing is left of a 64-bit significand. -/
def scale (x : Double) (exponent : Int) : Nat → Option Double
  | 0 => some .zero
  | steps + 1 =>
    if exponent.natAbs ≤ 308 then
      let y := timesPower x exponent
      if y.isFinite then some y else none
    else if x.isZero then some x
    else if 0 ≤ exponent then none
    else scale (timesPower x (-308)) (exponent + 308) steps

def doubleOf (negative : Bool) (d : Digits) (exponent : Int) : Option Json := do
  let x ← scale (.ofNat d.significand) (d.exponent + exponent) 3
  return .double (if negative then x.negate else x)

/-- An integer, or the double in its place if 64 bits cannot hold it; so with `-0`. -/
def integerOf (negative : Bool) (significand : Nat) : Json :=
  if !negative then .integer significand
  else if significand = 0 ∨ (significand : Int) > -Int64.minValue.toInt then
    .double (.ofFraction true significand 1)
  else .integer (-significand)

def digits? (cs : List Char) : Option (List Char × List Char) :=
  match cs.span Char.isDigit with
  | ([], _) => none
  | parts => some parts

/-- The exponent part, if one starts here: its value, or nothing when its digits are missing. -/
def exponent? (cs : List Char) : Option (Option Int × List Char) :=
  match cs with
  | 'e' :: cs => signed cs
  | 'E' :: cs => signed cs
  | cs => some (none, cs)
where
  signed (cs : List Char) : Option (Option Int × List Char) := do
    let (negative, cs) := match cs with
      | '+' :: cs => (false, cs)
      | '-' :: cs => (true, cs)
      | cs => (false, cs)
    let (ds, cs) ← digits? cs
    let n : Int := (Nat.ofDigitChars 10 ds 0 : Nat)
    return (some (if negative then -n else n), cs)

def fraction? (cs : List Char) : Option (Option (List Char) × List Char) :=
  match cs with
  | '.' :: cs => (digits? cs).map fun (ds, cs) => (some ds, cs)
  | cs => some (none, cs)

def unsigned? (negative : Bool) (cs : List Char) : Option (Json × List Char) := do
  let (whole, cs) ← digits? cs
  guard (whole.head? ≠ some '0' ∨ whole.length = 1)
  let (fraction, cs) ← fraction? cs
  let (exponent, cs) ← exponent? cs
  let head := whole.foldl Digits.pushInteger ⟨0, 0, false⟩
  match fraction, exponent with
  | none, none =>
    if head.full then return (← doubleOf negative head 0, cs)
    else return (integerOf negative head.significand, cs)
  | _, _ =>
    let all := (fraction.getD []).foldl Digits.pushFraction { head with full := false }
    return (← doubleOf negative all (exponent.getD 0), cs)

def number? (cs : List Char) : Option (Json × List Char) :=
  match cs with
  | '-' :: cs => unsigned? true cs
  | cs => unsigned? false cs

end RobotBridge.Json
