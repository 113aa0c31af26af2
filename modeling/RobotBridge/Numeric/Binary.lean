/-! Binary interchange numbers as words, with exact conversion in unbounded integers.
No machine float is used: a finite number is a fraction of naturals, and every result is rounded once. -/
namespace RobotBridge.Numeric

/-- A binary interchange format: stored significand bits, without the leading one, and exponent bits. -/
structure Format where
  fractionBits : Nat
  exponentBits : Nat
deriving DecidableEq, Repr

namespace Format

def single : Format := ⟨23, 8⟩
def double : Format := ⟨52, 11⟩

def magnitudeBits (f : Format) : Nat := f.exponentBits + f.fractionBits

def width (f : Format) : Nat := f.magnitudeBits + 1

def bias (f : Format) : Nat := Nat.pow 2 (f.exponentBits - 1) - 1

/-- The smallest positive number is two to this power. -/
def minExponent (f : Format) : Int := 1 - (f.bias : Int) - f.fractionBits

/-- The magnitude of infinity; finite magnitudes lie below it and NaNs above. -/
def infinity (f : Format) : Nat := (Nat.pow 2 f.exponentBits - 1) * Nat.pow 2 f.fractionBits

end Format

/-- A number of format `f`, kept as its word. -/
structure Binary (f : Format) where
  word : BitVec f.width
deriving DecidableEq, Repr

abbrev Single := Binary .single
abbrev Double := Binary .double

def roundHalfEven (num den : Nat) : Nat :=
  let floor := num / den
  let twice := 2 * (num % den)
  if twice < den then floor
  else if den < twice then floor + 1
  else floor + floor % 2

def leadingExponent (num den : Nat) : Int :=
  let guess : Int := (num.log2 : Int) - den.log2
  let reached :=
    if 0 ≤ guess then den * Nat.pow 2 guess.toNat ≤ num else den ≤ num * Nat.pow 2 (-guess).toNat
  if reached then guess else guess - 1

namespace Binary

variable {f : Format}

def negative (x : Binary f) : Bool := x.word.msb

/-- The word without its sign; the order of magnitudes is the order of absolute values. -/
def magnitude (x : Binary f) : Nat := x.word.toNat % Nat.pow 2 f.magnitudeBits

def ofMagnitude (negative : Bool) (magnitude : Nat) : Binary f :=
  let sign := if negative then Nat.pow 2 f.magnitudeBits else 0
  ⟨BitVec.ofNat f.width (sign + magnitude % Nat.pow 2 f.magnitudeBits)⟩

def zero : Binary f := ofMagnitude false 0

instance : Inhabited (Binary f) := ⟨zero⟩

def infinite (negative : Bool) : Binary f := ofMagnitude negative f.infinity

def nan : Binary f := ofMagnitude false (f.infinity + Nat.pow 2 (f.fractionBits - 1))

def isFinite (x : Binary f) : Bool := x.magnitude < f.infinity

def isInfinite (x : Binary f) : Bool := x.magnitude == f.infinity

def isNaN (x : Binary f) : Bool := f.infinity < x.magnitude

def isZero (x : Binary f) : Bool := x.magnitude == 0

/-- Numeric equality: the zeros are equal and a NaN equals nothing. -/
def sameValue (x y : Binary f) : Bool :=
  !x.isNaN && !y.isNaN && (x.word == y.word || x.isZero && y.isZero)

def negate (x : Binary f) : Binary f := ofMagnitude (!x.negative) x.magnitude

def significand (x : Binary f) : Nat :=
  if x.magnitude < Nat.pow 2 f.fractionBits then x.magnitude
  else Nat.pow 2 f.fractionBits + x.magnitude % Nat.pow 2 f.fractionBits

def exponent (x : Binary f) : Int :=
  f.minExponent + (x.magnitude / Nat.pow 2 f.fractionBits - 1 : Nat)

def fraction (x : Binary f) : Nat × Nat :=
  if 0 ≤ x.exponent then (x.significand * Nat.pow 2 x.exponent.toNat, 1)
  else (x.significand, Nat.pow 2 (-x.exponent).toNat)

/-- The magnitude nearest to a fraction, ties to even, infinity from the overflow threshold on.
A carry out of the significand lands in the exponent field, which is the next binade. -/
def roundMagnitude (f : Format) (num den : Nat) : Nat :=
  if num = 0 then 0
  else
    let exponent := max (leadingExponent num den - f.fractionBits) f.minExponent
    let significand :=
      if 0 ≤ exponent then roundHalfEven num (den * Nat.pow 2 exponent.toNat)
      else roundHalfEven (num * Nat.pow 2 (-exponent).toNat) den
    min ((exponent - f.minExponent).toNat * Nat.pow 2 f.fractionBits + significand) f.infinity

def ofFraction (negative : Bool) (num den : Nat) : Binary f :=
  ofMagnitude negative (roundMagnitude f num den)

def ofNat (n : Nat) : Binary f := ofFraction false n 1

def ofInt (n : Int) : Binary f := ofFraction (n < 0) n.natAbs 1

/-- Changes the format, with one rounding; NaN stays NaN and infinities keep their sign. -/
def convert {g : Format} (x : Binary f) : Binary g :=
  if x.isNaN then nan
  else if x.isInfinite then infinite x.negative
  else ofFraction x.negative x.fraction.1 x.fraction.2

end Binary

end RobotBridge.Numeric
