import RobotBridge.Numeric.Binary

/-! Numbers in arguments: decimals with optional point and exponent, and the words for infinity and
NaN, rounded once. -/
namespace RobotBridge.Numeric

namespace Binary

variable {f : Format}

/-- The number nearest to `digits · 10 ^ exponent`. Beyond a thousand decades every format has only
zero or infinity to offer. -/
def ofDecimal (negative : Bool) (digits : Nat) (exponent : Int) : Binary f :=
  let size : Int := (Nat.toDigits 10 digits).length
  if digits = 0 ∨ size + exponent < -1000 then ofMagnitude negative 0
  else if 1000 < size + exponent then infinite negative
  else if 0 ≤ exponent then ofFraction negative (digits * Nat.pow 10 exponent.toNat) 1
  else ofFraction negative digits (Nat.pow 10 (-exponent).toNat)

def exponentOf? (cs : List Char) : Option Int :=
  match cs with
  | [] => some 0
  | 'e' :: cs => signed cs
  | 'E' :: cs => signed cs
  | _ => none
where
  signed (cs : List Char) : Option Int :=
    match cs with
    | '+' :: cs => digits cs
    | '-' :: cs => (digits cs).map fun n => -n
    | cs => digits cs
  digits (cs : List Char) : Option Int :=
    if cs ≠ [] ∧ cs.all Char.isDigit then some (Nat.ofDigitChars 10 cs 0 : Nat) else none

def unsignedOf? (negative : Bool) (cs : List Char) : Option (Binary f) :=
  let word := cs.map Char.toLower
  if word = "inf".toList ∨ word = "infinity".toList then some (infinite negative)
  else if word = "nan".toList then some nan
  else do
    let (whole, cs) := cs.span Char.isDigit
    let (fraction, cs) := match cs with
      | '.' :: cs => cs.span Char.isDigit
      | cs => ([], cs)
    guard (whole ≠ [] ∨ fraction ≠ [])
    let exponent ← exponentOf? cs
    return ofDecimal negative (Nat.ofDigitChars 10 (whole ++ fraction) 0) (exponent - fraction.length)

def ofText? (s : String) : Option (Binary f) :=
  match s.toList with
  | '-' :: cs => unsignedOf? true cs
  | '+' :: cs => unsignedOf? false cs
  | cs => unsignedOf? false cs

end Binary

end RobotBridge.Numeric
