import RobotBridge.Numeric.Shortest

/-! Written forms of binary numbers: shortest digits laid out with a point or with an exponent. -/
namespace RobotBridge.Numeric

structure Layout where
  /-- Places of the decimal point, counted from before the first digit, at which no exponent is
  written; `none` means never an exponent. -/
  positional : Option (Int × Int)
  /-- An integral number ends in `.0`. -/
  pointZero : Bool
  tie : Tie
deriving DecidableEq, Repr

namespace Layout

/-- Doubles in documents: no exponent from `1e-5` up to below `1e16`. -/
def double : Layout := ⟨some (-4, 16), true, .even⟩

/-- Singles in documents: no exponent from `1e-6` up to below `1e13`. -/
def single : Layout := ⟨some (-5, 13), true, .even⟩

/-- Singles in prose: never an exponent and no point after an integral number. -/
def plain : Layout := ⟨none, false, .up⟩

def isPositional (l : Layout) (point : Int) : Bool :=
  match l.positional with
  | none => true
  | some (low, high) => low ≤ point ∧ point ≤ high

def placed (l : Layout) (digits : List Char) (point : Int) : List Char :=
  if point ≤ 0 then '0' :: '.' :: (List.replicate (-point).toNat '0' ++ digits)
  else if digits.length ≤ point.toNat then
    digits ++ List.replicate (point.toNat - digits.length) '0' ++ (if l.pointZero then ['.', '0'] else [])
  else digits.take point.toNat ++ '.' :: digits.drop point.toNat

def scaled (digits : List Char) (point : Int) : List Char :=
  let mantissa := match digits with
    | [] => ['0']
    | [d] => [d]
    | d :: rest => d :: '.' :: rest
  let exponent := point - 1
  mantissa ++ 'e' :: (if exponent < 0 then '-' else '+') :: Nat.toDigits 10 exponent.natAbs

def decimal (l : Layout) (d : Decimal) : List Char :=
  let digits := Nat.toDigits 10 d.digits
  let point : Int := digits.length + d.exponent
  if l.isPositional point then l.placed digits point else scaled digits point

def finite {f : Format} (l : Layout) (x : Binary f) : List Char :=
  (if x.negative then ['-'] else []) ++ l.decimal (x.shortest l.tie)

def prose (x : Single) : String :=
  if x.isNaN then "NaN"
  else if x.isInfinite then (if x.negative then "-inf" else "inf")
  else String.ofList (plain.finite x)

end Layout

end RobotBridge.Numeric
