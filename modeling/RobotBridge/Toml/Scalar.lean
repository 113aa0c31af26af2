import RobotBridge.Numeric.Reading
import RobotBridge.Toml.Basic
import RobotBridge.Toml.Text

/-! Numbers, dates and times in configuration files. -/
namespace RobotBridge.Toml

open Numeric

/-- Digits with single underscores between them: the digits, and what follows. -/
def digits? (isDigit : Char → Bool) : Nat → List Char → Option (List Char × List Char)
  | 0, _ => none
  | fuel + 1, cs =>
    match cs with
    | c :: '_' :: cs => do
      guard (isDigit c)
      let (ds, cs) ← digits? isDigit fuel cs
      return (c :: ds, cs)
    | c :: cs => do
      guard (isDigit c)
      match cs with
      | d :: _ =>
        if isDigit d then
          let (ds, cs) ← digits? isDigit fuel cs
          return (c :: ds, cs)
        else return ([c], cs)
      | [] => return ([c], [])
    | [] => none

def decimals? (cs : List Char) : Option (List Char × List Char) :=
  digits? Char.isDigit cs.length cs

def sign (cs : List Char) : Bool × List Char :=
  match cs with
  | '+' :: cs => (false, cs)
  | '-' :: cs => (true, cs)
  | cs => (false, cs)

/-- Decimal digits without a leading zero; after a zero nothing more is taken. -/
def whole? (cs : List Char) : Option (List Char × List Char) :=
  match cs with
  | '0' :: cs => some (['0'], cs)
  | cs => decimals? cs

def inRange? (n : Int) : Option Toml :=
  if Int64.minValue.toInt ≤ n ∧ n ≤ Int64.maxValue.toInt then some (.integer n) else none

def based? (base : Nat) (cs : List Char) : Option (Toml × List Char) := do
  let isDigit (c : Char) := (hexDigit? c).any (· < base)
  let (ds, cs) ← digits? isDigit cs.length cs
  let n := ds.foldl (fun n d => n * base + (hexDigit? d).getD 0) 0
  return (← inRange? n, cs)

def integer? (cs : List Char) : Option (Toml × List Char) :=
  match cs with
  | '0' :: 'x' :: cs => based? 16 cs
  | '0' :: 'o' :: cs => based? 8 cs
  | '0' :: 'b' :: cs => based? 2 cs
  | cs => do
    let (negative, cs) := sign cs
    let (ds, cs) ← whole? cs
    let n : Int := (Nat.ofDigitChars 10 ds 0 : Nat)
    return (← inRange? (if negative then -n else n), cs)

def exponent? (cs : List Char) : Option (Int × List Char) :=
  let signed (cs : List Char) : Option (Int × List Char) := do
    let (negative, cs) := sign cs
    let (ds, cs) ← decimals? cs
    let n : Int := (Nat.ofDigitChars 10 ds 0 : Nat)
    return (if negative then -n else n, cs)
  match cs with
  | 'e' :: cs => signed cs
  | 'E' :: cs => signed cs
  | _ => none

/-- A number with fraction or exponent. One that overflows upward is refused. -/
def decimal? (cs : List Char) : Option (Toml × List Char) := do
  let (negative, cs) := sign cs
  let (whole, cs) ← whole? cs
  let (fraction, exponent, cs) ← match cs with
    | '.' :: cs => do
      let (fraction, cs) ← decimals? cs
      match cs with
      | 'e' :: _ | 'E' :: _ => (exponent? cs).map fun (n, cs) => (fraction, n, cs)
      | cs => some (fraction, 0, cs)
    | cs => (exponent? cs).map fun (n, cs) => ([], n, cs)
  let digits := Nat.ofDigitChars 10 (whole ++ fraction) 0
  let x : Double := .ofDecimal negative digits (exponent - fraction.length)
  guard (negative ∨ x.isFinite)
  return (.float, cs)

def special? (cs : List Char) : Option (Toml × List Char) :=
  match (sign cs).2 with
  | 'i' :: 'n' :: 'f' :: cs => some (.float, cs)
  | 'n' :: 'a' :: 'n' :: cs => some (.float, cs)
  | _ => none

/-! ### Dates and times -/

def field? (count low high : Nat) (cs : List Char) : Option (Nat × List Char) := do
  let ds := cs.take count
  guard (ds.length = count ∧ ds.all Char.isDigit)
  let n := Nat.ofDigitChars 10 ds 0
  guard (low ≤ n ∧ n ≤ high)
  return (n, cs.drop count)

def char? (c : Char) : List Char → Option (List Char)
  | d :: cs => if d = c then some cs else none
  | [] => none

def isLeap (year : Nat) : Bool := year % 4 == 0 && (year % 100 != 0 || year % 400 == 0)

def daysIn (year month : Nat) : Nat :=
  if month = 2 then (if isLeap year then 29 else 28)
  else if month = 4 ∨ month = 6 ∨ month = 9 ∨ month = 11 then 30
  else 31

def date? (cs : List Char) : Option (List Char) := do
  let (year, cs) ← field? 4 0 9999 cs
  let cs ← char? '-' cs
  let (month, cs) ← field? 2 1 12 cs
  let cs ← char? '-' cs
  let (_, cs) ← field? 2 1 (daysIn year month) cs
  return cs

/-- A time of day, leap seconds included. -/
def time? (cs : List Char) : Option (List Char) := do
  let (_, cs) ← field? 2 0 23 cs
  let cs ← char? ':' cs
  let (_, cs) ← field? 2 0 59 cs
  let cs ← char? ':' cs
  let (_, cs) ← field? 2 0 60 cs
  match cs with
  | '.' :: cs =>
    match cs.span Char.isDigit with
    | ([], _) => none
    | (_, cs) => return cs
  | cs => return cs

def offset? (cs : List Char) : Option (List Char) := do
  match cs with
  | 'Z' :: cs => return cs
  | 'z' :: cs => return cs
  | '+' :: cs => hours cs
  | '-' :: cs => hours cs
  | _ => none
where
  hours (cs : List Char) : Option (List Char) := do
    let (_, cs) ← field? 2 0 23 cs
    let cs ← char? ':' cs
    let (_, cs) ← field? 2 0 59 cs
    return cs

def moment? (cs : List Char) : Option (Toml × List Char) :=
  match date? cs with
  | some cs =>
    let timed := match cs with
      | 'T' :: rest => time? rest
      | 't' :: rest => time? rest
      | ' ' :: rest => time? rest
      | _ => none
    match timed with
    | some cs => some (.moment, (offset? cs).getD cs)
    | none => some (.moment, cs)
  | none => (time? cs).map fun cs => (.moment, cs)

def boolean? (cs : List Char) : Option (Toml × List Char) :=
  match cs with
  | 't' :: 'r' :: 'u' :: 'e' :: cs => some (.boolean true, cs)
  | 'f' :: 'a' :: 'l' :: 's' :: 'e' :: cs => some (.boolean false, cs)
  | _ => none

def scalar? (cs : List Char) : Option (Toml × List Char) :=
  ((string? cs).map fun (s, cs) => (.string s, cs)) <|> boolean? cs <|> moment? cs <|>
    decimal? cs <|> special? cs <|> integer? cs

end RobotBridge.Toml
