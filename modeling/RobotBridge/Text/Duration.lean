/-! Spans of time, counted in nanoseconds, and their text. -/
namespace RobotBridge

structure Duration where
  nanoseconds : Nat
deriving DecidableEq, Repr

namespace Duration

def ofMillis (n : Nat) : Duration := ⟨n * 1000000⟩

def ofSeconds (n : Nat) : Duration := ⟨n * 1000000000⟩

def millis (d : Duration) : Nat := d.nanoseconds / 1000000

/-- `n` units of `10 ^ places` parts each, as an exact decimal without trailing zeros. -/
def inUnit (places n : Nat) : List Char :=
  let part := n % Nat.pow 10 places
  let digits := Nat.toDigits 10 part
  let padded := List.replicate (places - digits.length) '0' ++ digits
  Nat.toDigits 10 (n / Nat.pow 10 places) ++
    if part = 0 then [] else '.' :: (padded.reverse.dropWhile (· == '0')).reverse

/-- The span in the largest of s, ms, µs and ns that gives at least one. -/
def text (d : Duration) : String :=
  let n := d.nanoseconds
  String.ofList <|
    if 1000000000 ≤ n then inUnit 9 n ++ ['s']
    else if 1000000 ≤ n then inUnit 6 n ++ ['m', 's']
    else if 1000 ≤ n then inUnit 3 n ++ ['µ', 's']
    else inUnit 0 n ++ ['n', 's']

end Duration

end RobotBridge
