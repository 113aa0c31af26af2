import RobotBridge.Json.Basic
import RobotBridge.Json.Outline
import RobotBridge.Numeric.Layout

/-! The text of a document. -/
namespace RobotBridge.Json

open Numeric

def renderInteger (n : Int) : List Char :=
  (if n < 0 then ['-'] else []) ++ Nat.toDigits 10 n.natAbs

def renderBoolean (b : Bool) : List Char := if b then "true".toList else "false".toList

/-- A number that is not finite has no text of its own. -/
def renderBinary {f : Format} (layout : Layout) (x : Binary f) : List Char :=
  if x.isFinite then layout.finite x else "null".toList

mutual

def outline : Json → Outline
  | .null => .leaf "null".toList
  | .boolean b => .leaf (renderBoolean b)
  | .integer n => .leaf (renderInteger n)
  | .double x => .leaf (renderBinary .double x)
  | .string s => .leaf (renderString s)
  | .array items => .array (outlineItems items)
  | .object members => .object (outlineMembers members)

def outlineItems : List Json → List Outline
  | [] => []
  | item :: rest => outline item :: outlineItems rest

def outlineMembers : List (String × Json) → List (String × Outline)
  | [] => []
  | (key, value) :: rest => (key, outline value) :: outlineMembers rest

end

def render (j : Json) : String := String.ofList j.outline.compact

def renderPretty (j : Json) : String := String.ofList (j.outline.pretty 0)

end RobotBridge.Json
