import RobotBridge.Json.Decode

/-! Payloads on their way out: members in declaration order and numbers still in single precision.
Written at once, a single has its own shortest digits; made a document first, it is a double by then. -/
namespace RobotBridge

inductive Form where
  | boolean (b : Bool)
  | integer (n : Int)
  | single (x : Numeric.Single)
  | string (s : String)
  | list (items : List Form)
  | record (members : List (String × Form))
deriving Inhabited

namespace Form

open Json (Outline)

mutual

def outline : Form → Outline
  | boolean b => .leaf (Json.renderBoolean b)
  | integer n => .leaf (Json.renderInteger n)
  | single x => .leaf (Json.renderBinary .single x)
  | string s => .leaf (Json.renderString s)
  | list items => .array (outlineItems items)
  | record members => .object (outlineMembers members)

def outlineItems : List Form → List Outline
  | [] => []
  | item :: rest => outline item :: outlineItems rest

def outlineMembers : List (String × Form) → List (String × Outline)
  | [] => []
  | (key, value) :: rest => (key, outline value) :: outlineMembers rest

end

def render (f : Form) : String := String.ofList f.outline.compact

def renderPretty (f : Form) : String := String.ofList (f.outline.pretty 0)

mutual

/-- The document: members by key, singles widened, and null for a number that is not finite. -/
def toJson : Form → Json
  | boolean b => .boolean b
  | integer n => .integer n
  | single x => if x.isFinite then .double x.convert else .null
  | string s => .string s
  | list items => .array (toJsonItems items)
  | record members => .ofMembers (toJsonMembers members)

def toJsonItems : List Form → List Json
  | [] => []
  | item :: rest => toJson item :: toJsonItems rest

def toJsonMembers : List (String × Form) → List (String × Json)
  | [] => []
  | (key, value) :: rest => (key, toJson value) :: toJsonMembers rest

end

def word (n : UInt64) : Form := .integer n.toNat

def time (n : Int64) : Form := .integer n.toInt

def optionalMember (key : String) (value : Option Form) : List (String × Form) :=
  (value.map fun f => (key, f)).toList

end Form

end RobotBridge
