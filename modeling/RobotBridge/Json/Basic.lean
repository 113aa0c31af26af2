import RobotBridge.Numeric.Binary

/-! Documents: the values of JSON. Members of an object are kept in ascending order of their keys,
each key once, so that equal objects are equal terms. -/
namespace RobotBridge

inductive Json where
  | null
  | boolean (b : Bool)
  /-- A number written without point and exponent that fits 64 bits, signed or unsigned. -/
  | integer (n : Int)
  /-- Any other number. -/
  | double (x : Numeric.Double)
  | string (s : String)
  | array (items : List Json)
  | object (members : List (String × Json))
deriving Inhabited

namespace Json

def setMember (key : String) (value : Json) : List (String × Json) → List (String × Json)
  | [] => [(key, value)]
  | (k, v) :: rest =>
    if key = k then (key, value) :: rest
    else if key < k then (key, value) :: (k, v) :: rest
    else (k, v) :: setMember key value rest

/-- The object of members given in any order; of a repeated key the last value counts. -/
def ofMembers (members : List (String × Json)) : Json :=
  .object (members.foldl (fun object m => setMember m.1 m.2 object) [])

mutual

/-- Equality of documents as values: doubles are compared as numbers, so `0.0` agrees with `-0.0`. -/
def agrees : Json → Json → Bool
  | .null, .null => true
  | .boolean a, .boolean b => a == b
  | .integer a, .integer b => a == b
  | .double a, .double b => a.sameValue b
  | .string a, .string b => a == b
  | .array a, .array b => agreeItems a b
  | .object a, .object b => agreeMembers a b
  | _, _ => false

def agreeItems : List Json → List Json → Bool
  | [], [] => true
  | a :: as, b :: bs => agrees a b && agreeItems as bs
  | _, _ => false

def agreeMembers : List (String × Json) → List (String × Json) → Bool
  | [], [] => true
  | (k, a) :: as, (l, b) :: bs => k == l && agrees a b && agreeMembers as bs
  | _, _ => false

end

end Json

end RobotBridge
