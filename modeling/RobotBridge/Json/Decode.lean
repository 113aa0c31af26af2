import RobotBridge.Json.Render
import RobotBridge.Text.Quoted

/-! Typed reading of documents, and what is said when a document has another shape. -/
namespace RobotBridge.Json

open Numeric

inductive DecodeError where
  | missingField (name : String)
  /-- A value of the wrong type. -/
  | invalidType (found : Json) (expected : String)
  /-- An integer out of range. -/
  | invalidValue (found : Int) (expected : String)
  /-- An array with too few or too many items for a record. -/
  | invalidLength (found : Nat) (expected : String)
  | unknownVariant (name : String) (variants : List String)
  /-- A value that fits none of several forms. -/
  | noVariant (type : String)

def describe : Json → String
  | .null => "null"
  | .boolean b => "boolean `" ++ String.ofList (renderBoolean b) ++ "`"
  | .integer n => "integer `" ++ String.ofList (renderInteger n) ++ "`"
  | .double x => "floating point `" ++ String.ofList (renderBinary .double x) ++ "`"
  | .string s => "string " ++ Text.quoted s
  | .array _ => "sequence"
  | .object _ => "map"

namespace DecodeError

def message : DecodeError → String
  | missingField name => "missing field `" ++ name ++ "`"
  | invalidType found expected => "invalid type: " ++ found.describe ++ ", expected " ++ expected
  | invalidValue found expected =>
    "invalid value: " ++ (Json.integer found).describe ++ ", expected " ++ expected
  | invalidLength found expected => "invalid length " ++ toString found ++ ", expected " ++ expected
  | unknownVariant name variants =>
    "unknown variant `" ++ name ++ "`, expected one of " ++
      ", ".intercalate (variants.map fun v => "`" ++ v ++ "`")
  | noVariant type => "data did not match any variant of untagged enum " ++ type

end DecodeError

abbrev Decoder (α : Type) := Json → Except DecodeError α

namespace Decoder

def any : Decoder Json := .ok

def string : Decoder String
  | .string s => .ok s
  | j => .error (.invalidType j "a string")

def boolean : Decoder Bool
  | .boolean b => .ok b
  | j => .error (.invalidType j "a boolean")

/-- An integer from `low` to `high`; doubles are refused, integral ones too. -/
def integer (type : String) (low high : Int) : Decoder Int
  | .integer n => if low ≤ n ∧ n ≤ high then .ok n else .error (.invalidValue n type)
  | j => .error (.invalidType j type)

def int32 : Decoder Int32 := fun j =>
  (integer "i32" Int32.minValue.toInt Int32.maxValue.toInt j).map Int32.ofInt

def int64 : Decoder Int64 := fun j =>
  (integer "i64" Int64.minValue.toInt Int64.maxValue.toInt j).map Int64.ofInt

def size : Decoder UInt64 := fun j =>
  (integer "usize" 0 (UInt64.size - 1) j).map fun n => .ofNat n.toNat

/-- Any number, rounded once to single precision. -/
def single : Decoder Single
  | .integer n => .ok (.ofInt n)
  | .double x => .ok x.convert
  | j => .error (.invalidType j "f32")

def nullable {α : Type} (d : Decoder α) : Decoder (Option α)
  | .null => .ok none
  | j => (d j).map some

def list {α : Type} (d : Decoder α) : Decoder (List α)
  | .array items => items.mapM d
  | j => .error (.invalidType j "a sequence")

def variant {α : Type} (ofName? : String → Option α) (names : List String) (type : String) : Decoder α
  | .string s =>
    match ofName? s with
    | some a => .ok a
    | none => .error (.unknownVariant s names)
  | j => .error (.invalidType j type)

def fault {α : Type} (d : Decoder α) (j : Json) : Option DecodeError :=
  match d j with
  | .ok _ => none
  | .error e => some e

end Decoder

end RobotBridge.Json
