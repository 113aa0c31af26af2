import RobotBridge.Envelope.Basic
import RobotBridge.Json.Parse
import RobotBridge.Json.Record

/-! Envelopes as text: one JSON object a frame. Fields that are not set are left out, and a frame
is an envelope or, for a stated reason, none. -/
namespace RobotBridge

inductive FrameError where
  | notJson
  | notObject
  | noType
  | typeNotString (found : Json)
  | badField (error : Json.DecodeError)

namespace FrameError

def message : FrameError → String
  | notJson => "not valid JSON"
  | notObject => "envelope is not a JSON object"
  | noType => "envelope has no type field"
  | typeNotString found => "type field is not a string: " ++ found.render
  | badField error => error.message

end FrameError

namespace Envelope

open Json (Outline Fields Decoder)

def outline (e : Envelope) : Outline :=
  .object <|
    [("type", .leaf (Json.renderString e.kind.name))] ++
    (e.channel.map fun s => ("channel", Outline.leaf (Json.renderString s))).toList ++
    (e.dtype.map fun s => ("dtype", Outline.leaf (Json.renderString s))).toList ++
    (e.data.map fun j => ("data", j.outline)).toList ++
    (e.asBytes.map fun b => ("as_bytes", Outline.leaf (Json.renderBoolean b))).toList

def encode (e : Envelope) : String := String.ofList e.outline.compact

/-- Data is set whenever it is present, also when it is null. -/
def fields : Fields Envelope :=
  Envelope.mk <$> .required "type" (.variant Kind.ofName? (Kind.all.map Kind.name) "enum MessageKind")
    <*> .optional "channel" .string <*> .optional "dtype" .string
    <*> .defaulting "data" none (fun j => .ok (some j)) <*> .optional "as_bytes" .boolean

def ofJson : Decoder Envelope := .record "Envelope" fields

/-- The envelope in a frame. Fields of other names are ignored. -/
def decode (text : String) : Except FrameError Envelope :=
  match Json.parse? text with
  | none => .error .notJson
  | some (.object members) =>
    match members.lookup "type" with
    | none => .error .noType
    | some (.string _) =>
      match ofJson (.object members) with
      | .ok e => .ok e
      | .error error => .error (.badField error)
    | some found => .error (.typeNotString found)
  | some _ => .error .notObject

end Envelope

end RobotBridge
