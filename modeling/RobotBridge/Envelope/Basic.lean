import RobotBridge.Envelope.Kind
import RobotBridge.Json.Render

/-! Envelopes: the unit of exchange with the bridge server. -/
namespace RobotBridge

/-- A kind and up to four fields. Data that is null differs from no data. -/
structure Envelope where
  kind : Kind
  channel : Option String := none
  dtype : Option String := none
  data : Option Json := none
  asBytes : Option Bool := none
deriving Inhabited

namespace Envelope

def init : Envelope := { kind := .init }

def request (channel : String) : Envelope := { kind := .request, channel := some channel }

def subscribe (channel : String) : Envelope := { kind := .subscribe, channel := some channel }

def unsubscribe (channel : String) : Envelope := { kind := .unsubscribe, channel := some channel }

def publish (channel dtype : String) (data : Json) : Envelope :=
  { kind := .publish, channel := some channel, dtype := some dtype, data := some data }

def response (channel dtype : String) (data : Json) : Envelope :=
  { kind := .response, channel := some channel, dtype := some dtype, data := some data }

def error (message : String) : Envelope := { kind := .error, data := some (.string message) }

def errorText (e : Envelope) : String :=
  match e.data with
  | some (.string s) => s
  | some data => data.render
  | none => ""

def agrees (a b : Envelope) : Bool :=
  a.kind == b.kind && a.channel == b.channel && a.dtype == b.dtype && a.asBytes == b.asBytes &&
    match a.data, b.data with
    | none, none => true
    | some x, some y => x.agrees y
    | _, _ => false

end Envelope

end RobotBridge
