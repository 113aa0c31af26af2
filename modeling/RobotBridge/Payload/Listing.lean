import RobotBridge.Payload.Form
import RobotBridge.Json.Record

/-! The list of channels that a server carries. -/
namespace RobotBridge

open Json (Fields Decoder)

structure ChannelHeader where
  channel : String
  dtype : String
  queueSize : UInt64
deriving DecidableEq, Inhabited

namespace ChannelHeader

def form (h : ChannelHeader) : Form :=
  .record [("channel", .string h.channel), ("dtype", .string h.dtype), ("queue_size", .word h.queueSize)]

def ofJson : Decoder ChannelHeader :=
  .record "ChannelHeader" (ChannelHeader.mk <$> .required "channel" .string
    <*> .defaulting "dtype" "" .string <*> .defaulting "queue_size" 0 .size)

end ChannelHeader

inductive ChannelListing where
  | name (name : String)
  | header (header : ChannelHeader)
deriving DecidableEq, Inhabited

namespace ChannelListing

def channel : ChannelListing → String
  | name s => s
  | header h => h.channel

def form : ChannelListing → Form
  | name s => .string s
  | header h => h.form

/-- Tries the bare name, then the header; what was wrong with each is not told. -/
def ofJson : Decoder ChannelListing := fun j =>
  match Decoder.string j with
  | .ok s => .ok (name s)
  | .error _ =>
    match ChannelHeader.ofJson j with
    | .ok h => .ok (header h)
    | .error _ => .error (.noVariant "ChannelListing")

end ChannelListing

end RobotBridge
