import RobotBridge.WebSocket.Frame

/-! Messages out of the bytes that a server sends: frames are put together, text is checked, and
anything against the rules breaks the stream. -/
namespace RobotBridge.WebSocket

inductive Inbound where
  | text (text : String)
  | binary (length : Nat)
  | ping (payload : List UInt8)
  | pong
  /-- A close frame, with its code and reason if it has them. -/
  | close (status : Option (UInt16 × List UInt8))
  /-- The stream is over without an error. -/
  | ended
  | broken (reason : String)
deriving DecidableEq, Repr

def isCloseCode (code : Nat) : Bool :=
  (1000 ≤ code && code ≤ 1003) || (1007 ≤ code && code ≤ 1013) || (3000 ≤ code && code ≤ 4999)

def breach : UInt16 × List UInt8 := (1002, "Protocol violation".toUTF8.toList)

/-- A close frame's payload is empty, or a code and a reason in UTF-8; a code that may not be sent
reads as a breach. -/
def Inbound.ofClosePayload : List UInt8 → Inbound
  | [] => .close none
  | [_] => .broken "WebSocket protocol error: Invalid close sequence"
  | high :: low :: reason =>
    let code := Frame.ofBigEndian [high, low]
    if !(ByteArray.validateUTF8 ⟨reason.toArray⟩) then .broken "UTF-8 encoding error"
    else if isCloseCode code then .close (some (.ofNat code, reason))
    else .close (some breach)

/-- The frame that answers a message: a ping is echoed, and so is a close. -/
def Inbound.reply? : Inbound → Option Frame
  | ping payload => some { opcode := .pong, payload }
  | close none => some { opcode := .close, payload := [] }
  | close (some (code, reason)) =>
    some { opcode := .close, payload := Frame.bigEndian 2 code.toNat ++ reason }
  | _ => none

structure Inbox where
  /-- Bytes that make no whole frame yet. -/
  pending : List UInt8 := []
  /-- The frames so far of a message in pieces: whether it is text, and its payload. -/
  pieces : Option (Bool × List UInt8) := none
deriving DecidableEq, Repr

namespace Inbox

def messageLimit : Nat := 64 * 1024 * 1024

/-- Ends that complete a character cut anywhere. -/
def completions : List (List UInt8) :=
  [[], [0x80], [0x80, 0x80], [0xA0, 0x80], [0x80, 0x80, 0x80], [0x90, 0x80, 0x80]]

/-- The bytes begin text in UTF-8; the last character may be cut. -/
def beginsText (bytes : List UInt8) : Bool :=
  completions.any fun more => ByteArray.validateUTF8 ⟨(bytes ++ more).toArray⟩

def complete (isText : Bool) (payload : List UInt8) : Inbound :=
  if isText then
    match String.fromUTF8? ⟨payload.toArray⟩ with
    | some t => .text t
    | none => .broken "UTF-8 encoding error"
  else .binary payload.length

def extend (i : Inbox) (isText final : Bool) (payload : List UInt8) : Inbox × Option Inbound :=
  if messageLimit < payload.length then (i, some (.broken "Space limit exceeded: Message too long"))
  else if final then ({ i with pieces := none }, some (complete isText payload))
  else if isText && !beginsText payload then (i, some (.broken "UTF-8 encoding error"))
  else ({ i with pieces := some (isText, payload) }, none)

def accept (i : Inbox) (f : Frame) : Inbox × Option Inbound :=
  match f.opcode, i.pieces with
  | .close, _ => (i, some (Inbound.ofClosePayload f.payload))
  | .ping, _ => (i, some (.ping f.payload))
  | .pong, _ => (i, some .pong)
  | .continuation, some (isText, payload) => i.extend isText f.final (payload ++ f.payload)
  | .continuation, none =>
    (i, some (.broken "WebSocket protocol error: Continue frame but nothing to continue"))
  | .text, none => i.extend true f.final f.payload
  | .binary, none => i.extend false f.final f.payload
  | _, some _ =>
    (i, some (.broken "WebSocket protocol error: While waiting for more fragments received another message"))

def drain : Nat → Inbox → Inbox × List Inbound
  | 0, i => (i, [])
  | n + 1, i =>
    match Frame.read i.pending with
    | .incomplete => (i, [])
    | .refused reason => (i, [.broken reason])
    | .frame f rest =>
      match { i with pending := rest }.accept f with
      | (i, some (.broken reason)) => (i, [.broken reason])
      | (i, message) =>
        let (i, more) := drain n i
        (i, message.toList ++ more)

/-- The messages that some bytes complete; after `broken` there are no more. -/
def receive (i : Inbox) (bytes : List UInt8) : Inbox × List Inbound :=
  let pending := i.pending ++ bytes
  drain pending.length { i with pending }

end Inbox

end RobotBridge.WebSocket
