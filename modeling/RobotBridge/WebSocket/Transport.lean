import RobotBridge.Connection.Event
import RobotBridge.Text.Duration
import RobotBridge.WebSocket.Inbox

/-! The transport of one connection, between its commands, the WebSocket and its timers. Each input is
one thing that happened, with the outcome of the write that it called for; a step gives the events
that the session is told. -/
namespace RobotBridge.WebSocket

inductive Phase where
  | connecting
  /-- Frames pass both ways. -/
  | pumping
  /-- A close frame with this code went out on command; the answer is awaited. -/
  | closing (code : UInt16)
  /-- A close frame went out and the session is not told of anything more. -/
  | leaving
  | finished
deriving DecidableEq, Repr

inductive Input where
  /-- The socket is connected, and the session takes that it is open. -/
  | connected
  /-- The socket is connected, but the session has gone; a close frame was due, and was written or
  not. -/
  | refused (written : Bool)
  | unreachable (reason : String)
  | connectTimeout
  /-- A text frame was due, and was written or not. -/
  | send (text : String) (written : Except String Unit)
  /-- A close frame was due on command, and was written or not. -/
  | close (code : UInt16) (written : Bool)
  /-- No command is left and none can come; a close frame was due, and was written or not. -/
  | abandoned (written : Bool)
  | received (message : Inbound)
  | closeTimeout

def closedBy (status : Option (UInt16 × List UInt8)) : Event :=
  .closed ((status.map (·.1)).getD CloseCode.noStatus)

structure Transport where
  connectTimeout : Duration
  phase : Phase := .connecting
deriving DecidableEq, Repr

namespace Transport

def takesCommands (t : Transport) : Bool := t.phase = .pumping

def react (connectTimeout : Duration) : Phase → Input → Phase × List Event
  | .connecting, .connected => (.pumping, [.opened])
  | .connecting, .refused true => (.leaving, [.opened])
  | .connecting, .refused false => (.finished, [.opened])
  | .connecting, .unreachable reason => (.finished, [.failed reason])
  | .connecting, .connectTimeout =>
    (.finished, [.failed ("connect timed out after " ++ connectTimeout.text)])
  | .pumping, .send _ (.ok _) => (.pumping, [])
  | .pumping, .send _ (.error reason) => (.finished, [.failed reason])
  | .pumping, .close code true => (.closing code, [])
  | .pumping, .close _ false => (.finished, [.closed CloseCode.abnormal])
  | .pumping, .abandoned true => (.leaving, [])
  | .pumping, .abandoned false => (.finished, [])
  | .pumping, .received (.text text) => (.pumping, [.message text])
  | .pumping, .received (.close status) => (.finished, [closedBy status])
  | .pumping, .received .ended => (.finished, [.closed CloseCode.abnormal])
  | .pumping, .received (.broken reason) => (.finished, [.failed reason])
  | .closing code, .received (.text text) => (.closing code, [.message text])
  | .closing code, .received (.close _) => (.finished, [.closed code])
  | .closing code, .received .ended => (.finished, [.closed code])
  | .closing code, .received (.broken _) => (.finished, [.closed code])
  | .closing code, .closeTimeout => (.finished, [.closed code])
  | .leaving, .received (.close _) => (.finished, [])
  | .leaving, .received .ended => (.finished, [])
  | .leaving, .received (.broken _) => (.finished, [])
  | .leaving, .closeTimeout => (.finished, [])
  | phase, _ => (phase, [])

def step (t : Transport) (input : Input) : Transport × List Event :=
  let (phase, events) := react t.connectTimeout t.phase input
  ({ t with phase }, events)

def run (t : Transport) : List Input → Transport × List Event
  | [] => (t, [])
  | input :: rest =>
    let (t, events) := t.step input
    let (t, more) := t.run rest
    (t, events ++ more)

end Transport

end RobotBridge.WebSocket
