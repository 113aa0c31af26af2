import RobotBridge.Connection.Line
import RobotBridge.WebSocket.Transport

/-! The near end of a WebSocket: a transport and its inbox. -/
namespace RobotBridge.WebSocket

structure Consequence where
  /-- What the session is told. -/
  events : List Event := []
  /-- What is sent back. -/
  replies : List Frame := []

structure Link where
  transport : Transport
  inbox : Inbox := {}

namespace Link

def step (l : Link) (input : Input) : Link × Consequence :=
  let (transport, events) := l.transport.step input
  ({ l with transport }, { events })

/-- Takes messages one by one. They are answered as long as no close frame has been sent. -/
def take (l : Link) : List Inbound → Link × Consequence
  | [] => (l, {})
  | message :: rest =>
    let reply := if l.transport.takesCommands then message.reply? else none
    let (l, now) := l.step (.received message)
    let (l, later) := l.take rest
    (l, ⟨now.events ++ later.events, reply.toList ++ later.replies⟩)

def receive (l : Link) (bytes : List UInt8) : Link × Consequence :=
  let (inbox, messages) := l.inbox.receive bytes
  { l with inbox }.take messages

def isFinished (l : Link) : Bool := l.transport.phase = .finished

def isLive (l : Link) : Bool := !l.isFinished && l.transport.phase ≠ .connecting

end Link

def frameOf : Command → Frame
  | .send text => .ofText text
  | .close code => .ofClose code

/-- The frame that a poll for commands calls for. When no command can come any more, the connection is
closed. -/
def frameFor? : Poll Command → Option Frame
  | .pending => none
  | .ready c => some (frameOf c)
  | .ended => some (.ofClose CloseCode.normal)

def Input.ofCommand (written : Except String Unit) : Command → Input
  | .send text => .send text written
  | .close code => .close code written.toBool

def Input.ofPoll? (written : Except String Unit) : Poll Command → Option Input
  | .pending => none
  | .ready c => some (.ofCommand written c)
  | .ended => some (.abandoned written.toBool)

end RobotBridge.WebSocket
