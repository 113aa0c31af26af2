import RobotBridge.Connection.Pair
import RobotBridge.WebSocket.Link

/-! The task of one connection: a transport at its end of a line, while the session acts at the other
end. -/
namespace RobotBridge.WebSocket

inductive Happening where
  /-- The session does something at its end of the line. -/
  | session (op : Line.Op)
  /-- The handshake has succeeded. If the session has gone a close frame is due, and is written or
  not. -/
  | connected (written : Bool)
  | unreachable (reason : String)
  | connectTimeout
  /-- The task polls for a command. Its frame is written or not. -/
  | command (written : Except String Unit)
  | received (message : Inbound)
  | closeTimeout

structure Task where
  transport : Transport
  pair : Line.Pair := {}
deriving DecidableEq

namespace Task

def input? (t : Task) : Happening → Option Input
  | .session _ => none
  | .connected written =>
    some (if (t.pair.line.emit .opened).2 then .connected else .refused written)
  | .unreachable reason => some (.unreachable reason)
  | .connectTimeout => some .connectTimeout
  | .command written =>
    if t.transport.takesCommands then Input.ofPoll? written t.pair.line.nextCommand.2 else none
  | .received message => some (.received message)
  | .closeTimeout => some .closeTimeout

/-- What is done on the line before the transport learns of it. -/
def polls (t : Task) : Happening → List Line.Op
  | .session op => if op.isSession then [op] else []
  | .command _ => if t.transport.takesCommands then [.receive] else []
  | _ => []

/-- What the task does on the line when its transport learns something. The task gives up the line
when it is over. -/
def follow (transport : Transport) (input : Input) : List Line.Op :=
  (transport.step input).2.map .emit ++
    if (transport.step input).1.phase = .finished then [.dropTransport] else []

end Task

structure Course where
  task : Task
  /-- What was done on the line, at either end. -/
  deeds : List Line.Deed := []
  /-- What the transport has learned. -/
  inputs : List Input := []

namespace Course

def go (c : Course) (h : Happening) : Course :=
  let (pair, before) := c.task.pair.run (c.task.polls h)
  match c.task.input? h with
  | none => { c with task := { c.task with pair }, deeds := c.deeds ++ before }
  | some input =>
    let (pair, after) := pair.run (Task.follow c.task.transport input)
    { task := ⟨(c.task.transport.step input).1, pair⟩
      deeds := c.deeds ++ before ++ after
      inputs := c.inputs ++ [input] }

def run (connectTimeout : Duration) (hs : List Happening) : Course :=
  hs.foldl go { task := { transport := { connectTimeout } } }

end Course

end RobotBridge.WebSocket
