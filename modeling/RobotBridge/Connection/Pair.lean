import RobotBridge.Connection.Line

/-! Both ends of a line. The session can copy its handle for commands and gives up handles and events
one by one; the transport goes away as a whole. Nothing is done at an end that is gone. -/
namespace RobotBridge.Line

inductive Op where
  | emit (e : Event)
  | poll
  | queue (c : Command)
  /-- The transport polls for a command. -/
  | receive
  | copyHandle
  | dropHandle
  | dropEvents
  | dropTransport
deriving DecidableEq

def Op.isSession : Op → Bool
  | .poll | .queue _ | .copyHandle | .dropHandle | .dropEvents => true
  | .emit _ | .receive | .dropTransport => false

inductive Deed where
  | emit (e : Event) (taken : Bool)
  | poll (got : Poll Event)
  | queue (c : Command)
  | receive (got : Poll Command)
  | copyHandle
  | dropHandle
  | dropEvents
  | dropTransport
deriving DecidableEq

structure Pair where
  line : Line := {}
  handles : Nat := 1
deriving DecidableEq

namespace Pair

def perform (p : Pair) : Op → Option (Pair × Deed)
  | .emit e =>
    if p.line.attached then
      let (line, taken) := p.line.emit e
      some ({ p with line }, .emit e taken)
    else none
  | .poll =>
    if p.line.listening then
      let (line, got) := p.line.nextEvent
      some ({ p with line }, .poll got)
    else none
  | .queue c => if 0 < p.handles then some ({ p with line := p.line.queue c }, .queue c) else none
  | .receive =>
    if p.line.attached then
      let (line, got) := p.line.nextCommand
      some ({ p with line }, .receive got)
    else none
  | .copyHandle =>
    if 0 < p.handles then some ({ p with handles := p.handles + 1 }, .copyHandle) else none
  | .dropHandle =>
    if 0 < p.handles then
      let line := if p.handles = 1 then p.line.dropHandle else p.line
      some (⟨line, p.handles - 1⟩, .dropHandle)
    else none
  | .dropEvents =>
    if p.line.listening then some ({ p with line := p.line.dropEvents }, .dropEvents) else none
  | .dropTransport =>
    if p.line.attached then some ({ p with line := p.line.dropTransport }, .dropTransport) else none

/-- The pair after some operations, and what was done; what cannot be done is passed over. -/
def run (p : Pair) : List Op → Pair × List Deed
  | [] => (p, [])
  | op :: ops =>
    match p.perform op with
    | none => p.run ops
    | some (p, deed) =>
      let (p, deeds) := p.run ops
      (p, deed :: deeds)

end Pair

end RobotBridge.Line
