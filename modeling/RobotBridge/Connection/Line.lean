import RobotBridge.Connection.Event

/-! The line between a session and one transport: a queue each way. Each side may go away, and the
session sees at most one terminal event, which a vanished transport does not need to send. -/
namespace RobotBridge

inductive Poll (α : Type) where
  | pending
  | ended
  | ready (a : α)
deriving DecidableEq, Repr

structure Line where
  /-- Events on their way to the session. -/
  events : List Event := []
  /-- Commands on their way to the transport. -/
  commands : List Command := []
  /-- The session still takes events. -/
  listening : Bool := true
  /-- The session has taken a terminal event. -/
  terminated : Bool := false
  /-- The session still holds a handle for commands. -/
  held : Bool := true
  /-- The transport still holds its half. -/
  attached : Bool := true
deriving DecidableEq, Repr, Inhabited

namespace Line

/-- The failure reported in place of the terminal event of a transport that went away. -/
def vanished : Event := .failed "transport ended without closing"

/-- Queues a command; without a transport it is lost. -/
def queue (p : Line) (c : Command) : Line :=
  if p.attached then { p with commands := p.commands ++ [c] } else p

/-- The transport offers an event; it is told whether the session took it. -/
def emit (p : Line) (e : Event) : Line × Bool :=
  if p.attached && p.listening && !p.terminated then ({ p with events := p.events ++ [e] }, true)
  else (p, false)

def nextEvent (p : Line) : Line × Poll Event :=
  if p.terminated then (p, .ended)
  else
    match p.events with
    | e :: rest => ({ p with events := rest, terminated := e.isTerminal }, .ready e)
    | [] => if p.attached then (p, .pending) else ({ p with terminated := true }, .ready vanished)

def nextCommand (p : Line) : Line × Poll Command :=
  match p.commands with
  | c :: rest => ({ p with commands := rest }, .ready c)
  | [] => (p, if p.held then .pending else .ended)

/-- The transport goes away; what was queued for it is lost. -/
def dropTransport (p : Line) : Line := { p with attached := false, commands := [] }

def dropHandle (p : Line) : Line := { p with held := false }

def dropEvents (p : Line) : Line := { p with listening := false, events := [] }

def dropSession (p : Line) : Line := p.dropHandle.dropEvents

def hasEvent (p : Line) : Bool :=
  p.listening && !p.terminated && (!p.events.isEmpty || !p.attached)

end Line

end RobotBridge
