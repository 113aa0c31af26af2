import RobotBridge.Connection.Line
import RobotBridge.Session.Script
import RobotBridge.Session.Table

/-! A session: calls that run their scripts, the subscription table, one line a connection and a
clock. Outside acts (`Act`) put something in; moves (`Move`) carry it on, one hand at a time and in
any order. -/
namespace RobotBridge

namespace Session

inductive Owner where
  /-- A one-shot call, by number. -/
  | call (call : Nat)
  /-- The subscription table, by its own number for the connection. -/
  | table (connection : Nat)
deriving DecidableEq, Repr

inductive Stage (α : Type) where
  /-- The script can go on. -/
  | ready (script : Script α)
  /-- An exchange runs on a line until its deadline. -/
  | exchanging (line : Nat) (exchange : Exchange) (deadline : Nat) (next : Exchange.Outcome → Script α)
  | waiting (next : Except CallError Unit → Script α)
  | listing (next : Except CallError (List (String × SubscriptionState)) → Script α)
  | stopping (next : Unit → Script α)
  /-- Messages are printed as they come; `seen` of them have been. -/
  | streaming (limit : Option Nat) (seen : Nat) (render : Envelope → String) (next : Bool → Script α)
  | done (result : α)

structure CallState (α : Type) where
  stage : Stage α
  /-- Notices given to the call's handler and not looked at yet. -/
  inbox : List Notice := []
  /-- The call's handler will be given no more. -/
  released : Bool := false

inductive Effect (α : Type) where
  | connected (line : Nat) (channel : String)
  | handled (call : Nat) (notice : Notice)
  | printed (text : String)
  | finished (call : Nat) (result : α)

end Session

/-- The state of a session whose calls give results of type `α`. -/
structure Session (α : Type) where
  timeout : Duration
  /-- Nanoseconds since the start. -/
  clock : Nat := 0
  /-- Connections in the order of opening. -/
  lines : List (Session.Owner × Line) := []
  table : Session.Table := {}
  /-- Calls on their way to the table. -/
  commands : List Session.Table.Input := []
  /-- Connection events on their way to the table. -/
  events : List (Nat × Event) := []
  /-- Calls in the order of their start; a call's number is its place. -/
  calls : List (Session.CallState α) := []
  /-- Someone outside can still make calls. -/
  attached : Bool := true

namespace Session

variable {α : Type}

def line? (s : Session α) (n : Nat) : Option Line := (s.lines[n]?).map (·.2)

def setLine (s : Session α) (n : Nat) (f : Line → Line) : Session α :=
  { s with lines := s.lines.modify n fun (owner, p) => (owner, f p) }

/-- The line of a connection that the table opened. -/
def lineOf? (s : Session α) (connection : Nat) : Option Nat :=
  s.lines.findIdx? fun p => p.1 = .table connection

def onTableLine (s : Session α) (connection : Nat) (f : Line → Line) : Session α :=
  match s.lineOf? connection with
  | some n => s.setLine n f
  | none => s

def call? (s : Session α) (id : Nat) : Option (CallState α) := s.calls[id]?

def setCall (s : Session α) (id : Nat) (f : CallState α → CallState α) : Session α :=
  { s with calls := s.calls.modify id f }

def setStage (s : Session α) (id : Nat) (stage : Stage α) : Session α :=
  s.setCall id fun c => { c with stage }

def openLine (s : Session α) (owner : Owner) : Session α :=
  { s with lines := s.lines ++ [(owner, {})] }

/-- Sends a call on its way to the table; meanwhile it is in the given stage. -/
def enqueue (s : Session α) (id : Nat) (input : Table.Input) (stage : Stage α) : Session α :=
  { s with commands := s.commands ++ [input] }.setStage id stage

/-! ### What the table says -/

def Stage.answer (result : Except CallError Unit) : Stage α → Stage α
  | .waiting next => .ready (next result)
  | stage => stage

def Stage.answerList (result : Except CallError (List (String × SubscriptionState))) : Stage α → Stage α
  | .listing next => .ready (next result)
  | stage => stage

def Stage.answerStop : Stage α → Stage α
  | .stopping next => .ready (next ())
  | stage => stage

def applyOutput (s : Session α) : Table.Output → Session α × List (Effect α)
  | .opened connection channel =>
    (s.openLine (.table connection), [.connected s.lines.length channel])
  | .command connection c => (s.onTableLine connection (·.queue c), [])
  | .handled call notice =>
    (s.setCall call fun c => { c with inbox := c.inbox ++ [notice] }, [.handled call notice])
  | .answered call result => (s.setCall call fun c => { c with stage := c.stage.answer result }, [])
  | .listed call result => (s.setCall call fun c => { c with stage := c.stage.answerList result }, [])
  | .stopped call => (s.setCall call fun c => { c with stage := c.stage.answerStop }, [])
  | .released call => (s.setCall call fun c => { c with released := true }, [])
  | .dropped connection => (s.onTableLine connection Line.dropHandle, [])

def applyOutputs (s : Session α) : List Table.Output → Session α × List (Effect α)
  | [] => (s, [])
  | output :: rest =>
    let (s, effects) := s.applyOutput output
    let (s, more) := s.applyOutputs rest
    (s, effects ++ more)

def handle (s : Session α) (input : Table.Input) : Session α × List (Effect α) :=
  let (table, outputs) := s.table.step input
  { s with table }.applyOutputs outputs

/-! ### One-shot calls -/

def requestResult (channel : String) : Exchange.Outcome → Except CallError Envelope
  | .responded envelope => .ok envelope
  | .failed error => .error error
  | .published => .error (.protocol channel)

def publishResult (channel : String) : Exchange.Outcome → Except CallError Unit
  | .published => .ok ()
  | .failed error => .error error
  | .responded _ => .error (.protocol channel)

/-- Opens the connection of an exchange; its time starts now. -/
def beginExchange (s : Session α) (id : Nat) (exchange : Exchange)
    (next : Exchange.Outcome → Script α) : Session α × List (Effect α) :=
  let line := s.lines.length
  ((s.openLine (.call id)).setStage id
      (.exchanging line exchange (s.clock + s.timeout.nanoseconds) next),
    [.connected line exchange.channel])

/-- Queues what an exchange asks for; the last outcome counts. -/
def performExchange (p : Line) : List Exchange.Action → Line × Option Exchange.Outcome
  | [] => (p, none)
  | .send text :: rest => performExchange (p.queue (.send text)) rest
  | .close code :: rest => performExchange (p.queue (.close code)) rest
  | .settle outcome :: rest =>
    let (p, later) := performExchange p rest
    (p, later <|> some outcome)

/-- A settled exchange gives up its connection and lets the script go on. -/
def endExchange (s : Session α) (id line : Nat) (next : Exchange.Outcome → Script α)
    (outcome : Exchange.Outcome) : Session α :=
  (s.setLine line Line.dropSession).setStage id (.ready (next outcome))

def continueExchange (s : Session α) (id line : Nat) (p : Line) (exchange : Exchange) (deadline : Nat)
    (next : Exchange.Outcome → Script α) (actions : List Exchange.Action) : Session α :=
  let (p, outcome) := performExchange p actions
  let s := s.setLine line fun _ => p
  match outcome with
  | some outcome => s.endExchange id line next outcome
  | none => s.setStage id (.exchanging line exchange deadline next)

def endedUnsettled (channel : String) : Exchange.Outcome :=
  .failed (.connection channel "connection ended before the exchange settled")

/-! ### Moves -/

inductive Move where
  /-- A call goes on with its script. -/
  | resume (call : Nat)
  /-- A one-shot call takes the next event of its connection. -/
  | take (call : Nat)
  /-- A one-shot call runs out of time. -/
  | expire (call : Nat)
  /-- A streaming call looks at the next notice of its handler. -/
  | look (call : Nat)
  /-- The next event of a subscription's connection is passed on to the table. -/
  | forward (line : Nat)
  /-- The table handles the next call. -/
  | command
  /-- The table handles the next event; calls come first. -/
  | event
  /-- The table learns that no caller is left. -/
  | abandon
deriving DecidableEq, Repr

def resume (s : Session α) (id : Nat) : Script α → Session α × List (Effect α)
  | .finish a => (s.setStage id (.done a), [.finished id a])
  | .request channel next =>
    s.beginExchange id (.request channel) fun outcome => next (requestResult channel outcome)
  | .publish channel dtype data next =>
    s.beginExchange id (.publish channel dtype data) fun outcome => next (publishResult channel outcome)
  | .subscribe channel next =>
    (s.enqueue id (.subscribe id channel) (.waiting next), [])
  | .unsubscribe channel next =>
    (s.enqueue id (.unsubscribe id channel) (.waiting next), [])
  | .list next => (s.enqueue id (.list id) (.listing next), [])
  | .shutdown next => (s.enqueue id (.shutdown id) (.stopping next), [])
  | .print texts next => (s.setStage id (.ready (next ())), texts.map .printed)
  | .stream limit render next => (s.setStage id (.streaming limit 0 render next), [])

def takeEvent (s : Session α) (id line : Nat) (exchange : Exchange) (deadline : Nat)
    (next : Exchange.Outcome → Script α) : Option (Session α) :=
  match (s.line? line).map Line.nextEvent with
  | some (p, .ready e) =>
    let (exchange, actions) := exchange.onEvent e
    some (s.continueExchange id line p exchange deadline next actions)
  | some (_, .ended) => some (s.endExchange id line next (endedUnsettled exchange.channel))
  | some (_, .pending) => none
  | none => none

/-- Time runs out only when no event waits. -/
def expire (s : Session α) (id line : Nat) (exchange : Exchange) (deadline : Nat)
    (next : Exchange.Outcome → Script α) : Option (Session α) :=
  match s.line? line with
  | none => none
  | some p =>
    if deadline ≤ s.clock ∧ !p.hasEvent then
      let (exchange, actions) := exchange.onTimeout s.timeout
      some (s.continueExchange id line p exchange deadline next actions)
    else none

/-- Errors are passed over; a message is printed and counted. -/
def look (s : Session α) (id : Nat) (c : CallState α) (limit : Option Nat) (seen : Nat)
    (render : Envelope → String) (next : Bool → Script α) : Option (Session α × List (Effect α)) :=
  match c.inbox with
  | .error _ :: rest => some (s.setCall id fun c => { c with inbox := rest }, [])
  | .message envelope :: rest =>
    let reached := limit.any (· ≤ seen + 1)
    let stage := if reached then .ready (next true) else .streaming limit (seen + 1) render next
    some (s.setCall id fun c => { c with inbox := rest, stage }, [.printed (render envelope)])
  | [] => if c.released then some (s.setStage id (.ready (next false)), []) else none

/-- Passes an event on. Once the table has stopped, the connection's events are given up. -/
def forward (s : Session α) (n : Nat) : Option (Session α) :=
  match s.lines[n]? with
  | some (.table connection, p) =>
    if p.hasEvent then
      match p.nextEvent with
      | (p, .ready e) =>
        if s.table.running then
          some { s.setLine n (fun _ => p) with events := s.events ++ [(connection, e)] }
        else some (s.setLine n fun _ => p.dropEvents)
      | _ => none
    else none
  | _ => none

def CallState.isDone (c : CallState α) : Bool :=
  match c.stage with
  | .done _ => true
  | _ => false

def perform (s : Session α) : Move → Option (Session α × List (Effect α))
  | .resume id =>
    match (s.call? id).map CallState.stage with
    | some (.ready script) => some (s.resume id script)
    | _ => none
  | .take id =>
    match (s.call? id).map CallState.stage with
    | some (.exchanging line exchange deadline next) =>
      (s.takeEvent id line exchange deadline next).map (·, [])
    | _ => none
  | .expire id =>
    match (s.call? id).map CallState.stage with
    | some (.exchanging line exchange deadline next) =>
      (s.expire id line exchange deadline next).map (·, [])
    | _ => none
  | .look id =>
    match s.call? id with
    | some c =>
      match c.stage with
      | .streaming limit seen render next => s.look id c limit seen render next
      | _ => none
    | none => none
  | .forward n => (s.forward n).map (·, [])
  | .command =>
    match s.commands with
    | input :: rest => some ({ s with commands := rest }.handle input)
    | [] => none
  | .event =>
    match s.commands, s.events with
    | [], (connection, e) :: rest => some ({ s with events := rest }.handle (.event connection e))
    | _, _ => none
  | .abandon =>
    if !s.attached && s.table.running && s.commands.isEmpty && s.calls.all CallState.isDone then
      some (s.handle .abandoned)
    else none

/-! ### Acts -/

inductive Act (α : Type) where
  /-- A call is made, and gets the next number. -/
  | call (script : Script α)
  | emit (line : Nat) (e : Event)
  | dropTransport (line : Nat)
  | advance (span : Duration)
  /-- No more calls are made; those that run go on. -/
  | detach

def act (s : Session α) : Act α → Session α
  | .call script =>
    if s.attached then { s with calls := s.calls ++ [⟨.ready script, [], false⟩] } else s
  | .emit line e => s.setLine line fun p => (p.emit e).1
  | .dropTransport line => s.setLine line Line.dropTransport
  | .advance span => { s with clock := s.clock + span.nanoseconds }
  | .detach => { s with attached := false }

end Session

end RobotBridge
