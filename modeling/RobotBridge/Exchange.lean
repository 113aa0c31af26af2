import RobotBridge.CallError
import RobotBridge.Connection.Event
import RobotBridge.Envelope.Codec

/-! One-shot exchanges: a request or a publish over a connection of its own, as a machine from
events to actions. A request is sent when the connection opens and settled by the first message
after that; a publish is settled as soon as it is sent. Failure, closing and timeout settle either. -/
namespace RobotBridge

namespace Exchange

inductive Operation where
  | request
  | publish (dtype : String) (data : Json)

inductive Phase where
  | opening
  | awaiting
  | settled
deriving DecidableEq, Repr

inductive Outcome where
  | responded (envelope : Envelope)
  | published
  | failed (error : CallError)

inductive Action where
  | send (text : String)
  | close (code : UInt16)
  | settle (outcome : Outcome)

inductive Input where
  | event (e : Event)
  | timeout (after : Duration)

end Exchange

structure Exchange where
  channel : String
  operation : Exchange.Operation
  phase : Exchange.Phase

namespace Exchange

def request (channel : String) : Exchange := ⟨channel, .request, .opening⟩

def publish (channel dtype : String) (data : Json) : Exchange :=
  ⟨channel, .publish dtype data, .opening⟩

def isSettled (x : Exchange) : Bool := x.phase == .settled

def settle (x : Exchange) (outcome : Outcome) : Exchange × List Action :=
  ({ x with phase := .settled }, [.settle outcome])

def settleWithClose (x : Exchange) (outcome : Outcome) : Exchange × List Action :=
  ({ x with phase := .settled }, [.close CloseCode.normal, .settle outcome])

def outcomeOf (channel text : String) : Outcome :=
  match Envelope.decode text with
  | .error _ => .failed (.protocol channel)
  | .ok envelope =>
    match envelope.kind with
    | .response => .responded envelope
    | .error => .failed (.remote channel envelope.errorText)
    | _ => .failed (.protocol channel)

def onOpened (x : Exchange) : Exchange × List Action :=
  match x.operation with
  | .request => ({ x with phase := .awaiting }, [.send (Envelope.request x.channel).encode])
  | .publish dtype data =>
    let (x, actions) := x.settleWithClose .published
    (x, .send (Envelope.publish x.channel dtype data).encode :: actions)

def closedEarly (code : UInt16) : String :=
  "connection closed with code " ++ toString code.toNat ++ " before a response"

def onEvent (x : Exchange) (e : Event) : Exchange × List Action :=
  match x.phase, e with
  | .settled, _ => (x, [])
  | .opening, .opened => x.onOpened
  | .awaiting, .message text => x.settleWithClose (outcomeOf x.channel text)
  | _, .failed reason => x.settle (.failed (.connection x.channel reason))
  | _, .closed code => x.settle (.failed (.connection x.channel (closedEarly code)))
  | _, _ => (x, [])

def onTimeout (x : Exchange) (after : Duration) : Exchange × List Action :=
  if x.isSettled then (x, []) else x.settleWithClose (.failed (.timeout x.channel after))

def step (x : Exchange) : Input → Exchange × List Action
  | .event e => x.onEvent e
  | .timeout after => x.onTimeout after

def run (x : Exchange) : List Input → Exchange × List (List Action)
  | [] => (x, [])
  | input :: rest =>
    let (x, actions) := x.step input
    let (x, more) := x.run rest
    (x, actions :: more)

end Exchange

end RobotBridge
