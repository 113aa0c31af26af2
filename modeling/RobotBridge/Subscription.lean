import RobotBridge.CallError
import RobotBridge.Connection.Event
import RobotBridge.Envelope.Codec

/-! Subscriptions: a stream of messages on one channel, as a machine from events and requests to
actions. The first message decides whether the subscription stands; an unsubscribe starts the
closing handshake, and the end of the connection ends the subscription. -/
namespace RobotBridge

inductive SubscriptionState where
  /-- A connection is requested and no message has come. -/
  | connecting
  /-- Messages go to the handler. -/
  | active
  /-- The local side has asked for the end. -/
  | closing
  | closed
deriving DecidableEq, Repr, Inhabited

namespace SubscriptionState

def all : List SubscriptionState := [connecting, active, closing, closed]

def name : SubscriptionState → String
  | connecting => "connecting"
  | active => "active"
  | closing => "closing"
  | closed => "closed"

end SubscriptionState

namespace Subscription

inductive Action where
  | send (text : String)
  | close (code : UInt16)
  | deliver (envelope : Envelope)
  | deliverError (error : CallError)
  /-- Answers every subscribe call that waits. -/
  | settleSubscribe (result : Except CallError Unit)
  /-- Answers every unsubscribe call that waits. -/
  | settleUnsubscribe

inductive Input where
  | event (e : Event)
  | unsubscribe

end Subscription

structure Subscription where
  channel : String
  state : SubscriptionState

namespace Subscription

def new (channel : String) : Subscription := ⟨channel, .connecting⟩

/-- What a frame says: an envelope to deliver, or the error that it reports or is. -/
def interpret (channel text : String) : Except CallError Envelope :=
  match Envelope.decode text with
  | .error _ => .error (.protocol channel)
  | .ok envelope =>
    if envelope.kind = .error then .error (.remote channel envelope.errorText) else .ok envelope

def closedEarly (code : UInt16) : String :=
  "connection closed with code " ++ toString code.toNat ++ " before the first message"

def onFirstMessage (s : Subscription) (text : String) : Subscription × List Action :=
  match interpret s.channel text with
  | .ok envelope => ({ s with state := .active }, [.deliver envelope, .settleSubscribe (.ok ())])
  | .error error =>
    ({ s with state := .closed }, [.close CloseCode.normal, .settleSubscribe (.error error)])

def onPush (s : Subscription) (text : String) : Subscription × List Action :=
  match interpret s.channel text with
  | .ok envelope => (s, [.deliver envelope])
  | .error error => (s, [.deliverError error])

def onEvent (s : Subscription) (e : Event) : Subscription × List Action :=
  match s.state, e with
  | .closed, _ => (s, [])
  | .connecting, .opened => (s, [.send (Envelope.subscribe s.channel).encode])
  | .connecting, .message text => s.onFirstMessage text
  | .connecting, .failed reason =>
    ({ s with state := .closed }, [.settleSubscribe (.error (.connection s.channel reason))])
  | .connecting, .closed code =>
    ({ s with state := .closed }, [.settleSubscribe (.error (.connection s.channel (closedEarly code)))])
  | .active, .message text => s.onPush text
  | .active, .failed reason => ({ s with state := .closed }, [.deliverError (.connection s.channel reason)])
  | .active, .closed _ => ({ s with state := .closed }, [])
  | .closing, .message text => s.onPush text
  | .closing, .failed _ => ({ s with state := .closed }, [.settleUnsubscribe])
  | .closing, .closed _ => ({ s with state := .closed }, [.settleUnsubscribe])
  | .active, .opened => (s, [])
  | .closing, .opened => (s, [])

/-- Refused while connecting; a second request joins the first. -/
def unsubscribe (s : Subscription) : Except CallError (Subscription × List Action) :=
  match s.state with
  | .connecting => .error (.invalidState s.channel "cannot unsubscribe while connecting")
  | .active => .ok ({ s with state := .closing }, [.close CloseCode.normal])
  | .closing | .closed => .ok (s, [])

/-- A refused request changes nothing. -/
def step (s : Subscription) : Input → Subscription × List Action
  | .event e => s.onEvent e
  | .unsubscribe =>
    match s.unsubscribe with
    | .ok next => next
    | .error _ => (s, [])

def run (s : Subscription) : List Input → Subscription × List (List Action)
  | [] => (s, [])
  | input :: rest =>
    let (s, actions) := s.step input
    let (s, more) := s.run rest
    (s, actions :: more)

end Subscription

end RobotBridge
