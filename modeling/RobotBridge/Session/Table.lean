import RobotBridge.Subscription

/-! The subscription table of a session: one live entry a channel, in the order of channel names.
It takes calls and connection events one at a time and says what follows from each. -/
namespace RobotBridge.Session

inductive Notice where
  | message (envelope : Envelope)
  | error (error : CallError)

/-- A live subscription: its machine, its connection, and the calls that wait for it. -/
structure Entry where
  connection : Nat
  machine : Subscription
  /-- The call that opened the connection; its handler is the one that is called. -/
  owner : Nat
  subscribers : List Nat
  unsubscribers : List Nat

structure Table where
  entries : List (String × Entry) := []
  /-- The number of the next connection; numbers are never used again. -/
  nextConnection : Nat := 0
  running : Bool := true

namespace Table

/-- What the table handles: calls, by number, and events of connections that it opened. -/
inductive Input where
  | subscribe (call : Nat) (channel : String)
  | unsubscribe (call : Nat) (channel : String)
  | list (call : Nat)
  | shutdown (call : Nat)
  /-- No caller is left. -/
  | abandoned
  | event (connection : Nat) (e : Event)

inductive Output where
  | opened (connection : Nat) (channel : String)
  | command (connection : Nat) (c : Command)
  /-- The handler that a call gave is called. -/
  | handled (call : Nat) (notice : Notice)
  | answered (call : Nat) (result : Except CallError Unit)
  | listed (call : Nat) (result : Except CallError (List (String × SubscriptionState)))
  | stopped (call : Nat)
  /-- The handler that a call gave will not be called again. -/
  | released (call : Nat)
  /-- The table gives up its hold on a connection. -/
  | dropped (connection : Nat)

def setEntry (channel : String) (entry : Entry) : List (String × Entry) → List (String × Entry)
  | [] => [(channel, entry)]
  | (c, e) :: rest =>
    if channel = c then (channel, entry) :: rest
    else if channel < c then (channel, entry) :: (c, e) :: rest
    else (c, e) :: setEntry channel entry rest

def entryOf? (t : Table) (channel : String) : Option Entry := t.entries.lookup channel

def put (t : Table) (channel : String) (entry : Entry) : Table :=
  { t with entries := setEntry channel entry t.entries }

def remove (t : Table) (channel : String) : Table :=
  { t with entries := t.entries.filter fun e => e.1 ≠ channel }

end Table

namespace Entry

open Table (Output)

def answerAll (calls : List Nat) (result : Except CallError Unit) : List Output :=
  calls.map fun call => .answered call result

/-- One action of the machine: waiting calls are answered once and then wait no more. -/
def perform (entry : Entry) : Subscription.Action → Entry × List Output
  | .send text => (entry, [.command entry.connection (.send text)])
  | .close code => (entry, [.command entry.connection (.close code)])
  | .deliver envelope => (entry, [.handled entry.owner (.message envelope)])
  | .deliverError error => (entry, [.handled entry.owner (.error error)])
  | .settleSubscribe result => ({ entry with subscribers := [] }, answerAll entry.subscribers result)
  | .settleUnsubscribe => ({ entry with unsubscribers := [] }, answerAll entry.unsubscribers (.ok ()))

def performAll (entry : Entry) : List Subscription.Action → Entry × List Output
  | [] => (entry, [])
  | action :: rest =>
    let (entry, outputs) := entry.perform action
    let (entry, more) := entry.performAll rest
    (entry, outputs ++ more)

/-- The calls that still wait are answered with an error, and handler and connection are let go. -/
def finish (entry : Entry) (error : CallError) : List Output :=
  answerAll (entry.subscribers ++ entry.unsubscribers) (.error error) ++
    [.released entry.owner, .dropped entry.connection]

end Entry

namespace Table

/-- A channel without an entry gets one with a new connection. A call that finds an entry brings a
handler for nothing: it joins, succeeds at once or is refused, by the state of the entry. -/
def subscribe (t : Table) (call : Nat) (channel : String) : Table × List Output :=
  match t.entryOf? channel with
  | none =>
    ({ t.put channel ⟨t.nextConnection, .new channel, call, [call], []⟩ with
        nextConnection := t.nextConnection + 1 },
      [.opened t.nextConnection channel])
  | some entry =>
    match entry.machine.state with
    | .connecting =>
      (t.put channel { entry with subscribers := entry.subscribers ++ [call] }, [.released call])
    | .active => (t, [.answered call (.ok ()), .released call])
    | .closing | .closed =>
      (t, [.answered call (.error (.invalidState channel "cannot subscribe while unsubscribing")),
        .released call])

def unsubscribe (t : Table) (call : Nat) (channel : String) : Table × List Output :=
  match t.entryOf? channel with
  | none => (t, [.answered call (.ok ())])
  | some entry =>
    match entry.machine.unsubscribe with
    | .error error => (t, [.answered call (.error error)])
    | .ok (machine, actions) =>
      let waiting := { entry with machine, unsubscribers := entry.unsubscribers ++ [call] }
      let (entry, outputs) := waiting.performAll actions
      (t.put channel entry, outputs)

def channelOf? (t : Table) (connection : Nat) : Option (String × Entry) :=
  t.entries.find? fun e => e.2.connection = connection

/-- An event of a connection that no entry holds is dropped; an entry that it closes is removed. -/
def onEvent (t : Table) (connection : Nat) (e : Event) : Table × List Output :=
  match t.channelOf? connection with
  | none => (t, [])
  | some (channel, entry) =>
    let (machine, actions) := entry.machine.onEvent e
    let (entry, outputs) := { entry with machine }.performAll actions
    if entry.machine.state = .closed then
      (t.remove channel, outputs ++ entry.finish (.connection channel "subscription ended"))
    else (t.put channel entry, outputs)

def states (t : Table) : List (String × SubscriptionState) :=
  t.entries.map fun e => (e.1, e.2.machine.state)

def close (t : Table) : Table × List Output :=
  ({ t with entries := [], running := false },
    t.entries.flatMap fun e =>
      .command e.2.connection (.close CloseCode.normal) :: e.2.finish .sessionClosed)

/-- A stopped table answers calls with `sessionClosed` and heeds no events. -/
def step (t : Table) (input : Input) : Table × List Output :=
  match t.running, input with
  | true, .subscribe call channel => t.subscribe call channel
  | true, .unsubscribe call channel => t.unsubscribe call channel
  | true, .list call => (t, [.listed call (.ok t.states)])
  | true, .shutdown call =>
    let (t, outputs) := t.close
    (t, outputs ++ [.stopped call])
  | true, .abandoned => t.close
  | true, .event connection e => t.onEvent connection e
  | false, .subscribe call _ => (t, [.answered call (.error .sessionClosed), .released call])
  | false, .unsubscribe call _ => (t, [.answered call (.error .sessionClosed)])
  | false, .list call => (t, [.listed call (.error .sessionClosed)])
  | false, .shutdown call => (t, [.stopped call])
  | false, .abandoned => (t, [])
  | false, .event _ _ => (t, [])

def run (t : Table) : List Input → Table × List (List Output)
  | [] => (t, [])
  | input :: rest =>
    let (t, outputs) := t.step input
    let (t, more) := t.run rest
    (t, outputs :: more)

end Table

end RobotBridge.Session
