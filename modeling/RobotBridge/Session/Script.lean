import RobotBridge.Exchange
import RobotBridge.Subscription

/-! Scripts: what a call does, step by step, each step waiting for an answer of the session. -/
namespace RobotBridge

inductive Script (α : Type) where
  | finish (a : α)
  /-- One request over a connection of its own. -/
  | request (channel : String) (next : Except CallError Envelope → Script α)
  /-- One publish over a connection of its own. -/
  | publish (channel dtype : String) (data : Json) (next : Except CallError Unit → Script α)
  /-- Subscribes a handler that belongs to the call. -/
  | subscribe (channel : String) (next : Except CallError Unit → Script α)
  | unsubscribe (channel : String) (next : Except CallError Unit → Script α)
  | list (next : Except CallError (List (String × SubscriptionState)) → Script α)
  | shutdown (next : Unit → Script α)
  | print (texts : List String) (next : Unit → Script α)
  /-- Prints the messages that the call's handler is given, until a number of them is reached or
  the handler is released; goes on with whether the number was reached. -/
  | stream (limit : Option Nat) (render : Envelope → String) (next : Bool → Script α)

namespace Script

variable {α β : Type}

def bind (s : Script α) (f : α → Script β) : Script β :=
  match s with
  | finish a => f a
  | request channel next => request channel fun r => (next r).bind f
  | publish channel dtype data next => publish channel dtype data fun r => (next r).bind f
  | subscribe channel next => subscribe channel fun r => (next r).bind f
  | unsubscribe channel next => unsubscribe channel fun r => (next r).bind f
  | list next => list fun r => (next r).bind f
  | shutdown next => shutdown fun r => (next r).bind f
  | print texts next => print texts fun r => (next r).bind f
  | stream limit render next => stream limit render fun r => (next r).bind f

instance : Monad Script where
  pure := finish
  bind := bind

end Script

abbrev Call (α : Type) := ExceptT CallError Script α

namespace Call

def request (channel : String) : Call Envelope := .mk (.request channel .finish)

def publish (channel dtype : String) (data : Json) : Call Unit := .mk (.publish channel dtype data .finish)

def subscribe (channel : String) : Call Unit := .mk (.subscribe channel .finish)

def unsubscribe (channel : String) : Call Unit := .mk (.unsubscribe channel .finish)

def list : Call (List (String × SubscriptionState)) := .mk (.list .finish)

def shutdown : Call Unit := .mk (.shutdown fun _ => .finish (.ok ()))

end Call

end RobotBridge
