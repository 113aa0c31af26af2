import RobotBridge.Text.Quoted

/-! The kinds of envelope and their spelling on the wire. -/
namespace RobotBridge

inductive Kind where
  | init
  | request
  | publish
  | response
  | subscribe
  | unsubscribe
  | error
deriving DecidableEq, Repr, Inhabited

namespace Kind

def all : List Kind := [init, request, publish, response, subscribe, unsubscribe, error]

def name : Kind → String
  | init => "init"
  | request => "request"
  | publish => "publish"
  | response => "response"
  | subscribe => "subscribe"
  | unsubscribe => "unsubscribe"
  | error => "error"

def ofName? (s : String) : Option Kind := all.find? fun k => k.name = s

def unknownMessage (s : String) : String := "unknown message type: " ++ Text.quoted s

end Kind

end RobotBridge
