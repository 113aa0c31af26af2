/-! What passes between a session and the transport of one connection. -/
namespace RobotBridge

/-! ### Codes that say why a connection closed -/

namespace CloseCode

def normal : UInt16 := 1000

/-- The peer closed without a code. -/
def noStatus : UInt16 := 1005

/-- The stream ended without a closing frame. -/
def abnormal : UInt16 := 1006

end CloseCode

/-- What the transport tells the session. -/
inductive Event where
  | opened
  /-- One inbound text frame. -/
  | message (text : String)
  | closed (code : UInt16)
  /-- The connection could not be opened, or broke. -/
  | failed (reason : String)
deriving DecidableEq, Repr, Inhabited

def Event.isTerminal : Event → Bool
  | closed _ | failed _ => true
  | opened | message _ => false

/-- What the session asks of the transport. -/
inductive Command where
  | send (text : String)
  | close (code : UInt16)
deriving DecidableEq, Repr, Inhabited

end RobotBridge
