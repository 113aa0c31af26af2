import RobotBridge.Text.Duration

/-! Client settings. -/
namespace RobotBridge

structure Config where
  host : String
  port : UInt16
  connectTimeout : Duration
  requestTimeout : Duration
  closeTimeout : Duration
deriving DecidableEq, Repr

namespace Config

def default : Config where
  host := "localhost"
  port := 5005
  connectTimeout := .ofSeconds 5
  requestTimeout := .ofSeconds 5
  closeTimeout := .ofSeconds 2

def new (host : String) (port : UInt16) : Config := { default with host, port }

def uri (c : Config) : String := "ws://" ++ c.host ++ ":" ++ toString c.port.toNat

end Config

end RobotBridge
