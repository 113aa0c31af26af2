import RobotBridge.Numeric.Reading
import RobotBridge.Payload.SlamReset
import RobotBridge.Text.Duration

/-! What can be said on the command line: settings, subcommands with their arguments, and the texts
that each accepts. -/
namespace RobotBridge.CommandLine

open Numeric (Single)

inductive Setting where
  | host
  | port
  | config
  | requestTimeout
  | mode
  | retainPose
  | mapFile
  | count
deriving DecidableEq, Repr

inductive Place where
  | text
  /-- A number; it may be negative. -/
  | number
deriving DecidableEq, Repr

inductive Subcommand where
  | hostname
  | channels
  | odometry
  | slamPose
  | lidar
  | map
  | read (channel : String)
  | drive (vx vy wz : Single)
  | stop
  | resetOdometry
  | resetSlam (reset : SlamReset)
  /-- Follows a channel, up to a number of messages. -/
  | subscribe (channel : String) (count : Option Nat)
deriving DecidableEq

structure Settings where
  host : Option String := none
  port : Option UInt16 := none
  /-- The path of the configuration file. -/
  config : Option String := none
  requestTimeout : Option Duration := none
deriving DecidableEq, Repr

/-! ### Values -/

def integer? (low high : Int) (s : String) : Option Int :=
  let (negative, ds) := match s.toList with
    | '-' :: cs => (true, cs)
    | '+' :: cs => (false, cs)
    | cs => (false, cs)
  if ds ≠ [] ∧ ds.all Char.isDigit then
    let n : Int := (Nat.ofDigitChars 10 ds 0 : Nat)
    let n := if negative then -n else n
    if low ≤ n ∧ n ≤ high then some n else none
  else none

/-- An integer without minus sign, from a lower bound up to 64 bits. -/
def natural? (low : Nat) (s : String) : Option Nat :=
  if s.toList.head? = some '-' then none else (integer? low (UInt64.size - 1) s).map Int.toNat

def port? (s : String) : Option UInt16 := (integer? 0 (UInt16.size - 1) s).map fun n => .ofNat n.toNat

def mode? (s : String) : Option Int32 :=
  (integer? Int32.minValue.toInt Int32.maxValue.toInt s).map Int32.ofInt

namespace Setting

def long : Setting → String
  | host => "host"
  | port => "port"
  | config => "config"
  | requestTimeout => "request-timeout"
  | mode => "mode"
  | retainPose => "retain-pose"
  | mapFile => "map-file"
  | count => "count"

def isSwitch : Setting → Bool
  | retainPose => true
  | _ => false

def accepts (setting : Setting) (value : String) : Bool :=
  match setting with
  | host | mapFile | retainPose => true
  | config => value ≠ ""
  | port => (port? value).isSome
  | requestTimeout => (natural? 0 value).isSome
  | mode => (mode? value).isSome
  | count => (natural? 1 value).isSome

/-- Settings that can be given before and after the subcommand. -/
def shared : List Setting := [host, port, config, requestTimeout]

def variableName : Setting → Option String
  | host => some "MBOT_HOST"
  | port => some "MBOT_PORT"
  | config => some "MBOT_CONFIG"
  | _ => none

end Setting

def Place.accepts (place : Place) (value : String) : Bool :=
  match place with
  | text => true
  | number => (Numeric.Binary.ofText? value : Option Single).isSome

end RobotBridge.CommandLine
