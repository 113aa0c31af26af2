import RobotBridge.CommandLine.Basic
import RobotBridge.Robot

/-! Carrying out a subcommand: calls to the robot, and what is printed of their results. -/
namespace RobotBridge.CommandLine

/-- Why a subcommand failed, with what was being tried, the innermost first. -/
structure Failure where
  context : List String
  cause : CallError

abbrev Task (α : Type) := ExceptT Failure Script α

namespace Task

variable {α : Type}

def ofCall (c : Call α) : Task α :=
  .mk do
    match ← c.run with
    | .ok a => return .ok a
    | .error cause => return .error ⟨[], cause⟩

def trying (text : String) (t : Task α) : Task α :=
  .mk do
    match ← t.run with
    | .ok a => return .ok a
    | .error failure => return .error { failure with context := failure.context ++ [text] }

def print (texts : List String) : Task Unit := .mk (.print texts fun _ => .finish (.ok ()))

/-- Prints messages of the task's own handler; tells whether the limit was reached. -/
def stream (limit : Option Nat) (render : Envelope → String) : Task Bool :=
  .mk (.stream limit render fun reached => .finish (.ok reached))

end Task

/-- The data of a pushed envelope, over several lines; no data prints as null. -/
def renderPush (e : Envelope) : String := (e.data.getD .null).renderPretty

/-- Prints every message pushed on a channel until the count is reached or the subscription ends. -/
def follow (channel : String) (count : Option Nat) : Task Unit := do
  Task.trying ("cannot subscribe to " ++ channel) (.ofCall (Robot.subscribe channel))
  if ← Task.stream count renderPush then
    Task.trying ("cannot unsubscribe from " ++ channel) (.ofCall (Robot.unsubscribe channel))

def run : Subcommand → Task Unit
  | .hostname => do Task.print [← Task.ofCall Robot.readHostname]
  | .channels => do Task.print ((← Task.ofCall Robot.readChannels).map ChannelListing.channel)
  | .odometry => do Task.print [(← Task.ofCall Robot.readOdometry).form.renderPretty]
  | .slamPose => do Task.print [(← Task.ofCall Robot.readSlamPose).form.renderPretty]
  | .lidar => do Task.print [(← Task.ofCall Robot.readLidar).form.renderPretty]
  | .map => do Task.print [(← Task.ofCall Robot.readMap).summary]
  | .read channel => do Task.print [(← Task.ofCall (Robot.readData channel)).renderPretty]
  | .drive vx vy wz => .ofCall (Robot.drive vx vy wz)
  | .stop => .ofCall Robot.stop
  | .resetOdometry => .ofCall Robot.resetOdometry
  | .resetSlam reset => .ofCall (Robot.resetSlam reset)
  | .subscribe channel count => follow channel count

end RobotBridge.CommandLine
