import RobotBridge.Channel
import RobotBridge.Payload.Lidar
import RobotBridge.Payload.Listing
import RobotBridge.Payload.Motion
import RobotBridge.Payload.SlamReset
import RobotBridge.Session.Script

/-! What can be asked of a robot: typed reads, motion commands and subscriptions, by logical or by
wire name of the channel. -/
namespace RobotBridge.Robot

open Json (Decoder)
open Numeric (Single)

/-! ### Reads -/

/-- The data of the latest message on a channel; a response without data reads as null. -/
def readData (channel : String) : Call Json := do
  let envelope ← Call.request (Channel.resolve channel)
  return envelope.data.getD .null

def readAs {α : Type} (channel : String) (d : Decoder α) : Call α := do
  let data ← readData channel
  match d data with
  | .ok a => return a
  | .error e => throw (.payload channel (.shape e))

def readHostname : Call String := readAs Channel.hostname .string

def readChannels : Call (List ChannelListing) := readAs Channel.channels (.list ChannelListing.ofJson)

def readOdometry : Call Pose := readAs Channel.odometry.wireName Pose.ofJson

def readSlamPose : Call Pose := readAs Channel.slamPose.wireName Pose.ofJson

def readLidar : Call LidarScan := readAs Channel.lidar.wireName LidarScan.ofJson

def readMap : Call OccupancyGrid := do
  let channel := Channel.slamMap.wireName
  let data ← readData channel
  match OccupancyGrid.ofJson data with
  | .ok grid => return grid
  | .error e => throw (.payload channel e)

/-! ### Commands -/

def publish (channel : Channel) (payload : Form) : Call Unit :=
  Call.publish channel.wireName channel.dtype payload.toJson

/-- A velocity command, in m/s and rad/s. -/
def drive (vx vy wz : Single) : Call Unit := publish .motorVelCmd (Twist.form { vx, vy, wz })

/-- Halts the wheels, and only when that is sent drops the controller's goal. -/
def stop : Call Unit := do
  publish .motorVelCmd Twist.zero.form
  publish .controllerPath Path.empty.form

def resetOdometry : Call Unit := publish .resetOdometry Pose.origin.form

/-- A path of fewer than two poses carries no motion and is not sent. -/
def drivePath (poses : List Pose) : Call Unit :=
  if poses.length ≤ 1 then return () else publish .controllerPath (Path.ofPoses poses).form

def resetSlam (reset : SlamReset) : Call Unit := publish .systemReset reset.form

/-! ### Subscriptions -/

def subscribe (channel : String) : Call Unit := Call.subscribe (Channel.resolve channel)

def unsubscribe (channel : String) : Call Unit := Call.unsubscribe (Channel.resolve channel)

def subscriptions : Call (List (String × SubscriptionState)) := Call.list

def shutdown : Call Unit := Call.shutdown

end RobotBridge.Robot
