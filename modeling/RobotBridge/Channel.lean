import RobotBridge.Text.Quoted

/-! The channel registry: names that applications use, names on the wire, and payload types. -/
namespace RobotBridge

inductive Channel where
  | odometry
  | resetOdometry
  | controllerPath
  | motorVelCmd
  | lidar
  | slamMap
  | slamPose
  | systemReset
deriving DecidableEq, Repr, Inhabited

namespace Channel

def all : List Channel :=
  [odometry, resetOdometry, controllerPath, motorVelCmd, lidar, slamMap, slamPose, systemReset]

def logicalName : Channel → String
  | odometry => "ODOMETRY"
  | resetOdometry => "RESET_ODOMETRY"
  | controllerPath => "CONTROLLER_PATH"
  | motorVelCmd => "MOTOR_VEL_CMD"
  | lidar => "LIDAR"
  | slamMap => "SLAM_MAP"
  | slamPose => "SLAM_POSE"
  | systemReset => "MBOT_SYSTEM_RESET"

def wireName : Channel → String
  | odometry => "MBOT_ODOMETRY"
  | resetOdometry => "MBOT_ODOMETRY_RESET"
  | controllerPath => "CONTROLLER_PATH"
  | motorVelCmd => "MBOT_VEL_CMD"
  | lidar => "LIDAR"
  | slamMap => "SLAM_MAP"
  | slamPose => "SLAM_POSE"
  | systemReset => "MBOT_SYSTEM_RESET"

def dtype : Channel → String
  | odometry => "pose2D_t"
  | resetOdometry => "pose2D_t"
  | controllerPath => "path2D_t"
  | motorVelCmd => "twist2D_t"
  | lidar => "lidar_t"
  | slamMap => "occupancy_grid_t"
  | slamPose => "pose2D_t"
  | systemReset => "mbot_slam_reset_t"

def ofLogicalName? (s : String) : Option Channel := all.find? fun c => c.logicalName = s

def ofWireName? (s : String) : Option Channel := all.find? fun c => c.wireName = s

/-- The channel of either name; a logical name is tried first. -/
def ofName? (s : String) : Option Channel := ofLogicalName? s <|> ofWireName? s

def unknownMessage (s : String) : String := "unknown channel: " ++ Text.quoted s

/-- The name sent on the wire; a name that is not logical stays as it is. -/
def resolve (s : String) : String :=
  match ofLogicalName? s with
  | some c => c.wireName
  | none => s

/-- The server answers here with its host name. -/
def hostname : String := "HOSTNAME"

/-- The server answers here with the list of its channels. -/
def channels : String := "CHANNELS"

/-- The multicast group of the robot's message bus. -/
def busAddress : String := "udpm://239.255.76.67:7667?ttl=1"

end Channel

end RobotBridge
