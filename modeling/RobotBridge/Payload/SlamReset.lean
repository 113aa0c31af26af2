import RobotBridge.Payload.Form
import RobotBridge.Json.Record

/-! Commands that restart mapping and localisation. -/
namespace RobotBridge

open Json (Fields Decoder)

structure SlamReset where
  mode : Int32
  retainPose : Bool
  mapFile : String
deriving DecidableEq, Inhabited

namespace SlamReset

/-- The mode that keeps the one the robot is in. -/
def keepMode : Int32 := 99

def defaultMapFile : String := "current.map"

def default : SlamReset := ⟨keepMode, false, defaultMapFile⟩

def form (r : SlamReset) : Form :=
  .record [("slam_mode", .integer r.mode.toInt), ("retain_pose", .boolean r.retainPose),
    ("slam_map_location", .string r.mapFile)]

def ofJson : Decoder SlamReset :=
  .record "SlamReset" (SlamReset.mk <$> .required "slam_mode" .int32
    <*> .required "retain_pose" .boolean <*> .required "slam_map_location" .string)

end SlamReset

end RobotBridge
