import RobotBridge.Payload.Form
import RobotBridge.Json.Record

/-! Poses, velocity commands and paths. -/
namespace RobotBridge

open Numeric (Single)
open Json (Fields Decoder)

/-- A planar pose, in meters and radians. -/
structure Pose where
  utime : Option Int64 := none
  x : Single
  y : Single
  theta : Single
deriving DecidableEq, Inhabited

namespace Pose

def origin : Pose := { x := .zero, y := .zero, theta := .zero }

def form (p : Pose) : Form :=
  .record (Form.optionalMember "utime" (p.utime.map .time) ++
    [("x", .single p.x), ("y", .single p.y), ("theta", .single p.theta)])

def ofJson : Decoder Pose :=
  .record "Pose2D" (Pose.mk <$> .optional "utime" .int64
    <*> .required "x" .single <*> .required "y" .single <*> .required "theta" .single)

end Pose

structure Twist where
  utime : Option Int64 := none
  vx : Single
  vy : Single
  wz : Single
deriving DecidableEq, Inhabited

namespace Twist

def zero : Twist := { vx := .zero, vy := .zero, wz := .zero }

/-- Whether the command is the halting one; velocities are compared as numbers. -/
def isZero (t : Twist) : Bool :=
  t.utime.isNone && t.vx.isZero && t.vy.isZero && t.wz.isZero

def form (t : Twist) : Form :=
  .record (Form.optionalMember "utime" (t.utime.map .time) ++
    [("vx", .single t.vx), ("vy", .single t.vy), ("wz", .single t.wz)])

def ofJson : Decoder Twist :=
  .record "Twist2D" (Twist.mk <$> .optional "utime" .int64
    <*> .required "vx" .single <*> .required "vy" .single <*> .required "wz" .single)

end Twist

/-- Waypoints for the motion controller. The length is sent beside the poses. -/
structure Path where
  utime : Option Int64 := none
  pathLength : UInt64
  poses : List Pose
deriving DecidableEq, Inhabited

namespace Path

def ofPoses (poses : List Pose) : Path := { pathLength := .ofNat poses.length, poses }

/-- The path that makes the controller drop its goal. -/
def empty : Path := ofPoses []

def form (p : Path) : Form :=
  .record (Form.optionalMember "utime" (p.utime.map .time) ++
    [("path_length", .word p.pathLength), ("path", .list (p.poses.map Pose.form))])

def ofJson : Decoder Path :=
  .record "Path2D" (Path.mk <$> .optional "utime" .int64
    <*> .required "path_length" .size <*> .required "path" (.list Pose.ofJson))

end Path

end RobotBridge
