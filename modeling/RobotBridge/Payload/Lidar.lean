import RobotBridge.Payload.Form
import RobotBridge.Json.Record

/-! Lidar scans. -/
namespace RobotBridge

open Numeric (Single)
open Json (Fields Decoder)

/-- One full scan; a range was measured at the angle of the same index. -/
structure LidarScan where
  utime : Option Int64 := none
  numRanges : Option UInt64 := none
  ranges : List Single
  thetas : List Single
deriving DecidableEq, Inhabited

namespace LidarScan

def form (s : LidarScan) : Form :=
  .record (Form.optionalMember "utime" (s.utime.map .time) ++
    Form.optionalMember "num_ranges" (s.numRanges.map .word) ++
    [("ranges", .list (s.ranges.map .single)), ("thetas", .list (s.thetas.map .single))])

def ofJson : Decoder LidarScan :=
  .record "LidarScan" (LidarScan.mk <$> .optional "utime" .int64 <*> .optional "num_ranges" .size
    <*> .required "ranges" (.list .single) <*> .required "thetas" (.list .single))

end LidarScan

end RobotBridge
