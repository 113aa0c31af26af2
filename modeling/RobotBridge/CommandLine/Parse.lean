import RobotBridge.CommandLine.Scan

/-! Reading a whole command line: shared settings, a subcommand and its arguments. -/
namespace RobotBridge.CommandLine

def levels : List (String × Level) :=
  [("hostname", { settings := Setting.shared }),
    ("channels", { settings := Setting.shared }),
    ("odometry", { settings := Setting.shared }),
    ("slam-pose", { settings := Setting.shared }),
    ("lidar", { settings := Setting.shared }),
    ("map", { settings := Setting.shared }),
    ("read", { settings := Setting.shared, places := [.text] }),
    ("drive", { settings := Setting.shared, places := [.number, .number, .number] }),
    ("stop", { settings := Setting.shared }),
    ("reset-odometry", { settings := Setting.shared }),
    ("reset-slam", { settings := [.mode, .retainPose, .mapFile] ++ Setting.shared }),
    ("subscribe", { settings := .count :: Setting.shared, places := [.text] })]

def top : Level where
  settings := Setting.shared
  subcommands := levels.map (·.1) ++ ["help"]
  versioned := true

def subcommandOf? (name : String) (s : Scan) : Option Subcommand :=
  let number (n : Nat) : Option Numeric.Single := s.placed[n]?.bind Numeric.Binary.ofText?
  match name with
  | "hostname" => some .hostname
  | "channels" => some .channels
  | "odometry" => some .odometry
  | "slam-pose" => some .slamPose
  | "lidar" => some .lidar
  | "map" => some .map
  | "read" => s.placed[0]?.map .read
  | "drive" => do return .drive (← number 0) (← number 1) (← number 2)
  | "stop" => some .stop
  | "reset-odometry" => some .resetOdometry
  | "reset-slam" =>
    some (.resetSlam
      { mode := ((s.found.lookup .mode).bind mode?).getD SlamReset.keepMode
        retainPose := (s.found.lookup .retainPose).isSome
        mapFile := (s.found.lookup .mapFile).getD SlamReset.defaultMapFile })
  | "subscribe" =>
    s.placed[0]?.map fun channel => .subscribe channel ((s.found.lookup .count).bind (natural? 1))
  | _ => none

/-- After `help` there may be one subcommand to explain. -/
def helpRefusal (args : List String) : Refusal :=
  match args with
  | [] => .help
  | [name] => if top.subcommands.contains name then .help else .usage
  | _ => .usage

/-- A value given after the subcommand counts before one given ahead of it, and either before the
environment. -/
def settingsOf (inner outer supplied : List (Setting × String)) : Settings :=
  let value (setting : Setting) : Option String :=
    inner.lookup setting <|> outer.lookup setting <|> supplied.lookup setting
  { host := value .host
    port := (value .port).bind port?
    config := value .config
    requestTimeout := ((value .requestTimeout).bind (natural? 0)).map .ofMillis }

def parse (environment : Setting → Option String) (args : List String) :
    Except Refusal (Settings × Subcommand) := do
  let (outer, rest) ← Scan.run top {} args
  match rest with
  | none => .error .usage
  | some ("help", args) => .error (helpRefusal args)
  | some (name, args) =>
    match levels.lookup name with
    | none => .error .usage
    | some level =>
      let (inner, _) ← Scan.run level {} args
      let (inner, supplied) ← inner.finish level environment
      let (outer, suppliedOuter) ← outer.finish top environment
      match subcommandOf? name inner with
      | none => .error .usage
      | some subcommand =>
        return (settingsOf inner.found outer.found (supplied ++ suppliedOuter), subcommand)

end RobotBridge.CommandLine
