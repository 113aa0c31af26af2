import RobotBridge.CommandLine.Run

/-! What the program says of itself and of failures. -/
namespace RobotBridge.CommandLine

def version : String := "mbot 0.1.0\n"

def usage : String := "Usage: mbot [OPTIONS] <COMMAND>\n"

def help : String :=
  "\n".intercalate
    ["Command-line client for the MBot Bridge server", "", usage,
      "Commands:",
      "  hostname        Print the robot's hostname",
      "  channels        List the channels the server carries",
      "  odometry        Print the wheel-odometry pose",
      "  slam-pose       Print the SLAM pose",
      "  lidar           Print the latest lidar scan",
      "  map             Summarize the current SLAM map",
      "  read            Print the raw data on any channel (logical or wire name)",
      "  drive           Send one velocity command",
      "  stop            Stop the robot and clear its path",
      "  reset-odometry  Reset odometry to the origin",
      "  reset-slam      Restart SLAM",
      "  subscribe       Print every message pushed on a channel until Ctrl+C",
      "  help            Print this message", "",
      "Options:",
      "      --host <HOST>                        Hostname or IP address of the bridge server [env: MBOT_HOST=]",
      "      --port <PORT>                        WebSocket port of the bridge server [env: MBOT_PORT=]",
      "      --config <CONFIG>                    TOML configuration file. A missing file means defaults [env: MBOT_CONFIG=]",
      "      --request-timeout <REQUEST_TIMEOUT>  Request timeout in milliseconds",
      "  -h, --help                               Print help",
      "  -V, --version                            Print version", ""]

def refusalText : String :=
  "error: the arguments are not understood\n\n" ++ usage ++ "\nFor more information, try '--help'.\n"

/-- An error and what led to it, the outermost first. -/
def errorText : List String → String
  | [] => ""
  | [message] => "Error: " ++ message ++ "\n"
  | [message, cause] => "Error: " ++ message ++ "\n\nCaused by:\n    " ++ cause ++ "\n"
  | message :: causes =>
    "Error: " ++ message ++ "\n\nCaused by:\n" ++
      String.join (causes.zipIdx.map fun (cause, n) => "    " ++ toString n ++ ": " ++ cause ++ "\n")

def Failure.text (f : Failure) : String := errorText (f.context.reverse ++ [f.cause.message])

/-- A subcommand with the shutdown of the session behind it, whatever came of it. -/
def session (subcommand : Subcommand) : Script (Except Failure Unit) := do
  let result ← (run subcommand).run
  let _ ← Robot.shutdown.run
  return result

end RobotBridge.CommandLine
