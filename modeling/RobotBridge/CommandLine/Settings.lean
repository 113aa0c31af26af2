import RobotBridge.CommandLine.Basic
import RobotBridge.Config.File

/-! Layers of settings: built-in defaults, then the configuration file, then the command line. -/
namespace RobotBridge.CommandLine

def Settings.over (s : Settings) (c : Config) : Config :=
  { c with
    host := s.host.getD c.host
    port := s.port.getD c.port
    requestTimeout := s.requestTimeout.getD c.requestTimeout }

def Settings.config? (s : Settings) (openPath : String → Config.Opened) :
    Except Config.FileError Config := do
  let base ← match s.config with
    | some path => Config.load (openPath path)
    | none => .ok Config.default
  return s.over base

end RobotBridge.CommandLine
