import RobotBridge.Payload.Grid
import RobotBridge.Text.Duration

/-! How a call to the robot fails. -/
namespace RobotBridge

inductive CallError where
  /-- The server answered with an error envelope. -/
  | remote (channel message : String)
  /-- The answer was no response, or no envelope at all. -/
  | protocol (channel : String)
  /-- The connection could not be opened, broke, or closed before an answer. -/
  | connection (channel reason : String)
  /-- The subscription is in a state that does not allow the call. -/
  | invalidState (channel reason : String)
  /-- No answer came within the request timeout. -/
  | timeout (channel : String) (after : Duration)
  /-- The answer came but its data is not of the expected type. -/
  | payload (channel : String) (error : PayloadError)
  /-- The session has shut down. -/
  | sessionClosed

namespace CallError

def message : CallError → String
  | remote channel text => "MBot API error: " ++ text ++ " on channel: " ++ channel
  | protocol channel => "cannot parse response on channel: " ++ channel
  | connection channel reason => "connection error on channel " ++ channel ++ ": " ++ reason
  | invalidState channel reason => "invalid state on channel " ++ channel ++ ": " ++ reason
  | timeout channel after => "request on channel " ++ channel ++ " timed out after " ++ after.text
  | payload channel error => "unexpected payload on channel " ++ channel ++ ": " ++ error.message
  | sessionClosed => "session is closed"

def channel? : CallError → Option String
  | remote channel _ | protocol channel | connection channel _ | invalidState channel _
  | timeout channel _ | payload channel _ => some channel
  | sessionClosed => none

end CallError

end RobotBridge
