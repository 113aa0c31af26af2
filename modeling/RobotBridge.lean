import RobotBridge.CommandLine.Parse
import RobotBridge.CommandLine.Run
import RobotBridge.CommandLine.Settings
import RobotBridge.Config.File
import RobotBridge.Main
import RobotBridge.Robot
import RobotBridge.Session.Settle
import RobotBridge.WebSocket.Link
import RobotBridge.WebSocket.Task
import RobotBridge.Proofs.Session.Change
import RobotBridge.Proofs.Session.Run
import RobotBridge.Proofs.Session.TableInvariant
import RobotBridge.Proofs.Session.Replies
import RobotBridge.Proofs.Session.Stream
import RobotBridge.Proofs.Session.Connection
import RobotBridge.Proofs.Session.Delivery
import RobotBridge.Proofs.Session.Schedule
import RobotBridge.Proofs.Session.HandlerStream
import RobotBridge.Proofs.Session.HandlerGuarantees
import RobotBridge.Proofs.Session.Renumbering
import RobotBridge.Proofs.Session.Isolation
import RobotBridge.Proofs.Connection.Traffic
import RobotBridge.Proofs.Connection.Contract
import RobotBridge.Proofs.WebSocket.Trace
import RobotBridge.Proofs.Envelope.RoundTrip
import RobotBridge.Proofs.Envelope.Acceptance
import RobotBridge.Proofs.Exchange.Law
import RobotBridge.Proofs.Subscription.Law
import RobotBridge.Proofs.Payload.Cells
import RobotBridge.Proofs.Payload.RoundTrip
import RobotBridge.Proofs.Session.Log
import RobotBridge.Proofs.Session.Occurrence
import RobotBridge.Proofs.Session.Lines
import RobotBridge.Proofs.Session.OneShot
import RobotBridge.Proofs.Session.Rest
import RobotBridge.Proofs.Session.EndToEnd
import RobotBridge.Proofs.Session.Custody
import RobotBridge.Proofs.Session.Waiting
import RobotBridge.Proofs.Session.Termination
import RobotBridge.Proofs.Session.Quiescence
import RobotBridge.Proofs.Session.Shutdown
import RobotBridge.Proofs.Session.Conduct
import RobotBridge.Proofs.Session.Record
import RobotBridge.Proofs.Session.Errands
import RobotBridge.Proofs.Robot.Motion
import RobotBridge.Proofs.Session.Sole
import RobotBridge.Proofs.CommandLine.Follow
import RobotBridge.Proofs.Robot.Stop
import RobotBridge.Proofs.Config.Layers
import RobotBridge.Proofs.Robot.Alias
