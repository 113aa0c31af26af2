import RobotBridge.CommandLine.Help
import RobotBridge.CommandLine.Parse
import RobotBridge.CommandLine.Settings
import RobotBridge.Session.Settle
import RobotBridge.WebSocket.Link
import RobotBridge.WebSocket.Opening
import Std.Async.DNS
import Std.Async.TCP
import Std.Async.Timer
import Std.Sync.Channel

/-! The program: reads the command line, then lets a session act over WebSockets until the
subcommand is carried out. -/
namespace RobotBridge.Main

open CommandLine (Failure Subcommand)
open WebSocket (Frame Link)
open Std Async

inductive Arrival where
  | connected (n : Nat) (socket : TCP.Socket.Client) (rest : List UInt8)
  | unreachable (n : Nat) (reason : String)
  | bytes (n : Nat) (bytes : List UInt8)
  /-- The stream is over, with the error if there was one. -/
  | over (n : Nat) (error : Option String)
  | connectTimeout (n : Nat)
  | closeTimeout (n : Nat)
  | tick

instance : Inhabited Arrival := ⟨.tick⟩

structure Wire where
  link : Link
  socket : Option TCP.Socket.Client := none

structure State where
  config : Config
  arrivals : Channel.Sync Arrival
  session : Session (Except Failure Unit)
  wires : List Wire := []
  result : Option (Except Failure Unit) := none
  /-- When the session's clock was last set, in nanoseconds. -/
  seen : Nat

abbrev Program := StateT State IO

def post (arrivals : Channel.Sync Arrival) (a : Arrival) : Async Unit := show BaseIO Unit from arrivals.send a

def later (span : Duration) (a : Arrival) : Program Unit := do
  let arrivals := (← get).arrivals
  let _ ← show IO _ from Async.toIO do
    sleep (.ofNat (span.millis + 1))
    post arrivals a

/-! ### One connection -/

def received (n : Nat) (socket : TCP.Socket.Client) : Async Arrival := do
  try
    match ← socket.recv? 65536 with
    | some chunk => return .bytes n chunk.toList
    | none => return .over n none
  catch e => return .over n (some (toString e))

/-- Posts all that a socket receives. -/
partial def listen (arrivals : Channel.Sync Arrival) (n : Nat) (socket : TCP.Socket.Client) : Async Unit := do
  let a ← received n socket
  post arrivals a
  if let .bytes .. := a then listen arrivals n socket

/-- Reads the answer to a handshake. -/
partial def answered (socket : TCP.Socket.Client) (key bytes : List UInt8) : Async (List UInt8) := do
  match WebSocket.Opening.read key bytes with
  | .granted rest => return rest
  | .refused reason => throw (.userError reason)
  | .incomplete =>
    match ← socket.recv? 65536 with
    | some chunk => answered socket key (bytes ++ chunk.toList)
    | none => throw (.userError "WebSocket protocol error: Handshake not finished")

def reach (port : UInt16) : List Net.IPAddr → Async TCP.Socket.Client
  | [] => throw (.userError "IO error: no address can be reached")
  | address :: rest => do
    let socket ← show IO _ from TCP.Socket.Client.mk
    let target : Net.SocketAddress := match address with
      | .v4 addr => .v4 { addr, port }
      | .v6 addr => .v6 { addr, port }
    try
      socket.connect target
      return socket
    catch e =>
      if rest.isEmpty then throw e else reach port rest

def connect (config : Config) (arrivals : Channel.Sync Arrival) (n : Nat) : Async Unit := do
  try
    let addresses ← DNS.getAddrInfo config.host (toString config.port.toNat)
    let socket ← reach config.port addresses.toList
    let key := (← show IO _ from IO.getRandomBytes 16).toList
    let authority := config.host ++ ":" ++ toString config.port.toNat
    socket.send (WebSocket.Opening.request authority key).toUTF8
    let rest ← answered socket key []
    post arrivals (.connected n socket rest)
    listen arrivals n socket
  catch e =>
    post arrivals (.unreachable n (toString e))

/-- Writes a frame under a fresh mask. -/
def write (wire : Wire) (frame : Frame) : IO (Except String Unit) := do
  match wire.socket, (← IO.getRandomBytes 4).toList with
  | some socket, [a, b, c, d] =>
    try
      (socket.send ⟨(frame.encode ⟨a, b, c, d⟩).toArray⟩).block
      return .ok ()
    catch e =>
      return .error (toString e)
  | _, _ => return .error "IO error: not connected"

/-! ### The session and its connections -/

def wire? (n : Nat) : Program (Option Wire) := return (← get).wires[n]?

def setWire (n : Nat) (wire : Wire) : Program Unit :=
  modify fun s => { s with wires := s.wires.set n wire }

def act (a : Session.Act (Except Failure Unit)) : Program Unit :=
  modify fun s => { s with session := s.session.act a }

def setClock : Program Unit := do
  let now ← show IO Nat from IO.monoNanosNow
  act (.advance ⟨now - (← get).seen⟩)
  modify fun s => { s with seen := now }

def follow (n : Nat) (wire : Wire) (c : WebSocket.Consequence) : Program Unit := do
  for frame in c.replies do
    let _ ← show IO _ from write wire frame
  for e in c.events do
    act (.emit n e)
  let close : Program Unit := do
    act (.dropTransport n)
    if let some socket := wire.socket then
      try
        let _ ← show IO _ from socket.shutdown.toIO
      catch _ => return
  if wire.link.isFinished then close
  setWire n wire

def feed (n : Nat) (wire : Wire) (input : WebSocket.Input) : Program Unit := do
  let (link, c) := wire.link.step input
  follow n { wire with link } c

/-- Carries out the commands of a connection. -/
partial def pump (n : Nat) : Program Unit := do
  let some wire ← wire? n | return
  let some line := (← get).session.line? n | return
  if wire.link.transport.takesCommands then
    let (line, polled) := line.nextCommand
    let some frame := WebSocket.frameFor? polled | return
    modify fun s => { s with session := s.session.setLine n fun _ => line }
    let written ← show IO _ from write wire frame
    if let some input := WebSocket.Input.ofPoll? written polled then feed n wire input
    if frame.opcode = .close then later (← get).config.closeTimeout (.closeTimeout n)
    pump n

def perform : Session.Effect (Except Failure Unit) → Program Unit
  | .connected n _ => do
    let s ← get
    let link : Link := { transport := { connectTimeout := s.config.connectTimeout } }
    set { s with wires := s.wires ++ [{ link : Wire }] }
    let _ ← show IO _ from (connect s.config s.arrivals n).toIO
    later s.config.connectTimeout (.connectTimeout n)
    later s.config.requestTimeout .tick
  | .printed text => show IO Unit from do
    let out ← IO.getStdout
    out.putStrLn text
    out.flush
  | .finished _ result => modify fun s => { s with result := some result }
  | .handled .. => return

/-- Lets the session and its connections go on until nothing moves. -/
partial def settle : Program Unit := do
  let (session, effects) := (← get).session.settle
  modify fun s => { s with session }
  effects.forM perform
  (List.range (← get).wires.length).forM pump
  if !(← get).session.isSettled then settle

def arrive (a : Arrival) : Program Unit := do
  let step (n : Nat) (input : WebSocket.Input) : Program Unit := do
    if let some wire ← wire? n then feed n wire input
  let receive (n : Nat) (bytes : List UInt8) : Program Unit := do
    if let some wire ← wire? n then
      let (link, c) := wire.link.receive bytes
      follow n { wire with link } c
  match a with
  | .connected n socket rest =>
    if let some wire ← wire? n then
      let taken := ((← get).session.line? n).any fun p => (p.emit .opened).2
      let wire := { wire with socket := some socket }
      if wire.link.isFinished then
        let _ ← show IO _ from socket.shutdown.toIO
      else
        if taken then feed n wire .connected
        else
          let written ← show IO _ from write wire (.ofClose CloseCode.normal)
          feed n wire (.refused written.toBool)
          later (← get).config.closeTimeout (.closeTimeout n)
        receive n rest
  | .unreachable n reason => step n (.unreachable reason)
  | .bytes n bytes => receive n bytes
  | .over n none =>
    step n (.received (.broken "WebSocket protocol error: Connection reset without closing handshake"))
  | .over n (some reason) => step n (.received (.broken reason))
  | .connectTimeout n => step n .connectTimeout
  | .closeTimeout n => step n .closeTimeout
  | .tick => return

/-- Runs until there is a result and every open connection is closed. -/
partial def run : Program (Except Failure Unit) := do
  settle
  let s ← get
  match s.result with
  | some result =>
    if s.wires.any fun wire => wire.link.isLive then wait else return result
  | none => wait
where
  wait : Program (Except Failure Unit) := do
    let a ← show BaseIO Arrival from (← get).arrivals.recv
    setClock
    arrive a
    run

/-! ### The command line -/

def openFile (path : String) : IO Config.Opened := do
  try
    return .bytes (← IO.FS.readBinFile path).toList
  catch
    | .noFileOrDirectory .. => return .missing
    | _ => return .refused

def carryOut (config : Config) (subcommand : Subcommand) : IO UInt32 := do
  let arrivals ← Channel.Sync.new
  let session : Session (Except Failure Unit) := { timeout := config.requestTimeout }
  let session := (session.act (.call (CommandLine.session subcommand))).act .detach
  let (result, _) ← run.run { config, arrivals, session, seen := ← IO.monoNanosNow }
  match result with
  | .ok _ => return 0
  | .error failure =>
    (← IO.getStderr).putStr failure.text
    return 1

def ofArgs (args : List String) : IO UInt32 := do
  let supplied ← [CommandLine.Setting.host, .port, .config].filterMapM fun setting => do
    let some name := setting.variableName | return none
    return (← IO.getEnv name).map fun value => (setting, value)
  match CommandLine.parse (fun setting => supplied.lookup setting) args with
  | .error .help =>
    (← IO.getStdout).putStr CommandLine.help
    return 0
  | .error .version =>
    (← IO.getStdout).putStr CommandLine.version
    return 0
  | .error .usage =>
    (← IO.getStderr).putStr CommandLine.refusalText
    return 2
  | .ok (settings, subcommand) =>
    let file ← match settings.config with
      | some path => openFile path
      | none => pure .missing
    match settings.config? fun _ => file with
    | .ok config => carryOut config subcommand
    | .error e =>
      let context := "cannot load config from " ++ settings.config.getD ""
      (← IO.getStderr).putStr (CommandLine.errorText [context, e.message])
      return 1

end RobotBridge.Main

def main (args : List String) : IO UInt32 := RobotBridge.Main.ofArgs args
