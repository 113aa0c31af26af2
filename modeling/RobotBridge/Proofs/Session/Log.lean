import RobotBridge.Proofs.Connection.Traffic
import RobotBridge.Proofs.Exchange.Reply
import RobotBridge.Proofs.Session.Schedule
import Mathlib.Logic.Function.Basic

/-! A log of what happens to the connections of a session, line by line and with its time, under any
schedule of acts and moves. -/
namespace RobotBridge

/-- The exchange that a script starts with, and what its outcome leads to. -/
def Script.oneShot? {α : Type} : Script α → Option (Exchange × (Exchange.Outcome → Script α))
  | .request channel next =>
    some (.request channel, fun outcome => next (Session.requestResult channel outcome))
  | .publish channel dtype data next =>
    some (.publish channel dtype data, fun outcome => next (Session.publishResult channel outcome))
  | _ => none

namespace Session
open Table (Input Output)

variable {α : Type}

inductive Note (α : Type) where
  | connected (line : Nat) (owner : Owner) (channel : String)
  /-- A one-shot call starts on the line. -/
  | began (line call : Nat) (script : Script α)
  | passed (line : Nat) (use : Line.Use)
  /-- The one-shot call runs out of time. -/
  | expired (line : Nat)
  /-- The one-shot call goes on with this. -/
  | returned (line : Nat) (script : Script α)

abbrev Log (α : Type) := List (Nat × Note α)

def stage? (s : Session α) (id : Nat) : Option (Stage α) := (s.call? id).map CallState.stage

def exchangeNotes (line : Nat) (actions : List Exchange.Action) (after : Option (Stage α)) : List (Note α) :=
  (Exchange.commands actions).map (fun c => .passed line (.queue c)) ++
    match after with
    | some (.ready script) => [.returned line script]
    | _ => []

def outputNote (s : Session α) : Output → List (Note α)
  | .opened connection channel => [.connected s.lines.length (.table connection) channel]
  | .command connection c => ((s.lineOf? connection).map fun n => .passed n (.queue c)).toList
  | _ => []

def outputNotes (s : Session α) : List Output → List (Note α)
  | [] => []
  | output :: rest => s.outputNote output ++ (s.applyOutput output).1.outputNotes rest

def notes (s : Session α) (m : Move) (s' : Session α) : List (Note α) :=
  match m with
  | .resume id =>
    match s.stage? id with
    | some (.ready script) =>
      match script.oneShot? with
      | some (x, _) =>
        [.connected s.lines.length (.call id) x.channel, .began s.lines.length id script]
      | none => []
    | _ => []
  | .take id =>
    match s.stage? id with
    | some (.exchanging line x _ _) =>
      match (s.line? line).map Line.nextEvent with
      | some (_, .ready e) =>
        .passed line (.yield e) :: exchangeNotes line (x.onEvent e).2 (s'.stage? id)
      | _ => exchangeNotes line [] (s'.stage? id)
    | _ => []
  | .expire id =>
    match s.stage? id with
    | some (.exchanging line x _ _) =>
      .expired line :: exchangeNotes line (x.onTimeout s.timeout).2 (s'.stage? id)
    | _ => []
  | .forward n =>
    match (s.line? n).map Line.nextEvent with
    | some (_, .ready e) => [.passed n (.yield e)]
    | _ => []
  | .command | .event | .abandon =>
    match s.inputOf? m with
    | some input => s.outputNotes (s.table.step input).2
    | none => []
  | .look _ => []

/-- What an act does on lines. Only a transport that is there can emit events. -/
def actNotes (s : Session α) : Act α → List (Note α)
  | .emit n e =>
    match s.line? n with
    | some p => if p.attached then [.passed n (.emit e)] else []
    | none => []
  | .dropTransport n => ((s.line? n).map fun _ => .passed n .vanish).toList
  | _ => []

def stamp (time : Nat) (notes : List (Note α)) : Log α := notes.map (time, ·)

/-- The sessions that one with a time limit can come to, in any order of acts and moves, with all
that has happened on their lines. -/
inductive Logged (timeout : Duration) : Session α → Log α → Prop
  | start : Logged timeout { timeout } []
  | act {s log} (a : Act α) : Logged timeout s log →
      Logged timeout (s.act a) (log ++ stamp s.clock (s.actNotes a))
  | move {s s' log m effects} : Logged timeout s log → s.perform m = some (s', effects) →
      Logged timeout s' (log ++ stamp s.clock (s.notes m s'))

/-! ### What a log says of one line -/

def pick {β : Type} (f : Note α → Option β) (log : Log α) : List β := log.filterMap fun p => f p.2

@[simp] def Note.use? (n : Nat) : Note α → Option Line.Use
  | .passed m use => if m = n then some use else none
  | _ => none

@[simp] def Note.opening? (n : Nat) : Note α → Option (Owner × String)
  | .connected m owner channel => if m = n then some (owner, channel) else none
  | _ => none

@[simp] def Note.start? (n : Nat) : Note α → Option (Nat × Script α)
  | .began m id script => if m = n then some (id, script) else none
  | _ => none

@[simp] def Note.script? (n : Nat) : Note α → Option (Script α)
  | .returned m script => if m = n then some script else none
  | _ => none

@[simp] def Note.expiry? (n : Nat) : Note α → Option Unit
  | .expired m => if m = n then some () else none
  | _ => none

def traffic (n : Nat) (log : Log α) : List Line.Use := pick (Note.use? n) log

def emitted (n : Nat) (log : Log α) : List Event := Line.emitted (traffic n log)

def yielded (n : Nat) (log : Log α) : List Event := Line.yielded (traffic n log)

def queued (n : Nat) (log : Log α) : List Command := Line.queued (traffic n log)

def openings (n : Nat) (log : Log α) : List (Owner × String) := pick (Note.opening? n) log

def starts (n : Nat) (log : Log α) : List (Nat × Script α) := pick (Note.start? n) log

/-- What the one-shot call of a line has gone on with. -/
def returned (n : Nat) (log : Log α) : List (Script α) := pick (Note.script? n) log

def expiries (n : Nat) (log : Log α) : List Unit := pick (Note.expiry? n) log

end Session

end RobotBridge
