import RobotBridge.Session.Basic

/-! One schedule of a session: after each act, moves are made in a fixed order of preference until
none is left. -/
namespace RobotBridge.Session

variable {α : Type}

/-- Every move that could be meant, in the order of preference. -/
def moves (s : Session α) : List Move :=
  let calls := List.range s.calls.length
  calls.map .resume ++ [.command, .event] ++ (List.range s.lines.length).map .forward ++
    calls.map .take ++ calls.map .look ++ calls.map .expire ++ [.abandon]

def next? (s : Session α) : Option (Session α × List (Effect α)) :=
  s.moves.findSome? s.perform

def isSettled (s : Session α) : Bool := s.next?.isNone

def settleFor : Nat → Session α → Session α × List (Effect α)
  | 0, s => (s, [])
  | n + 1, s =>
    match s.next? with
    | none => (s, [])
    | some (s, effects) =>
      let (s, more) := settleFor n s
      (s, effects ++ more)

/-- More moves than what is queued and what waits can give rise to. -/
def budget (s : Session α) : Nat :=
  16 * (1 + s.calls.length + s.lines.length + s.commands.length + s.events.length +
    (s.calls.flatMap CallState.inbox).length + (s.lines.flatMap fun p => p.2.events).length)

def settle (s : Session α) : Session α × List (Effect α) := settleFor s.budget s

def actAndSettle (s : Session α) (a : Act α) : Session α × List (Effect α) := (s.act a).settle

/-- The transports take the commands that wait for them. -/
def collect (s : Session α) : Session α × List (Nat × Command) :=
  ({ s with lines := s.lines.map fun (owner, p) => (owner, { p with commands := [] }) },
    (s.lines.zipIdx.map fun ((_, p), n) => p.commands.map fun c => (n, c)).flatten)

end RobotBridge.Session
