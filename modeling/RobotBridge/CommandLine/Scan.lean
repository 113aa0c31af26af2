import RobotBridge.CommandLine.Basic

/-! Scanning arguments at one level: before the subcommand, or after it. Arguments are taken from
left to right, and the value of an option or place is checked only when the next one is met, so that
a request for help between the two is not an error. -/
namespace RobotBridge.CommandLine

inductive Refusal where
  | usage
  | help
  | version
deriving DecidableEq, Repr

structure Level where
  settings : List Setting
  places : List Place := []
  subcommands : List String := []
  /-- The program's version can be asked for. -/
  versioned : Bool := false

inductive Target where
  | setting (setting : Setting)
  | place (place : Place)

structure Scan where
  /-- Values of options, checked. -/
  found : List (Setting × String) := []
  /-- Values of places, checked. -/
  placed : List String := []
  /-- What has been met and not been checked, with its value once there is one. -/
  pending : Option (Target × Option String) := none
  /-- How many places have been met. -/
  reached : Nat := 0
  /-- Everything from here on is for places. -/
  trailing : Bool := false

namespace Scan

/-- An option counts once at a level. -/
def record (s : Scan) (setting : Setting) (value : String) : Except Refusal Scan :=
  if (s.found.lookup setting).isSome || !setting.accepts value then .error .usage
  else .ok { s with found := s.found ++ [(setting, value)] }

def resolve (s : Scan) : Except Refusal Scan :=
  let rest := { s with pending := none }
  match s.pending with
  | none => .ok s
  | some (_, none) => .error .usage
  | some (.setting setting, some value) => rest.record setting value
  | some (.place place, some value) =>
    if place.accepts value then .ok { rest with placed := rest.placed ++ [value] } else .error .usage

/-- Help and version are shown once all before them is in order. -/
def showing (s : Scan) (what : Refusal) : Except Refusal Scan := do
  let _ ← s.resolve
  .error what

/-- An option that waits for its value takes the next argument that is no option itself. -/
def awaits (s : Scan) : Option Setting :=
  match s.pending with
  | some (.setting setting, none) => some setting
  | _ => none

def long (level : Level) (s : Scan) (name : String) (attached : Option String) : Except Refusal Scan :=
  match level.settings.find? fun o => o.long = name with
  | some setting =>
    match setting.isSwitch, attached with
    | true, some _ => .error .usage
    | true, none => do
      let s ← s.resolve
      s.record setting "true"
    | false, some value => do
      let s ← s.resolve
      s.record setting value
    | false, none => do
      let s ← s.resolve
      return { s with pending := some (.setting setting, none) }
  | none =>
    if name = "help" ∧ attached = none then s.showing .help
    else if name = "version" ∧ level.versioned ∧ attached = none then s.showing .version
    else .error .usage

/-- Letters after one dash: only those for help and version are known. -/
def short (level : Level) (s : Scan) (letters : List Char) : Except Refusal Scan :=
  match letters with
  | 'h' :: _ => s.showing .help
  | 'V' :: _ => if level.versioned then s.showing .version else .error .usage
  | _ => .error .usage

/-- Digits with at most one point after the first, and an exponent without sign. -/
def looksNumeric (cs : List Char) : Bool :=
  let (mantissa, rest) := cs.span fun c => c.isDigit || c == '.'
  let mantissaFits := mantissa.head? != some '.' && mantissa.count '.' ≤ 1
  match rest with
  | [] => mantissaFits
  | mark :: digits =>
    mantissaFits && !mantissa.isEmpty && (mark == 'e' || mark == 'E') && !digits.isEmpty &&
      digits.all Char.isDigit

def bare (level : Level) (s : Scan) (arg : String) : Except Refusal Scan :=
  match s.awaits, s.trailing with
  | some setting, false => .ok { s with pending := some (.setting setting, some arg) }
  | _, _ => do
    match level.places[s.reached]? with
    | none => .error .usage
    | some place =>
      let s ← s.resolve
      return { s with pending := some (.place place, some arg), reached := s.reached + 1 }

def splitLong (cs : List Char) : String × Option String :=
  match cs.span (· != '=') with
  | (name, _ :: value) => (String.ofList name, some (String.ofList value))
  | (name, []) => (String.ofList name, none)

def step (level : Level) (s : Scan) (arg : String) : Except Refusal Scan :=
  if s.trailing then s.bare level arg
  else
    match arg.toList with
    | ['-', '-'] => .ok { s with trailing := true }
    | '-' :: '-' :: cs =>
      let (name, attached) := splitLong cs
      s.long level name attached
    | '-' :: c :: cs =>
      if level.places[s.reached]? = some .number && looksNumeric (c :: cs) then s.bare level arg
      else s.short level (c :: cs)
    | _ => s.bare level arg

/-- Scans up to a subcommand or to the end: what was found, and the subcommand with its arguments. -/
def run (level : Level) (s : Scan) : List String → Except Refusal (Scan × Option (String × List String))
  | [] => .ok (s, none)
  | arg :: rest =>
    if !s.trailing && s.awaits.isNone && level.subcommands.contains arg then .ok (s, some (arg, rest))
    else do
      let s ← s.step level arg
      run level s rest

/-- At the end of a level, variables of the environment stand in for options that were not given. -/
def finish (level : Level) (environment : Setting → Option String) (s : Scan) :
    Except Refusal (Scan × List (Setting × String)) := do
  let s ← s.resolve
  let absent := level.settings.filter fun o => (s.found.lookup o).isNone
  let supplied := absent.filterMap fun o => (environment o).map fun value => (o, value)
  if supplied.all (fun (o, value) => o.accepts value) && s.placed.length = level.places.length then
    return (s, supplied)
  else .error .usage

end Scan

end RobotBridge.CommandLine
