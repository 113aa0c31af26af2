import RobotBridge.Config.Basic
import RobotBridge.Toml.Parse

/-! Settings in a file. Every setting has a default, and so has a file that is missing. A section is a
table, or an array of its leading settings in order; keys of other names are ignored. -/
namespace RobotBridge.Config

inductive FileError where
  /-- There is a file but its text cannot be had. -/
  | unreadable
  /-- The text is no TOML, or a setting has the wrong type or is out of range. -/
  | malformed
deriving DecidableEq, Repr

def FileError.message : FileError → String
  | unreadable => "I/O error accessing config"
  | malformed => "failed to parse config TOML"

inductive Opened where
  | missing
  | refused
  | bytes (content : List UInt8)
deriving DecidableEq, Repr

/-- The setting of a section, by its key or its place; `none` if it is not set. -/
inductive Section where
  | entries (entries : Toml.Entries)
  | items (items : List Toml)

/-- The settings that a value gives to a section. A date is a section without any known setting. -/
def Section.ofValue : Toml → Except FileError Section
  | .table _ es => .ok (.entries es)
  | .moment => .ok (.entries [])
  | .array vs => .ok (.items vs)
  | .tables ts => .ok (.items (ts.map (.table .header)))
  | _ => .error .malformed

def Section.find? (s : Section) (key : String) (place : Nat) : Option Toml :=
  match s with
  | .entries es => es.lookup key
  | .items vs => vs[place]?

/-- The section of a name; one that is missing sets nothing. -/
def Section.named (name : String) (file : Toml.Entries) : Except FileError Section :=
  match file.lookup name with
  | none => .ok (.entries [])
  | some value => ofValue value

def text : Toml → Except FileError String
  | .string s => .ok s
  | _ => .error .malformed

def natural (bound : Nat) : Toml → Except FileError Nat
  | .integer n => if 0 ≤ n ∧ n ≤ bound then .ok n.toNat else .error .malformed
  | _ => .error .malformed

def Section.get {α : Type} (s : Section) (key : String) (place : Nat) (read : Toml → Except FileError α)
    (absent : α) : Except FileError α :=
  match s.find? key place with
  | none => .ok absent
  | some value => read value

def millis (value : Toml) : Except FileError Duration :=
  (natural (UInt64.size - 1) value).map .ofMillis

def ofEntries (file : Toml.Entries) : Except FileError Config := do
  let bridge ← Section.named "bridge" file
  let timeouts ← Section.named "timeouts" file
  return {
    host := ← bridge.get "host" 0 text default.host
    port := ← bridge.get "port" 1 (fun v => (natural (UInt16.size - 1) v).map .ofNat) default.port
    connectTimeout := ← timeouts.get "connect_ms" 0 millis default.connectTimeout
    requestTimeout := ← timeouts.get "request_ms" 1 millis default.requestTimeout
    closeTimeout := ← timeouts.get "close_ms" 2 millis default.closeTimeout }

def parse (content : String) : Except FileError Config :=
  match Toml.parse? content with
  | none => .error .malformed
  | some file => ofEntries file

def load : Opened → Except FileError Config
  | .missing => .ok default
  | .refused => .error .unreadable
  | .bytes content =>
    match String.fromUTF8? ⟨content.toArray⟩ with
    | none => .error .unreadable
    | some text => parse text

end RobotBridge.Config
