/-! Documents of configuration files: the values of TOML, and the rules by which headers and keys
build tables. A table is defined once; dotted keys extend only tables that dotted keys have made. -/
namespace RobotBridge

inductive Toml.Origin where
  /-- By a header of its own. -/
  | header
  /-- As a part of the path in another header. -/
  | implied
  /-- By a dotted key. -/
  | dotted
  /-- In braces, as a value. -/
  | inline
deriving DecidableEq, Repr

inductive Toml where
  | string (s : String)
  | integer (n : Int)
  | float
  | boolean (b : Bool)
  /-- A date, a time or both. -/
  | moment
  | array (items : List Toml)
  | table (origin : Toml.Origin) (entries : List (String × Toml))
  /-- Tables under one doubly bracketed header, the latest last. -/
  | tables (items : List (List (String × Toml)))
deriving Inhabited

namespace Toml

abbrev Entries := List (String × Toml)

def replace (key : String) (value : Toml) (entries : Entries) : Entries :=
  entries.map fun e => if e.1 = key then (key, value) else e

def onLast (f : Entries → Option Entries) (items : List Entries) : Option (List Entries) := do
  let last ← items.getLast?
  return items.dropLast ++ [← f last]

/-- Whether a dotted key may pass through a table, or end in it. -/
def Origin.extends (origin : Origin) (ends : Bool) : Bool :=
  match origin with
  | dotted => true
  | implied => !ends
  | header | inline => false

def insert (value : Toml) : List String → Entries → Option Entries
  | [], _ => none
  | [key], entries => if (entries.lookup key).isSome then none else some (entries ++ [(key, value)])
  | key :: next :: rest, entries =>
    match entries.lookup key with
    | none => do
      let inner ← insert value (next :: rest) []
      return entries ++ [(key, .table .dotted inner)]
    | some (.table origin inner) => do
      guard (origin.extends rest.isEmpty)
      let inner ← insert value (next :: rest) inner
      return replace key (.table origin inner) entries
    | some (.tables items) => do
      guard !rest.isEmpty
      let items ← onLast (insert value (next :: rest)) items
      return replace key (.tables items) entries
    | some _ => none

/-- Walks along a path of tables, making those that are missing, and changes what is at its end. -/
def under (f : Option Toml → Option Toml) : List String → Entries → Option Entries
  | [], _ => none
  | [key], entries => do
    let value ← f (entries.lookup key)
    return if (entries.lookup key).isSome then replace key value entries else entries ++ [(key, value)]
  | key :: next :: rest, entries =>
    match entries.lookup key with
    | none => do
      let inner ← under f (next :: rest) []
      return entries ++ [(key, .table .implied inner)]
    | some (.table .inline _) => none
    | some (.table origin inner) => do
      let inner ← under f (next :: rest) inner
      return replace key (.table origin inner) entries
    | some (.tables items) => do
      let items ← onLast (under f (next :: rest)) items
      return replace key (.tables items) entries
    | some _ => none

/-- A header defines a table that is new or so far only implied. -/
def openTable : List String → Entries → Option Entries :=
  under fun
    | none => some (.table .header [])
    | some (.table .implied inner) => some (.table .header inner)
    | some _ => none

/-- A doubly bracketed header adds a table to those under the same header. -/
def openNext : List String → Entries → Option Entries :=
  under fun
    | none => some (.tables [[]])
    | some (.tables items) => some (.tables (items ++ [[]]))
    | some _ => none

def insertUnder (header key : List String) (value : Toml) (entries : Entries) : Option Entries :=
  match header with
  | [] => insert value key entries
  | header =>
    under (fun
      | some (.table origin inner) => (insert value key inner).map (.table origin)
      | some (.tables items) => (onLast (insert value key) items).map .tables
      | _ => none) header entries

end Toml

end RobotBridge
