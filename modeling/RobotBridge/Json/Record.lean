import RobotBridge.Json.Decode

/-! Reading records. An object is checked member by member in the order of its keys, then fields
that are missing are reported in declaration order; members that belong to no field are skipped.
An array gives the fields in declaration order. -/
namespace RobotBridge.Json

/-- A reader of some fields of a record, in declaration order. -/
structure Fields (α : Type) where
  /-- The fault of a member, by the name of its field. -/
  faults : List (String × (Json → Option DecodeError))
  ofMembers : List (String × Json) → Except DecodeError α
  /-- Takes items from the front, given the error for an array that ends before a numbered field. -/
  ofItems : (Nat → DecodeError) → Nat → List Json → Except DecodeError (α × Nat × List Json)

namespace Fields

variable {α β : Type}

def required (name : String) (d : Decoder α) : Fields α where
  faults := [(name, d.fault)]
  ofMembers members :=
    match members.lookup name with
    | some j => d j
    | none => .error (.missingField name)
  ofItems tooShort index
    | [] => .error (tooShort index)
    | j :: rest => (d j).map fun a => (a, index + 1, rest)

/-- A field with a value for its absence, also at the end of an array. -/
def defaulting (name : String) (absent : α) (d : Decoder α) : Fields α where
  faults := [(name, d.fault)]
  ofMembers members :=
    match members.lookup name with
    | some j => d j
    | none => .ok absent
  ofItems _ index
    | [] => .ok (absent, index + 1, [])
    | j :: rest => (d j).map fun a => (a, index + 1, rest)

/-- A field that may be absent or null. -/
def optional (name : String) (d : Decoder α) : Fields (Option α) :=
  defaulting name none d.nullable

def map (f : α → β) (x : Fields α) : Fields β where
  faults := x.faults
  ofMembers members := (x.ofMembers members).map f
  ofItems tooShort index items := (x.ofItems tooShort index items).map fun (a, rest) => (f a, rest)

/-- The fields of `x` after those of `g`. -/
def seq (g : Fields (α → β)) (x : Unit → Fields α) : Fields β where
  faults := g.faults ++ (x ()).faults
  ofMembers members := do
    let f ← g.ofMembers members
    let a ← (x ()).ofMembers members
    return f a
  ofItems tooShort index items := do
    let (f, index, items) ← g.ofItems tooShort index items
    let (a, index, items) ← (x ()).ofItems tooShort index items
    return (f a, index, items)

instance : Functor Fields := ⟨map, fun a x => map (fun _ => a) x⟩

instance : Seq Fields := ⟨seq⟩

def firstFault (faults : List (String × (Json → Option DecodeError))) (members : List (String × Json)) :
    Option DecodeError :=
  members.findSome? fun (key, j) => (faults.lookup key).bind (· j)

end Fields

def Decoder.record {α : Type} (type : String) (fields : Fields α) : Decoder α
  | .object members =>
    match Fields.firstFault fields.faults members with
    | some e => .error e
    | none => fields.ofMembers members
  | .array items =>
    let tooShort index := .invalidLength index
      ("struct " ++ type ++ " with " ++ toString fields.faults.length ++ " elements")
    match fields.ofItems tooShort 0 items with
    | .error e => .error e
    | .ok (a, _, []) => .ok a
    | .ok (_, _, _ :: _) => .error (.invalidLength items.length "fewer elements in array")
  | j => .error (.invalidType j ("struct " ++ type))

end RobotBridge.Json
