import RobotBridge.Proofs.Json.Record

/-! Reading back what was written: a decoder restores a value from a document under a condition, and of
any other document of this writing it makes nothing. Fields, records and lists restore what their parts do. -/
namespace RobotBridge.Json

variable {α β : Type} {a : α} {b : β} {P Q : Prop} {members : List (String × Json)} {name : String}

/-- The decoder reads the value from the document if the condition holds, and fails if it does not. -/
def Decoder.Restores (d : Decoder α) (j : Json) (a : α) (P : Prop) : Prop := ∀ r, d j = .ok r ↔ P ∧ r = a

def Fields.Restores (x : Fields α) (members : List (String × Json)) (a : α) (P : Prop) : Prop :=
  ∀ r, x.ofMembers members = .ok r ↔ P ∧ r = a

namespace Decoder

variable {d : Decoder α} {j : Json}

theorem Restores.ok (h : d.Restores j a P) (hp : P) : d j = .ok a := (h a).mpr ⟨hp, rfl⟩

theorem Restores.congr (h : d.Restores j a P) (hpq : P ↔ Q) : d.Restores j a Q := by
  intro r
  rw [h r, hpq]

theorem restores_string (s : String) : string.Restores (.string s) s True := by
  intro r
  rw [string_eq_ok, Json.string.injEq, true_and, eq_comm]

theorem restores_boolean (b : Bool) : boolean.Restores (.boolean b) b True := by
  intro r
  rw [boolean_eq_ok, Json.boolean.injEq, true_and, eq_comm]

theorem restores_size (n : UInt64) : size.Restores (.integer n.toNat) n True := by
  intro r
  rw [size_eq_ok, Json.integer.injEq, true_and, Int.natCast_inj, UInt64.toNat_inj, eq_comm]

theorem restores_int32 (n : Int32) : int32.Restores (.integer n.toInt) n True := by
  intro r
  rw [int32, except_map_eq_ok]
  constructor
  · rintro ⟨m, hm, rfl⟩
    obtain ⟨heq, -⟩ := integer_eq_ok.mp hm
    obtain rfl := Json.integer.inj heq
    exact ⟨trivial, Int32.ofInt_toInt n⟩
  · rintro ⟨-, rfl⟩
    exact ⟨r.toInt, integer_eq_ok.mpr ⟨rfl, r.le_toInt, r.toInt_le⟩, Int32.ofInt_toInt r⟩

theorem restores_int64 (n : Int64) : int64.Restores (.integer n.toInt) n True := by
  intro r
  rw [int64, except_map_eq_ok]
  constructor
  · rintro ⟨m, hm, rfl⟩
    obtain ⟨heq, -⟩ := integer_eq_ok.mp hm
    obtain rfl := Json.integer.inj heq
    exact ⟨trivial, Int64.ofInt_toInt n⟩
  · rintro ⟨-, rfl⟩
    exact ⟨r.toInt, integer_eq_ok.mpr ⟨rfl, r.le_toInt, r.toInt_le⟩, Int64.ofInt_toInt r⟩

/-- A value that is not written as null is restored where null could stand. -/
theorem Restores.nullable (h : d.Restores j a P) (hnull : j ≠ .null) : d.nullable.Restores j (some a) P := by
  intro r
  have hread : d.nullable j = (d j).map some := by
    unfold Decoder.nullable
    split
    case h_1 => contradiction
    case h_2 => rfl
  rw [hread, except_map_eq_ok]
  simp [h _, and_assoc, eq_comm]

theorem restores_list {items : List α} {write : α → Json} {P : α → Prop}
    (h : ∀ a, d.Restores (write a) a (P a)) : (list d).Restores (.array (items.map write)) items (∀ a ∈ items, P a) := by
  intro r
  change (items.map write).mapM d = .ok r ↔ _
  induction items generalizing r with
  | nil => simp [pure, Except.pure, eq_comm]
  | cons a items ih =>
    rw [List.map_cons, List.mapM_cons, List.forall_mem_cons]
    constructor
    · intro hread
      cases hfirst : d (write a) with
      | error e =>
        rw [hfirst] at hread
        contradiction
      | ok b =>
        cases hrest : (items.map write).mapM d with
        | error e =>
          rw [hfirst, hrest] at hread
          contradiction
        | ok bs =>
          rw [hfirst, hrest] at hread
          obtain rfl := Except.ok.inj hread
          obtain ⟨hp, rfl⟩ := (h a b).mp hfirst
          obtain ⟨hps, rfl⟩ := (ih bs).mp hrest
          exact ⟨⟨hp, hps⟩, rfl⟩
    · rintro ⟨⟨hp, hrest⟩, rfl⟩
      rw [(h a).ok hp, (ih items).mpr ⟨hrest, rfl⟩]
      rfl

end Decoder

namespace Fields

variable {d : Decoder α} {j : Json} {x : Fields α}

theorem restores_required (hlookup : members.lookup name = some j) (h : d.Restores j a P) :
    (required name d).Restores members a P := by
  intro r
  rw [required_eq_ok, hlookup]
  simp [h r]

theorem restores_optional {value : Option α} {write : α → Json} (hlookup : members.lookup name = value.map write)
    (h : ∀ a, d.Restores (write a) a True) (hnull : ∀ a, write a ≠ .null) :
    (optional name d).Restores members value True := by
  intro r
  rw [optional, defaulting_eq_ok, hlookup]
  cases value with
  | none => simp
  | some a => simp [(h a).nullable (hnull a) r]

theorem restores_defaulting {absent : α} (hlookup : members.lookup name = some j) (h : d.Restores j a P) :
    (defaulting name absent d).Restores members a P := by
  intro r
  rw [defaulting_eq_ok, hlookup]
  simp [h r]

theorem Restores.map {f : α → β} (hx : x.Restores members a P) : (f <$> x).Restores members (f a) P := by
  intro r
  rw [map_eq_ok]
  simp [hx _, and_assoc, eq_comm]

theorem Restores.seq {g : Fields (α → β)} {f : α → β} (hg : g.Restores members f Q) (hx : x.Restores members a P) :
    (g <*> x).Restores members (f a) (Q ∧ P) := by
  intro r
  rw [seq_eq_ok]
  simp only [hg _, hx _]
  constructor
  · rintro ⟨_, _, ⟨hq, rfl⟩, ⟨hp, rfl⟩, rfl⟩
    exact ⟨⟨hq, hp⟩, rfl⟩
  · rintro ⟨⟨hq, hp⟩, rfl⟩
    exact ⟨f, a, ⟨hq, rfl⟩, ⟨hp, rfl⟩, rfl⟩

end Fields

/-- A record restores what its fields do from the members in order. -/
theorem Decoder.restores_record {type : String} {x : Fields α} (hfaultless : x.Faultless)
    (hx : x.Restores (gather members) a P) : (Decoder.record type x).Restores (.ofMembers members) a P := by
  intro r
  rw [ofMembers_eq, record_eq_ok hfaultless (ascending_gather members), hx r]

end RobotBridge.Json
