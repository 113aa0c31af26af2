import RobotBridge.Envelope.Codec
import RobotBridge.Proofs.Json.Record
import RobotBridge.Proofs.Json.Sound

/-! Which texts hold an envelope, and which envelope: what each field takes from the members. -/
namespace RobotBridge

theorem Kind.ofName?_eq_some {s : String} {k : Kind} : Kind.ofName? s = some k ↔ s = k.name := by
  constructor
  · intro h
    have hname := List.find?_some (p := fun k : Kind => decide (k.name = s)) h
    exact (of_decide_eq_true hname).symm
  · rintro rfl
    cases k <;> rfl

namespace Envelope
open Json

variable {members : List (String × Json)} {e : Envelope} {name : String}

/-! ### Fields -/

/-- A field that may be absent or null takes a value from the document that `write` makes of it. -/
def Given {α : Type} (write : α → Json) (found : Option Json) (a : Option α) : Prop :=
  found = a.map write ∨ found = some .null ∧ a = none

theorem nullable_eq_ok {α : Type} {d : Decoder α} {write : α → Json} (hd : ∀ j a, d j = .ok a ↔ j = write a)
    (hnull : ∀ a, write a ≠ .null) {j : Json} {a : Option α} :
    d.nullable j = .ok a ↔ some j = a.map write ∨ j = .null ∧ a = none := by
  unfold Decoder.nullable
  split
  · cases a with
    | none => simp
    | some a => simpa using (hnull a).symm
  case h_2 hne =>
    cases a with
    | none => cases h : d j <;> simpa [Except.map] using hne
    | some a =>
      have hiff := hd j a
      cases h : d j <;> simp_all [Except.map]

theorem optional_eq_ok {α : Type} {d : Decoder α} {write : α → Json} {a : Option α}
    (hd : ∀ j a, d j = .ok a ↔ j = write a) (hnull : ∀ a, write a ≠ .null) :
    (Fields.optional name d).ofMembers members = .ok a ↔ Given write (members.lookup name) a := by
  rw [Fields.optional, Fields.defaulting_eq_ok, Given]
  cases members.lookup name with
  | none => cases a <;> simp
  | some j => simp [nullable_eq_ok hd hnull]

theorem variant_eq_ok {names : List String} {type : String} {j : Json} {k : Kind} :
    Decoder.variant Kind.ofName? names type j = .ok k ↔ j = .string k.name := by
  unfold Decoder.variant
  split
  case h_1 s =>
    rw [Json.string.injEq, ← Kind.ofName?_eq_some]
    cases Kind.ofName? s <;> simp
  case h_2 hne => simpa using hne _

/-- A field that keeps null takes what is there. -/
theorem present_eq_ok {a : Option Json} :
    (Fields.defaulting name none fun j => .ok (some j)).ofMembers members = .ok a ↔ members.lookup name = a := by
  rw [Fields.defaulting_eq_ok]
  cases members.lookup name <;> simp [eq_comm]

structure Gives (members : List (String × Json)) (e : Envelope) : Prop where
  kind : members.lookup "type" = some (.string e.kind.name)
  channel : Given .string (members.lookup "channel") e.channel
  dtype : Given .string (members.lookup "dtype") e.dtype
  /-- Null is data as well. -/
  data : members.lookup "data" = e.data
  asBytes : Given .boolean (members.lookup "as_bytes") e.asBytes

theorem fields_faultless : fields.Faultless :=
  Fields.Faultless.seq (.seq (.seq (.seq (.map Fields.faultless_required) Fields.faultless_defaulting)
    Fields.faultless_defaulting) Fields.faultless_defaulting) Fields.faultless_defaulting

theorem fields_eq_ok : fields.ofMembers members = .ok e ↔ Gives members e := by
  have hstring {name : String} {a : Option String} :
      (Fields.optional name Decoder.string).ofMembers members = .ok a ↔
        Given .string (members.lookup name) a :=
    optional_eq_ok Decoder.string_eq_ok fun _ => Json.noConfusion
  have hboolean {name : String} {a : Option Bool} :
      (Fields.optional name Decoder.boolean).ofMembers members = .ok a ↔
        Given .boolean (members.lookup name) a :=
    optional_eq_ok Decoder.boolean_eq_ok fun _ => Json.noConfusion
  simp only [fields, Fields.seq_eq_ok, Fields.map_eq_ok, Fields.required_eq_ok, variant_eq_ok, hstring,
    hboolean, present_eq_ok]
  constructor
  · rintro ⟨_, asBytes, ⟨_, data, ⟨_, dtype, ⟨_, channel, ⟨kind, ⟨_, hkind, rfl⟩, rfl⟩, hchannel, rfl⟩, hdtype, rfl⟩,
      hdata, rfl⟩, hasBytes, rfl⟩
    exact ⟨hkind, hchannel, hdtype, hdata, hasBytes⟩
  · rintro ⟨hkind, hchannel, hdtype, hdata, hasBytes⟩
    exact ⟨_, e.asBytes, ⟨_, e.data, ⟨_, e.dtype, ⟨_, e.channel, ⟨e.kind, ⟨_, hkind, rfl⟩, rfl⟩, hchannel, rfl⟩, hdtype,
      rfl⟩, hdata, rfl⟩, hasBytes, rfl⟩

/-- A text holds an envelope when it is an object whose members stand for it. -/
theorem decode_eq_ok {text : String} :
    decode text = .ok e ↔ ∃ members, parse? text = some (.object members) ∧ Gives members e := by
  have hofJson {members : List (String × Json)} (h : parse? text = some (.object members)) :
      ofJson (.object members) = .ok e ↔ Gives members e :=
    (record_eq_ok fields_faultless (parse?_ascending h)).trans fields_eq_ok
  constructor
  · intro h
    unfold decode at h
    split at h
    case h_1 => contradiction
    case h_3 => contradiction
    case h_2 members hparse =>
      refine ⟨members, hparse, (hofJson hparse).mp ?_⟩
      split at h
      · contradiction
      · split at h
        case h_1 heq =>
          rw [heq, Except.ok.inj h]
        case h_2 => contradiction
      · contradiction
  · rintro ⟨members, hparse, hgives⟩
    rw [decode, hparse]
    simp only [hgives.kind, (hofJson hparse).mpr hgives]

end Envelope

end RobotBridge
