import RobotBridge.Proofs.Envelope.Codec

/-! Envelopes are read back from their text, whatever fields are set, unless their data nests deeper than
a text may. -/
namespace RobotBridge.Envelope
open Json

/-! ### The members of an envelope -/

def field {α : Type} (key : String) (write : α → Json) (a : Option α) : List (String × Json) :=
  (a.map fun x => (key, write x)).toList

def members (e : Envelope) : List (String × Json) :=
  ("type", .string e.kind.name) :: (field "channel" .string e.channel ++ field "dtype" .string e.dtype ++
    field "data" id e.data ++ field "as_bytes" .boolean e.asBytes)

theorem outline_eq (e : Envelope) : e.outline = .object (outlineMembers e.members) := by
  obtain ⟨kind, channel, dtype, data, asBytes⟩ := e
  cases channel <;> cases dtype <;> cases data <;> cases asBytes <;> rfl

section Field

variable {α : Type} {k key : String} {write : α → Json} (a : Option α)

theorem mem_field {m : String × Json} {a : Option α} (h : m ∈ field key write a) :
    ∃ x ∈ a, m = (key, write x) := by
  cases a with
  | none => exact absurd h List.not_mem_nil
  | some x => exact ⟨x, rfl, List.mem_singleton.mp h⟩

theorem lookup_field : (field key write a).reverse.lookup key = a.map write := by
  cases a <;> simp [field]

theorem lookup_other (h : k ≠ key) : (field key write a).reverse.lookup k = none := by
  cases a <;> simp [field, lookup_member, h]

end Field

/-- The members that are written stand for the envelope. -/
theorem gives_members (e : Envelope) : Gives (gather e.members) e := by
  have hlookup (key : String) : (gather e.members).lookup key =
      ((field "as_bytes" .boolean e.asBytes).reverse.lookup key).or
        (((field "data" id e.data).reverse.lookup key).or
          (((field "dtype" .string e.dtype).reverse.lookup key).or
            (((field "channel" .string e.channel).reverse.lookup key).or
              (if key = "type" then some (.string e.kind.name) else none)))) := by
    rw [lookup_gather, members]
    simp only [List.reverse_cons, List.reverse_append, List.lookup_append, lookup_member, List.lookup_nil,
      Option.or_assoc]
  constructor
  · simp [hlookup, lookup_other]
  · exact .inl (by simp [hlookup, lookup_other, lookup_field])
  · exact .inl (by simp [hlookup, lookup_other, lookup_field])
  · simp [hlookup, lookup_other, lookup_field]
  · exact .inl (by simp [hlookup, lookup_other, lookup_field])

/-! ### Reading back -/

section RoundTrip

variable {e : Envelope} {d : Nat} {text : String}

/-- Besides the data there are strings and booleans only. -/
theorem forall_members {P : Json → Prop} (hstring : ∀ s, P (.string s)) (hboolean : ∀ b, P (.boolean b))
    (hdata : ∀ data ∈ e.data, P data) : ∀ m ∈ e.members, P m.2 := by
  simp only [members, List.forall_mem_cons, List.forall_mem_append]
  refine ⟨hstring _, ⟨⟨fun m hm => ?_, fun m hm => ?_⟩, fun m hm => ?_⟩, fun m hm => ?_⟩
  · obtain ⟨s, -, rfl⟩ := mem_field hm
    exact hstring s
  · obtain ⟨s, -, rfl⟩ := mem_field hm
    exact hstring s
  · obtain ⟨data, hd, rfl⟩ := mem_field hm
    exact hdata data hd
  · obtain ⟨b, -, rfl⟩ := mem_field hm
    exact hboolean b

theorem membersDepth_members : membersDepth e.members ≤ d ↔ ∀ data ∈ e.data, data.depth ≤ d := by
  rw [membersDepth_le]
  constructor
  · intro h data hdata
    have hmem : ("data", data) ∈ e.members := by simp [members, field, Option.mem_def.mp hdata]
    exact h _ hmem
  · exact forall_members (fun _ => Nat.zero_le d) fun _ => Nat.zero_le d

/-- The object around the data takes one of the levels that a text may nest. -/
theorem parse?_encode (h : ∀ data ∈ e.data, data.WellFormed)
    (hx : ∀ data ∈ e.data, ∀ x ∈ data.doubles, ReadsBack x) :
    parse? e.encode = if ∀ data ∈ e.data, data.depth ≤ 126 then some (.object (gather e.members)) else none := by
  have hmembers : ∀ m ∈ e.members, Reads 126 m.2 :=
    forall_members (fun s => reads_string s 126) (fun b => reads_boolean b 126)
      fun data hd => (h data hd).reads (hx data hd) 126
  have hread := value?_members hmembers []
  simp only [membersDepth_members, List.append_nil] at hread
  have htext : value? depthLimit e.encode.toList =
      if ∀ data ∈ e.data, data.depth ≤ 126 then some (.object (gather e.members), []) else none := by
    rw [encode, String.toList_ofList, outline_eq]
    exact hread
  rw [parse?, htext]
  split <;> rfl

/-- The data of an envelope that was read is well formed and leaves room for the object around it. -/
theorem decode_data (h : decode text = .ok e) : ∀ data ∈ e.data, data.WellFormed ∧ data.depth ≤ 126 := by
  obtain ⟨members, hparse, hgives⟩ := decode_eq_ok.mp h
  intro data hdata
  obtain ⟨hwf, hdepth⟩ := parse?_wellFormed hparse
  obtain ⟨before, after, hmem, -⟩ := List.lookup_eq_some_iff.mp (hgives.data.trans hdata)
  have hm : ("data", data) ∈ members := by simp [hmem]
  constructor
  · cases hwf with
    | object _ hall => exact hall _ hm
  · exact membersDepth_le.mp (Nat.le_of_succ_le_succ hdepth) _ hm

/-- Reading back what was written. Where each double in the data is read back from its own text, an
envelope is read back as it was if its data nests at most 126 deep, and is no JSON text otherwise. What
was read once is always read back: it never nests deeper. -/
theorem decode_encode (hx : ∀ data ∈ e.data, ∀ x ∈ data.doubles, ReadsBack x) :
    ((∀ data ∈ e.data, data.WellFormed) →
      decode e.encode = if ∀ data ∈ e.data, data.depth ≤ 126 then .ok e else .error .notJson) ∧
    ∀ text, decode text = .ok e → decode e.encode = .ok e := by
  have hsent (h : ∀ data ∈ e.data, data.WellFormed) :
      decode e.encode = if ∀ data ∈ e.data, data.depth ≤ 126 then .ok e else .error .notJson := by
    have hparse := parse?_encode h hx
    split at hparse
    case isTrue hdepth =>
      rw [if_pos hdepth]
      exact decode_eq_ok.mpr ⟨gather e.members, hparse, gives_members e⟩
    case isFalse hdepth => rw [if_neg hdepth, decode, hparse]
  refine ⟨hsent, fun text h => ?_⟩
  have hdata := decode_data h
  rw [hsent fun data hd => (hdata data hd).1, if_pos fun data hd => (hdata data hd).2]

/-- One and a half in 126 arrays comes back, and in 127 it does not; a text with fields in another order
and one of them twice is read as what comes back. -/
theorem decode_encode_nested :
    ∃ nested : Nat → Json, (∀ n, (nested n).depth = n ∧ (nested n).doubles = [⟨0x3FF8000000000000⟩]) ∧
      decode (encode { kind := .publish, data := nested 126 }) = .ok { kind := .publish, data := nested 126 } ∧
      decode (encode { kind := .publish, data := nested 127 }) = .error .notJson ∧
      ∃ e, decode "\x7b\"data\":[],\"data\":1.5,\"type\":\"init\"\x7d" = .ok e ∧ decode e.encode = .ok e := by
  have hback : ReadsBack ⟨0x3FF8000000000000⟩ := by
    refine ⟨rfl, ⟨0x3FF8000000000000⟩, parse?_eq_some_iff.mpr ⟨[], ?_, rfl⟩, rfl⟩
    rw [render, String.toList_ofList]
    rfl
  let nested (n : Nat) : Json := Nat.repeat (fun j => .array [j]) n (.double ⟨0x3FF8000000000000⟩)
  have hnested (n : Nat) : (nested n).depth = n ∧ (nested n).doubles = [⟨0x3FF8000000000000⟩] ∧
      (nested n).WellFormed := by
    induction n with
    | zero => exact ⟨rfl, rfl, .double _⟩
    | succ n ih =>
      obtain ⟨hdepth, hdoubles, hwf⟩ := ih
      refine ⟨?_, ?_, .array (List.forall_mem_singleton.mpr hwf)⟩
      · exact congrArg Nat.succ ((Nat.max_zero _).trans hdepth)
      · exact (List.append_nil _).trans hdoubles
  have hsent (n : Nat) :
      decode (encode { kind := .publish, data := nested n }) =
        if n ≤ 126 then .ok { kind := .publish, data := nested n } else .error .notJson := by
    obtain ⟨hdepth, hdoubles, hwf⟩ := hnested n
    have hx : ∀ data ∈ some (nested n), ∀ x ∈ data.doubles, ReadsBack x := by
      rintro _ ⟨⟩ x hx
      rw [hdoubles] at hx
      exact List.mem_singleton.mp hx ▸ hback
    have hread := (decode_encode (e := { kind := .publish, data := nested n }) hx).1 (by rintro _ ⟨⟩; exact hwf)
    simpa only [Option.mem_some_iff, forall_eq', hdepth] using hread
  refine ⟨nested, fun n => ⟨(hnested n).1, (hnested n).2.1⟩, hsent 126, hsent 127, ?_⟩
  have hdecode : decode "\x7b\"data\":[],\"data\":1.5,\"type\":\"init\"\x7d" =
      .ok { kind := .init, data := some (.double ⟨0x3FF8000000000000⟩) } := rfl
  refine ⟨_, hdecode, (decode_encode ?_).2 _ hdecode⟩
  rintro _ ⟨⟩ x hx
  exact List.mem_singleton.mp hx ▸ hback

end RoundTrip

end RobotBridge.Envelope
