import RobotBridge.Proofs.Envelope.Codec

/-! Which texts are accepted as envelopes, said of the object that a text holds and of nothing else:
the order in which it was written and members of other names do not count. -/
namespace RobotBridge.Envelope
open Json

variable {members : List (String × Json)}

def fieldNames : List String := ["type", "channel", "dtype", "data", "as_bytes"]

/-- What an object must hold to be an envelope. Any data will do, or none. -/
structure Acceptable (members : List (String × Json)) : Prop where
  type : ∃ k : Kind, members.lookup "type" = some (.string k.name)
  channel : ∀ j, members.lookup "channel" = some j → j = .null ∨ ∃ s, j = .string s
  dtype : ∀ j, members.lookup "dtype" = some j → j = .null ∨ ∃ s, j = .string s
  asBytes : ∀ j, members.lookup "as_bytes" = some j → j = .null ∨ ∃ b, j = .boolean b

theorem exists_given {α : Type} {write : α → Json} {found : Option Json} :
    (∃ a, Given write found a) ↔ ∀ j, found = some j → j = .null ∨ ∃ a, j = write a := by
  constructor
  · rintro ⟨a, ha | ⟨hnull, -⟩⟩ j hj
    · obtain ⟨x, -, hx⟩ := Option.map_eq_some_iff.mp (ha.symm.trans hj)
      exact .inr ⟨x, hx.symm⟩
    · exact .inl (Option.some.inj (hj.symm.trans hnull))
  · intro h
    cases found with
    | none => exact ⟨none, .inl rfl⟩
    | some j =>
      rcases h j rfl with rfl | ⟨a, rfl⟩
      · exact ⟨none, .inr ⟨rfl, rfl⟩⟩
      · exact ⟨some a, .inl rfl⟩

/-- Of an acceptable object there is an envelope to give. -/
theorem exists_gives : (∃ e, Gives members e) ↔ Acceptable members := by
  constructor
  · rintro ⟨e, h⟩
    exact ⟨⟨e.kind, h.kind⟩, exists_given.mp ⟨_, h.channel⟩, exists_given.mp ⟨_, h.dtype⟩,
      exists_given.mp ⟨_, h.asBytes⟩⟩
  · intro h
    obtain ⟨kind, hkind⟩ := h.type
    obtain ⟨channel, hchannel⟩ := exists_given.mpr h.channel
    obtain ⟨dtype, hdtype⟩ := exists_given.mpr h.dtype
    obtain ⟨asBytes, hasBytes⟩ := exists_given.mpr h.asBytes
    exact ⟨⟨kind, channel, dtype, members.lookup "data", asBytes⟩, hkind, hchannel, hdtype, rfl, hasBytes⟩

theorem fields_local : fields.Local :=
  Fields.Local.seq (.seq (.seq (.seq (.map Fields.local_required) Fields.local_defaulting)
    Fields.local_defaulting) Fields.local_defaulting) Fields.local_defaulting

/-- Objects that hold the same in the fields of an envelope are read alike, and refused alike. -/
theorem decode_congr {text text' : String} {members' : List (String × Json)}
    (hparse : parse? text = some (.object members)) (hparse' : parse? text' = some (.object members'))
    (h : ∀ name ∈ fieldNames, members.lookup name = members'.lookup name) : decode text = decode text' := by
  have hfields : ∀ p ∈ fields.faults, members.lookup p.1 = members'.lookup p.1 := by
    intro p hp
    apply h
    have hnames : fields.faults.map Prod.fst = fieldNames := rfl
    exact hnames ▸ List.mem_map_of_mem hp
  have hread : ofJson (.object members) = ofJson (.object members') :=
    record_congr fields_local (parse?_ascending hparse) (parse?_ascending hparse') hfields
  have htype : members.lookup "type" = members'.lookup "type" := h _ List.mem_cons_self
  simp only [decode, hparse, hparse', hread, htype]

/-- What is accepted. A text holds an envelope exactly when it is an object whose type is a kind and
whose other fields are absent, null or of their type, and the envelope is what the fields give; data
that is null is data. Of two objects, however written, that end with the same values under the names
of the fields both are accepted, as the same envelope, or both are refused, for the same reason. -/
theorem decode_accepts (text : String) :
    (∀ e, decode text = .ok e ↔ ∃ members, parse? text = some (.object members) ∧ Gives members e) ∧
    ((∃ e, decode text = .ok e) ↔ ∃ members, parse? text = some (.object members) ∧ Acceptable members) ∧
    ∀ text' written written', parse? text = some (ofMembers written) →
      parse? text' = some (ofMembers written') →
      (∀ name ∈ fieldNames, written.reverse.lookup name = written'.reverse.lookup name) →
      decode text = decode text' := by
  refine ⟨fun e => decode_eq_ok, ?_, ?_⟩
  · constructor
    · rintro ⟨e, he⟩
      obtain ⟨members, hparse, hgives⟩ := decode_eq_ok.mp he
      exact ⟨members, hparse, exists_gives.mp ⟨e, hgives⟩⟩
    · rintro ⟨members, hparse, hacceptable⟩
      obtain ⟨e, hgives⟩ := exists_gives.mpr hacceptable
      exact ⟨e, decode_eq_ok.mpr ⟨members, hparse, hgives⟩⟩
  · intro text' written written' hparse hparse' h
    apply decode_congr hparse hparse'
    intro name hname
    change (gather written).lookup name = (gather written').lookup name
    rw [lookup_gather, lookup_gather, h name hname]

/-- The same envelope written with its fields the other way round, one of them twice, and a field more. -/
theorem decode_accepts_rewritten :
    decode "\x7b\"type\":\"init\",\"data\":null\x7d" = .ok { kind := .init, data := some .null } ∧
      decode "\x7b\"data\":7,\"size\":1,\"data\":null,\"type\":\"init\"\x7d" =
        .ok { kind := .init, data := some .null } := by
  have hparse : parse? "\x7b\"type\":\"init\",\"data\":null\x7d" =
      some (ofMembers [("type", .string "init"), ("data", .null)]) := rfl
  have hparse' : parse? "\x7b\"data\":7,\"size\":1,\"data\":null,\"type\":\"init\"\x7d" =
      some (ofMembers [("data", .integer 7), ("size", .integer 1), ("data", .null), ("type", .string "init")]) := rfl
  obtain ⟨haccept, -, hsame⟩ := decode_accepts "\x7b\"type\":\"init\",\"data\":null\x7d"
  have hread : decode "\x7b\"type\":\"init\",\"data\":null\x7d" = .ok { kind := .init, data := some .null } :=
    (haccept _).mpr ⟨_, hparse, rfl, .inl rfl, .inl rfl, rfl, .inl rfl⟩
  refine ⟨hread, ?_⟩
  rw [← hsame _ _ _ hparse hparse' (by simp [fieldNames, lookup_member])]
  exact hread

end RobotBridge.Envelope
