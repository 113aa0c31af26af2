import RobotBridge.Proofs.Json.RoundTrip

/-! What is read from a text: only documents that are well formed and nest no deeper than is allowed. -/
namespace RobotBridge.Json

variable {cs rest : List Char} {d fuel : Nat} {j : Json} {P : Json → Prop}
  {element : List Char → Option (Json × List Char)}

theorem IsNumber.wellFormed (h : IsNumber j) : j.WellFormed := by
  rcases h with ⟨x, rfl⟩ | ⟨n, rfl, hlow, hhigh⟩
  · exact .double x
  · exact .integer hlow hhigh

theorem IsNumber.depth (h : IsNumber j) : j.depth = 0 := by
  rcases h with ⟨x, rfl⟩ | ⟨n, rfl, -, -⟩
  · rfl
  · rfl

theorem literal?_eq {word : String} {value : Json} (h : literal? word value cs = some (j, rest)) : j = value := by
  obtain ⟨-, heq⟩ := Option.ite_none_right_eq_some.mp h
  exact (Prod.mk.inj (Option.some.inj heq)).1.symm

theorem scalar?_wellFormed (h : scalar? cs = some (j, rest)) : j.WellFormed ∧ j.depth = 0 := by
  unfold scalar? at h
  split at h
  · exact literal?_eq h ▸ ⟨.null, rfl⟩
  · exact literal?_eq h ▸ ⟨.boolean true, rfl⟩
  · exact literal?_eq h ▸ ⟨.boolean false, rfl⟩
  · obtain ⟨⟨s, cs'⟩, -, heq⟩ := Option.map_eq_some_iff.mp h
    exact (Prod.mk.inj heq).1 ▸ ⟨.string s, rfl⟩
  · exact ⟨(number?_isNumber h).wellFormed, (number?_isNumber h).depth⟩

theorem items?_forall (helement : ∀ {cs j rest}, element cs = some (j, rest) → P j) {items : List Json}
    (h : items? element fuel cs = some (items, rest)) : ∀ item ∈ items, P item := by
  induction fuel generalizing cs items rest with
  | zero => contradiction
  | succ fuel ih =>
    obtain ⟨⟨item, cs'⟩, hitem, h⟩ := Option.bind_eq_some_iff.mp h
    simp only at h
    split at h
    · obtain ⟨⟨items', cs''⟩, hitems, heq⟩ := Option.bind_eq_some_iff.mp h
      obtain ⟨rfl, rfl⟩ := Prod.mk.inj (Option.some.inj heq)
      exact List.forall_mem_cons.mpr ⟨helement hitem, ih hitems⟩
    · obtain ⟨rfl, rfl⟩ := Prod.mk.inj (Option.some.inj h)
      exact List.forall_mem_singleton.mpr (helement hitem)
    · contradiction

theorem members?_forall (helement : ∀ {cs j rest}, element cs = some (j, rest) → P j)
    {members : List (String × Json)} (h : members? element fuel cs = some (members, rest)) :
    ∀ m ∈ members, P m.2 := by
  induction fuel generalizing cs members rest with
  | zero => contradiction
  | succ fuel ih =>
    obtain ⟨⟨key, cs₁⟩, -, h⟩ := Option.bind_eq_some_iff.mp h
    obtain ⟨⟨value, cs₂⟩, hvalue, h⟩ := Option.bind_eq_some_iff.mp h
    simp only at h
    split at h
    · obtain ⟨⟨members', cs₃⟩, hmembers, heq⟩ := Option.bind_eq_some_iff.mp h
      obtain ⟨rfl, rfl⟩ := Prod.mk.inj (Option.some.inj heq)
      exact List.forall_mem_cons.mpr ⟨helement hvalue, ih hmembers⟩
    · obtain ⟨rfl, rfl⟩ := Prod.mk.inj (Option.some.inj h)
      exact List.forall_mem_singleton.mpr (helement hvalue)
    · contradiction

theorem wellFormed_ofMembers {members : List (String × Json)} (h : ∀ m ∈ members, m.2.WellFormed) :
    (ofMembers members).WellFormed :=
  .object (ascending_gather members) fun m hm => h m (mem_gather hm)

theorem depth_ofMembers {members : List (String × Json)} (h : ∀ m ∈ members, m.2.depth ≤ d) :
    (ofMembers members).depth ≤ d + 1 :=
  Nat.succ_le_succ (membersDepth_le.mpr fun m hm => h m (mem_gather hm))

/-- What is read is well formed and nests no deeper than it may. -/
theorem value?_wellFormed (h : value? d cs = some (j, rest)) : j.WellFormed ∧ j.depth ≤ d := by
  induction d generalizing cs j rest with
  | zero =>
    unfold value? at h
    split at h <;> first | contradiction | exact (scalar?_wellFormed h).imp_right Nat.le_of_eq
  | succ d ih =>
    unfold value? at h
    split at h
    case h_1 | h_2 => contradiction
    case h_3 hd _ =>
      obtain rfl := Nat.succ.inj hd
      split at h
      · obtain ⟨rfl, -⟩ := Prod.mk.inj (Option.some.inj h)
        exact ⟨.array (List.forall_mem_nil _), Nat.succ_le_succ (Nat.zero_le d)⟩
      · obtain ⟨⟨items, cs''⟩, hitems, heq⟩ := Option.map_eq_some_iff.mp h
        obtain ⟨rfl, rfl⟩ := Prod.mk.inj heq
        have hall := items?_forall ih hitems
        exact ⟨.array fun item hm => (hall item hm).1,
          Nat.succ_le_succ (itemsDepth_le.mpr fun item hm => (hall item hm).2)⟩
    case h_4 hd _ =>
      obtain rfl := Nat.succ.inj hd
      split at h
      · obtain ⟨rfl, -⟩ := Prod.mk.inj (Option.some.inj h)
        exact ⟨wellFormed_ofMembers (List.forall_mem_nil _), depth_ofMembers (List.forall_mem_nil _)⟩
      · obtain ⟨⟨members, cs''⟩, hmembers, heq⟩ := Option.map_eq_some_iff.mp h
        obtain ⟨rfl, rfl⟩ := Prod.mk.inj heq
        have hall := members?_forall ih hmembers
        exact ⟨wellFormed_ofMembers fun m hm => (hall m hm).1, depth_ofMembers fun m hm => (hall m hm).2⟩
    case h_5 =>
      obtain ⟨hwf, hdepth⟩ := scalar?_wellFormed h
      exact ⟨hwf, hdepth ▸ Nat.zero_le _⟩

theorem parse?_wellFormed {text : String} (h : parse? text = some j) : j.WellFormed ∧ j.depth ≤ depthLimit := by
  obtain ⟨rest, hvalue, -⟩ := parse?_eq_some_iff.mp h
  exact value?_wellFormed hvalue

theorem parse?_ascending {text : String} {members : List (String × Json)}
    (h : parse? text = some (.object members)) : Ascending members := by
  cases (parse?_wellFormed h).1 with
  | object hord => exact hord

end RobotBridge.Json
