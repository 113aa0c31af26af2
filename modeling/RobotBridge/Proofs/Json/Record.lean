import RobotBridge.Json.Record
import RobotBridge.Proofs.Json.Document

/-! Records: what each field needs of the members, that an object in order is refused only by a field,
that only the members of the fields' names count, and that an array is read as the object with its
items under these names. -/
namespace RobotBridge.Json

variable {α β : Type} {members : List (String × Json)} {name : String} {a : α} {b : β} {d : Decoder α}

theorem Decoder.fault_eq_none {j : Json} : d.fault j = none ↔ ∃ a, d j = .ok a := by
  unfold Decoder.fault
  cases d j <;> simp

theorem except_map_eq_ok {f : α → β} {read : Except DecodeError α} :
    read.map f = .ok b ↔ ∃ a, read = .ok a ∧ f a = b := by
  cases read <;> simp [Except.map]

theorem Decoder.string_eq_ok (j : Json) (s : String) : Decoder.string j = .ok s ↔ j = .string s := by
  unfold Decoder.string
  split
  case h_1 => simp
  case h_2 hne => simpa using hne s

theorem Decoder.boolean_eq_ok (j : Json) (b : Bool) : Decoder.boolean j = .ok b ↔ j = .boolean b := by
  unfold Decoder.boolean
  split
  case h_1 => simp
  case h_2 hne => simpa using hne b

theorem Decoder.integer_eq_ok {type : String} {low high n : Int} {j : Json} :
    Decoder.integer type low high j = .ok n ↔ j = .integer n ∧ low ≤ n ∧ n ≤ high := by
  unfold Decoder.integer
  split
  case h_1 m =>
    split
    case isTrue h =>
      simp only [Except.ok.injEq, Json.integer.injEq]
      constructor
      · rintro rfl
        exact ⟨rfl, h⟩
      · exact And.left
    case isFalse h =>
      simp only [reduceCtorEq, Json.integer.injEq, false_iff]
      rintro ⟨rfl, hrange⟩
      exact h hrange
  case h_2 hne => simpa using fun hj => absurd hj (hne n)

/-- A size is written as an integer and no other way. -/
theorem Decoder.size_eq_ok {j : Json} {n : UInt64} : Decoder.size j = .ok n ↔ j = .integer n.toNat := by
  have hlt : n.toNat < UInt64.size := n.toNat_lt
  rw [Decoder.size, except_map_eq_ok]
  constructor
  · rintro ⟨m, hm, rfl⟩
    obtain ⟨rfl, hlow, hhigh⟩ := integer_eq_ok.mp hm
    have hsize : m.toNat < UInt64.size := by omega
    rw [UInt64.toNat_ofNat_of_lt' hsize, Int.toNat_of_nonneg hlow]
  · rintro rfl
    refine ⟨n.toNat, integer_eq_ok.mpr ⟨rfl, ?_, ?_⟩, ?_⟩
    · omega
    · omega
    · simp

namespace Fields

/-- Where the fields are read, none of them finds fault with a member. -/
def Faultless (x : Fields α) : Prop := ∀ (members : List (String × Json)) (a : α),
  x.ofMembers members = .ok a → ∀ p ∈ x.faults, ∀ j, members.lookup p.1 = some j → p.2 j = none

theorem required_eq_ok : (required name d).ofMembers members = .ok a ↔
    ∃ j, members.lookup name = some j ∧ d j = .ok a := by
  simp only [required]
  cases members.lookup name <;> simp

theorem defaulting_eq_ok {absent : α} : (defaulting name absent d).ofMembers members = .ok a ↔
    (members.lookup name = none ∧ a = absent) ∨ ∃ j, members.lookup name = some j ∧ d j = .ok a := by
  simp only [defaulting]
  cases members.lookup name <;> simp [eq_comm]

theorem map_eq_ok {f : α → β} {x : Fields α} :
    (f <$> x).ofMembers members = .ok b ↔ ∃ a, x.ofMembers members = .ok a ∧ f a = b := by
  exact except_map_eq_ok

theorem seq_eq_ok {g : Fields (α → β)} {x : Fields α} : (g <*> x).ofMembers members = .ok b ↔
    ∃ f a, g.ofMembers members = .ok f ∧ x.ofMembers members = .ok a ∧ f a = b := by
  change (do let f ← g.ofMembers members; let a ← x.ofMembers members; return f a) = .ok b ↔ _
  cases g.ofMembers members with
  | error => simp [bind, Except.bind]
  | ok f => cases x.ofMembers members <;> simp [bind, Except.bind, pure, Except.pure]

theorem faultless_required : (required name d).Faultless := by
  intro members a h p hp j hj
  obtain rfl := List.mem_singleton.mp hp
  obtain ⟨j', hj', hd⟩ := required_eq_ok.mp h
  obtain rfl := Option.some.inj (hj.symm.trans hj')
  exact Decoder.fault_eq_none.mpr ⟨a, hd⟩

theorem faultless_defaulting {absent : α} : (defaulting name absent d).Faultless := by
  intro members a h p hp j hj
  obtain rfl := List.mem_singleton.mp hp
  rcases defaulting_eq_ok.mp h with ⟨hnone, -⟩ | ⟨j', hj', hd⟩
  · exact absurd (hj.symm.trans hnone) (Option.some_ne_none j)
  · obtain rfl := Option.some.inj (hj.symm.trans hj')
    exact Decoder.fault_eq_none.mpr ⟨a, hd⟩

theorem Faultless.map {f : α → β} {x : Fields α} (h : x.Faultless) : (f <$> x).Faultless := by
  intro members b hb
  obtain ⟨a, ha, -⟩ := map_eq_ok.mp hb
  exact h members a ha

theorem Faultless.seq {g : Fields (α → β)} {x : Fields α} (hg : g.Faultless) (hx : x.Faultless) :
    (g <*> x).Faultless := by
  intro members b hb p hp
  obtain ⟨f, a, hf, ha, -⟩ := seq_eq_ok.mp hb
  exact (List.mem_append.mp hp).elim (hg members f hf p) (hx members a ha p)

theorem firstFault_eq_none {x : Fields α} (hx : x.Faultless) (hord : Ascending members)
    (h : x.ofMembers members = .ok a) : firstFault x.faults members = none := by
  refine List.findSome?_eq_none_iff.mpr fun m hm => ?_
  refine Option.bind_eq_none_iff.mpr fun f hf => ?_
  obtain ⟨before, after, hmem, -⟩ := List.lookup_eq_some_iff.mp hf
  exact hx members a h (m.1, f) (by simp [hmem]) m.2 (hord.lookup hm)

/-! ### What the members of other names do -/

/-- What is read depends on the members of the fields' names only. -/
def Local (x : Fields α) : Prop := ∀ members members' : List (String × Json),
  (∀ p ∈ x.faults, members.lookup p.1 = members'.lookup p.1) → x.ofMembers members = x.ofMembers members'

theorem local_required : (required name d).Local := by
  intro members members' h
  have hname := h (name, d.fault) List.mem_cons_self
  simp only [required, hname]

theorem local_defaulting {absent : α} : (defaulting name absent d).Local := by
  intro members members' h
  have hname := h (name, d.fault) List.mem_cons_self
  simp only [defaulting, hname]

theorem Local.map {f : α → β} {x : Fields α} (hx : x.Local) : (f <$> x).Local := by
  intro members members' h
  change (x.ofMembers members).map f = (x.ofMembers members').map f
  rw [hx members members' h]

theorem Local.seq {g : Fields (α → β)} {x : Fields α} (hg : g.Local) (hx : x.Local) : (g <*> x).Local := by
  intro members members' h
  have hsame := hg members members' fun p hp => h p (List.mem_append_left _ hp)
  have hsame' := hx members members' fun p hp => h p (List.mem_append_right _ hp)
  change (do let f ← g.ofMembers members; let a ← x.ofMembers members; return f a) =
    (do let f ← g.ofMembers members'; let a ← x.ofMembers members'; return f a)
  rw [hsame, hsame']

section Fault

variable {faults : List (String × (Json → Option DecodeError))} {members' : List (String × Json)}

/-- Members of other names bring no fault. -/
theorem firstFault_filter : firstFault faults members =
    firstFault faults (members.filter fun m => (faults.lookup m.1).isSome) := by
  induction members with
  | nil => rfl
  | cons m rest ih =>
    obtain ⟨k, j⟩ := m
    unfold firstFault at ih ⊢
    cases hk : faults.lookup k with
    | none => simpa [List.findSome?_cons, hk] using ih
    | some f => simp [List.findSome?_cons, hk, ih]

theorem firstFault_congr (hord : Ascending members) (hord' : Ascending members')
    (h : ∀ p ∈ faults, members.lookup p.1 = members'.lookup p.1) :
    firstFault faults members = firstFault faults members' := by
  have hsame : (members.filter fun m => (faults.lookup m.1).isSome) =
      members'.filter fun m => (faults.lookup m.1).isSome := by
    apply Ascending.ext (hord.filter _) (hord'.filter _)
    intro key
    rw [lookup_filter fun k => (faults.lookup k).isSome, lookup_filter fun k => (faults.lookup k).isSome]
    cases hkey : faults.lookup key with
    | none => rfl
    | some f =>
      obtain ⟨before, after, hfaults, -⟩ := List.lookup_eq_some_iff.mp hkey
      simpa using h (key, f) (by simp [hfaults])
  rw [firstFault_filter, hsame, ← firstFault_filter]

end Fault

/-! ### Fields in an array -/

def names (x : Fields α) : List String := x.faults.map Prod.fst

theorem mem_names {x : Fields α} {p : String × (Json → Option DecodeError)} (hp : p ∈ x.faults) : p.1 ∈ x.names :=
  List.mem_map_of_mem hp

/-- From the front of an array the fields are read as from the object with these items under their names. -/
def InPlace (x : Fields α) : Prop := ∀ (tooShort : Nat → DecodeError) (index : Nat) (items : List Json) (a : α)
  (next : Nat) (rest : List Json), x.ofItems tooShort index items = .ok (a, next, rest) ↔
    ∃ taken, items = taken ++ rest ∧ taken.length = x.names.length ∧ next = index + x.names.length ∧
      x.ofMembers (x.names.zip taken) = .ok a

theorem inPlace_required : (required name d).InPlace := by
  intro tooShort index items a next rest
  have hnames : (required name d).names = [name] := rfl
  rw [hnames]
  constructor
  · intro h
    cases items with
    | nil => contradiction
    | cons j items =>
      obtain ⟨a', hd, heq⟩ := except_map_eq_ok.mp h
      obtain ⟨rfl, rfl, rfl⟩ := heq
      exact ⟨[j], rfl, rfl, rfl, required_eq_ok.mpr ⟨j, List.lookup_cons_self, hd⟩⟩
  · rintro ⟨taken, rfl, hlength, rfl, h⟩
    obtain ⟨j, rfl⟩ := List.length_eq_one_iff.mp hlength
    obtain ⟨j', hj', hd⟩ := required_eq_ok.mp h
    obtain rfl := Option.some.inj (List.lookup_cons_self.symm.trans hj')
    exact except_map_eq_ok.mpr ⟨a, hd, rfl⟩

theorem InPlace.map {f : α → β} {x : Fields α} (hx : x.InPlace) : (f <$> x).InPlace := by
  intro tooShort index items b next rest
  have hnames : (f <$> x).names = x.names := rfl
  rw [hnames]
  constructor
  · intro h
    obtain ⟨⟨a, next', rest'⟩, hread, heq⟩ := except_map_eq_ok.mp h
    obtain ⟨rfl, rfl, rfl⟩ := heq
    obtain ⟨taken, hitems, hlength, hnext, hmembers⟩ := (hx ..).mp hread
    exact ⟨taken, hitems, hlength, hnext, map_eq_ok.mpr ⟨a, hmembers, rfl⟩⟩
  · rintro ⟨taken, hitems, hlength, hnext, h⟩
    obtain ⟨a, hmembers, rfl⟩ := map_eq_ok.mp h
    exact except_map_eq_ok.mpr ⟨_, (hx ..).mpr ⟨taken, hitems, hlength, hnext, hmembers⟩, rfl⟩

theorem seq_ofItems_eq_ok {g : Fields (α → β)} {x : Fields α} {tooShort : Nat → DecodeError} {index next : Nat}
    {items rest : List Json} : (g <*> x).ofItems tooShort index items = .ok (b, next, rest) ↔
      ∃ f middle left, g.ofItems tooShort index items = .ok (f, middle, left) ∧
        ∃ a, x.ofItems tooShort middle left = .ok (a, next, rest) ∧ f a = b := by
  change ((g.ofItems tooShort index items).bind fun p => (x.ofItems tooShort p.2.1 p.2.2).bind fun q =>
    .ok (p.1 q.1, q.2)) = .ok (b, next, rest) ↔ _
  cases g.ofItems tooShort index items with
  | error => simp [Except.bind]
  | ok p =>
    obtain ⟨f, middle, left⟩ := p
    constructor
    · intro h
      cases hread : x.ofItems tooShort middle left with
      | error e =>
        rw [Except.bind, hread] at h
        contradiction
      | ok q =>
        rw [Except.bind, hread] at h
        obtain ⟨rfl, heq⟩ := Prod.mk.inj (Except.ok.inj h)
        exact ⟨f, middle, left, rfl, q.1, heq ▸ hread, rfl⟩
    · rintro ⟨_, _, _, heq, a, hread, rfl⟩
      obtain ⟨rfl, rfl, rfl⟩ := Except.ok.inj heq
      rw [Except.bind, hread]
      rfl

theorem lookup_zip_eq_none {names : List String} {items : List Json} (hlength : items.length = names.length) :
    (names.zip items).lookup name = none ↔ name ∉ names := by
  have hkeys : (names.zip items).map Prod.fst = names := List.map_fst_zip (Nat.le_of_eq hlength.symm)
  rw [List.lookup_eq_none_iff]
  constructor
  · intro h hname
    rw [← hkeys] at hname
    obtain ⟨p, hp, rfl⟩ := List.mem_map.mp hname
    simpa using h p hp
  · intro h p hp
    have hne : name ≠ p.1 := by
      rintro rfl
      exact h (hkeys ▸ List.mem_map_of_mem hp)
    simpa using hne

theorem InPlace.seq {g : Fields (α → β)} {x : Fields α} (hg : g.InPlace) (hx : x.InPlace) (hglocal : g.Local)
    (hxlocal : x.Local) (hapart : ∀ name ∈ g.names, name ∉ x.names) : (g <*> x).InPlace := by
  intro tooShort index items b next rest
  have hnames : (g <*> x).names = g.names ++ x.names := List.map_append
  have hzip {taken taken' : List Json} (hlength : taken.length = g.names.length)
      (hlength' : taken'.length = x.names.length) :
      g.ofMembers ((g.names ++ x.names).zip (taken ++ taken')) = g.ofMembers (g.names.zip taken) ∧
      x.ofMembers ((g.names ++ x.names).zip (taken ++ taken')) = x.ofMembers (x.names.zip taken') := by
    rw [List.zip_append hlength.symm]
    constructor
    · apply hglocal
      intro p hp
      have hfound := mt (lookup_zip_eq_none hlength).mp (not_not_intro (mem_names hp))
      obtain ⟨j, hj⟩ := Option.ne_none_iff_exists'.mp hfound
      rw [List.lookup_append, hj, Option.some_or]
    · apply hxlocal
      intro p hp
      have hnone := (lookup_zip_eq_none hlength).mpr fun hmem => hapart p.1 hmem (mem_names hp)
      rw [List.lookup_append, hnone, Option.none_or]
  rw [hnames, seq_ofItems_eq_ok]
  constructor
  · rintro ⟨f, middle, left, hf, a, ha, rfl⟩
    obtain ⟨taken, rfl, hlength, rfl, hgmembers⟩ := (hg ..).mp hf
    obtain ⟨taken', rfl, hlength', rfl, hxmembers⟩ := (hx ..).mp ha
    obtain ⟨hgsame, hxsame⟩ := hzip hlength hlength'
    refine ⟨taken ++ taken', (List.append_assoc ..).symm, ?_, ?_, ?_⟩
    · rw [List.length_append, List.length_append, hlength, hlength']
    · rw [List.length_append, Nat.add_assoc]
    · exact seq_eq_ok.mpr ⟨f, a, hgsame.trans hgmembers, hxsame.trans hxmembers, rfl⟩
  · rintro ⟨both, rfl, hlength, rfl, h⟩
    rw [List.length_append] at hlength
    obtain ⟨taken, taken', rfl, htaken⟩ : ∃ taken taken', both = taken ++ taken' ∧ taken.length = g.names.length :=
      ⟨both.take g.names.length, both.drop g.names.length, (List.take_append_drop ..).symm, by
        rw [List.length_take]; omega⟩
    have htaken' : taken'.length = x.names.length := by
      rw [List.length_append] at hlength
      omega
    obtain ⟨hgsame, hxsame⟩ := hzip htaken htaken'
    obtain ⟨f, a, hf, ha, rfl⟩ := seq_eq_ok.mp h
    refine ⟨f, index + g.names.length, taken' ++ rest, (hg ..).mpr ⟨taken, List.append_assoc .., htaken, rfl, ?_⟩, a,
      (hx ..).mpr ⟨taken', rfl, htaken', ?_, ?_⟩, rfl⟩
    · exact hgsame.symm.trans hf
    · rw [List.length_append, Nat.add_assoc]
    · exact hxsame.symm.trans ha

structure Mandatory (x : Fields α) : Prop where
  faultless : x.Faultless
  isLocal : x.Local
  inPlace : x.InPlace

theorem Mandatory.required : (required name d).Mandatory :=
  ⟨faultless_required, local_required, inPlace_required⟩

theorem Mandatory.map {f : α → β} {x : Fields α} (hx : x.Mandatory) : (f <$> x).Mandatory :=
  ⟨hx.faultless.map, hx.isLocal.map, hx.inPlace.map⟩

theorem Mandatory.seq {g : Fields (α → β)} {x : Fields α} (hg : g.Mandatory) (hx : x.Mandatory)
    (hapart : ∀ name ∈ g.names, name ∉ x.names) : (g <*> x).Mandatory :=
  ⟨hg.faultless.seq hx.faultless, hg.isLocal.seq hx.isLocal,
    hg.inPlace.seq hx.inPlace hg.isLocal hx.isLocal hapart⟩

end Fields

/-- Neither the order in which an object was written nor members of other names count. -/
theorem record_congr {type : String} {x : Fields α} {members' : List (String × Json)} (hx : x.Local)
    (hord : Ascending members) (hord' : Ascending members')
    (h : ∀ p ∈ x.faults, members.lookup p.1 = members'.lookup p.1) :
    Decoder.record type x (.object members) = Decoder.record type x (.object members') := by
  simp only [Decoder.record, Fields.firstFault_congr hord hord' h, hx members members' h]

/-- An object with its members in order is read as its fields are. -/
theorem record_eq_ok {type : String} {x : Fields α} (hx : x.Faultless) (hord : Ascending members) :
    Decoder.record type x (.object members) = .ok a ↔ x.ofMembers members = .ok a := by
  constructor
  · intro h
    simp only [Decoder.record] at h
    split at h
    · contradiction
    · exact h
  · intro h
    rw [Decoder.record, Fields.firstFault_eq_none hx hord h]
    exact h

/-- The members of a record with the given names: an object's own, or those that the items of an array
make with the names in order. -/
def membersOf? (names : List String) : Json → Option (List (String × Json))
  | .object members => some members
  | .array items => if items.length = names.length then some (names.zip items) else none
  | _ => none

/-- An object or an array is read as its members are, and nothing else is read. -/
theorem record_mandatory_eq_ok {type : String} {x : Fields α} {j : Json} (hx : x.Mandatory)
    (hord : ∀ members, j = .object members → Ascending members) :
    Decoder.record type x j = .ok a ↔
      ∃ members, membersOf? x.names j = some members ∧ x.ofMembers members = .ok a := by
  unfold membersOf?
  split
  case h_1 members =>
    rw [record_eq_ok hx.faultless (hord members rfl)]
    simp
  case h_2 items =>
    constructor
    · intro h
      simp only [Decoder.record] at h
      split at h
      · contradiction
      · obtain rfl := Except.ok.inj h
        rename_i next hread
        obtain ⟨taken, rfl, hlength, -, hmembers⟩ := (hx.inPlace ..).mp hread
        rw [List.append_nil, if_pos hlength]
        exact ⟨_, rfl, hmembers⟩
      · contradiction
    · rintro ⟨members, hzip, hmembers⟩
      split at hzip
      case isFalse => contradiction
      case isTrue hlength =>
        obtain rfl := Option.some.inj hzip
        have hread (tooShort : Nat → DecodeError) := (hx.inPlace tooShort 0 items a _ []).mpr
          ⟨items, (List.append_nil items).symm, hlength, rfl, hmembers⟩
        simp only [Decoder.record, hread]
  case h_3 hobject harray =>
    cases j
    case object members => exact absurd rfl (hobject members)
    case array items => exact absurd rfl (harray items)
    all_goals simp [Decoder.record]

end RobotBridge.Json
