import Mathlib.Data.List.Induction
import RobotBridge.Json.Basic

/-! Documents as the values they stand for: how deep they nest, the doubles in them, the order of
members, and what an object holds under a key. -/
namespace RobotBridge.Json
open Numeric

/-! ### Nesting and doubles -/

mutual

/-- How deep arrays and objects nest; the empty ones count as well. -/
def depth : Json → Nat
  | .array items => itemsDepth items + 1
  | .object members => membersDepth members + 1
  | _ => 0

def itemsDepth : List Json → Nat
  | [] => 0
  | item :: rest => max item.depth (itemsDepth rest)

def membersDepth : List (String × Json) → Nat
  | [] => 0
  | (_, value) :: rest => max value.depth (membersDepth rest)

end

mutual

def doubles : Json → List Double
  | .double x => [x]
  | .array items => itemsDoubles items
  | .object members => membersDoubles members
  | _ => []

def itemsDoubles : List Json → List Double
  | [] => []
  | item :: rest => item.doubles ++ itemsDoubles rest

def membersDoubles : List (String × Json) → List Double
  | [] => []
  | (_, value) :: rest => value.doubles ++ membersDoubles rest

end

section Parts

variable {d : Nat} {x : Double} {items : List Json} {members : List (String × Json)}

theorem itemsDepth_le : itemsDepth items ≤ d ↔ ∀ item ∈ items, item.depth ≤ d := by
  induction items with
  | nil => simp [itemsDepth]
  | cons item rest ih => rw [itemsDepth, Nat.max_le, ih, List.forall_mem_cons]

theorem membersDepth_le : membersDepth members ≤ d ↔ ∀ m ∈ members, m.2.depth ≤ d := by
  induction members with
  | nil => simp [membersDepth]
  | cons m rest ih => rw [membersDepth, Nat.max_le, ih, List.forall_mem_cons]

theorem mem_itemsDoubles : x ∈ itemsDoubles items ↔ ∃ item ∈ items, x ∈ item.doubles := by
  induction items with
  | nil => simp [itemsDoubles]
  | cons item rest ih => simp [itemsDoubles, ih]

theorem mem_membersDoubles : x ∈ membersDoubles members ↔ ∃ m ∈ members, x ∈ m.2.doubles := by
  induction members with
  | nil => simp [membersDoubles]
  | cons m rest ih => simp only [membersDoubles, List.mem_append, ih, List.mem_cons, exists_eq_or_imp]

end Parts

/-! ### Members -/

abbrev Ascending (members : List (String × Json)) : Prop := members.Pairwise fun m m' => m.1 < m'.1

section Members

variable {key k : String} {value v : Json} {members rest : List (String × Json)} {m : String × Json}

theorem lookup_member : ((k, v) :: rest).lookup key = if key = k then some v else rest.lookup key := by
  rw [List.lookup_cons]
  by_cases h : key = k
  · simp [h]
  · rw [beq_eq_false_iff_ne.mpr h, if_neg h]

theorem Ascending.lookup (h : Ascending members) (hm : m ∈ members) : members.lookup m.1 = some m.2 := by
  induction members with
  | nil => exact absurd hm List.not_mem_nil
  | cons first rest ih =>
    obtain ⟨hfirst, hrest⟩ := List.pairwise_cons.mp h
    rcases List.mem_cons.mp hm with rfl | hm
    · exact List.lookup_cons_self
    · have hne : m.1 ≠ first.1 := fun heq => String.lt_irrefl _ (heq ▸ hfirst m hm)
      rw [lookup_member, if_neg hne, ih hrest hm]

theorem mem_setMember (h : m ∈ setMember key value members) : m = (key, value) ∨ m ∈ members := by
  fun_induction setMember key value members with
  | case1 => exact .inl (List.mem_singleton.mp h)
  | case2 v rest => exact (List.mem_cons.mp h).imp_right (List.mem_cons_of_mem _)
  | case3 k v rest => exact List.mem_cons.mp h
  | case4 k v rest _ _ ih =>
    rcases List.mem_cons.mp h with rfl | hm
    · exact .inr List.mem_cons_self
    · exact (ih hm).imp_right (List.mem_cons_of_mem _)

theorem ascending_setMember (h : Ascending members) : Ascending (setMember key value members) := by
  fun_induction setMember key value members with
  | case1 => exact List.pairwise_singleton _ _
  | case2 v rest => exact List.pairwise_cons.mpr (List.pairwise_cons.mp h)
  | case3 k v rest _ hlt =>
    refine List.pairwise_cons.mpr ⟨fun m hm => ?_, h⟩
    rcases List.mem_cons.mp hm with rfl | hm
    · exact hlt
    · exact String.lt_trans hlt (List.rel_of_pairwise_cons h hm)
  | case4 k v rest hne hlt ih =>
    have hgt : k < key := Std.lt_of_le_of_ne hlt fun heq => hne heq.symm
    obtain ⟨hfirst, hrest⟩ := List.pairwise_cons.mp h
    refine List.pairwise_cons.mpr ⟨fun m hm => ?_, ih hrest⟩
    rcases mem_setMember hm with rfl | hm
    · exact hgt
    · exact hfirst m hm

theorem lookup_setMember :
    (setMember key value members).lookup k = if k = key then some value else members.lookup k := by
  fun_induction setMember key value members with
  | case1 => exact lookup_member
  | case2 v rest => by_cases hk : k = key <;> simp [lookup_member, hk]
  | case3 k' v rest => exact lookup_member
  | case4 k' v rest hne _ ih =>
    by_cases hk : k = k'
    · simp [hk, Ne.symm hne]
    · simp [lookup_member, hk, ih]

/-- A member above all others comes last. -/
theorem setMember_of_above (h : ∀ m ∈ members, m.1 < key) :
    setMember key value members = members ++ [(key, value)] := by
  fun_induction setMember key value members with
  | case1 => rfl
  | case2 v rest => exact absurd (h _ List.mem_cons_self) (String.lt_irrefl _)
  | case3 k v rest _ hlt => exact absurd (String.lt_trans hlt (h _ List.mem_cons_self)) (String.lt_irrefl _)
  | case4 k v rest _ _ ih => rw [ih fun m hm => h m (List.mem_cons_of_mem _ hm), List.cons_append]

def gather (members : List (String × Json)) : List (String × Json) :=
  members.foldl (fun object m => setMember m.1 m.2 object) []

theorem ofMembers_eq : ofMembers members = .object (gather members) := rfl

theorem gather_concat : gather (members ++ [m]) = setMember m.1 m.2 (gather members) := by
  simp [gather]

theorem ascending_gather (members : List (String × Json)) : Ascending (gather members) := by
  induction members using List.reverseRecOn with
  | nil => exact List.Pairwise.nil
  | append_singleton rest m ih => rw [gather_concat]; exact ascending_setMember ih

theorem mem_gather (h : m ∈ gather members) : m ∈ members := by
  induction members using List.reverseRecOn with
  | nil => exact h
  | append_singleton rest last ih =>
    rw [gather_concat] at h
    rcases mem_setMember h with rfl | hm
    · exact List.mem_append_right _ List.mem_cons_self
    · exact List.mem_append_left _ (ih hm)

theorem gather_of_ascending (h : Ascending members) : gather members = members := by
  induction members using List.reverseRecOn with
  | nil => rfl
  | append_singleton rest m ih =>
    obtain ⟨hrest, -, hlast⟩ := List.pairwise_append.mp h
    rw [gather_concat, ih hrest, setMember_of_above fun m' hm' => hlast m' hm' m List.mem_cons_self]

/-- Of a repeated key the last value counts. -/
theorem lookup_gather (members : List (String × Json)) (key : String) :
    (gather members).lookup key = members.reverse.lookup key := by
  induction members using List.reverseRecOn with
  | nil => rfl
  | append_singleton rest m ih =>
    rw [gather_concat, lookup_setMember, ih, List.reverse_concat, lookup_member]

/-- Members in order are known by what is found under each key. -/
theorem Ascending.ext {members' : List (String × Json)} (h : Ascending members) (h' : Ascending members')
    (hsame : ∀ key, members.lookup key = members'.lookup key) : members = members' := by
  have mem_of_mem {xs ys : List (String × Json)} (hx : Ascending xs)
      (heq : ∀ key, xs.lookup key = ys.lookup key) : ∀ m ∈ xs, m ∈ ys := by
    intro m hm
    have hfound := heq m.1
    rw [hx.lookup hm] at hfound
    obtain ⟨before, after, hys, -⟩ := List.lookup_eq_some_iff.mp hfound.symm
    rw [hys]
    exact List.mem_append_right _ List.mem_cons_self
  have nodup {xs : List (String × Json)} (hx : Ascending xs) : xs.Nodup := by
    apply hx.imp
    intro a b hab heq
    exact String.lt_irrefl _ (heq ▸ hab)
  have hperm : members.Perm members' := by
    apply (List.perm_ext_iff_of_nodup (nodup h) (nodup h')).mpr
    intro m
    exact ⟨mem_of_mem h hsame m, mem_of_mem h' (fun key => (hsame key).symm) m⟩
  apply hperm.eq_of_pairwise _ h h'
  intro a b _ _ hab hba
  exact absurd (String.lt_trans hab hba) (String.lt_irrefl _)

theorem lookup_filter (p : String → Bool) (members : List (String × Json)) (key : String) :
    (members.filter fun m => p m.1).lookup key = if p key then members.lookup key else none := by
  induction members with
  | nil => simp
  | cons m rest ih =>
    obtain ⟨k, v⟩ := m
    rw [List.filter_cons, lookup_member]
    by_cases hkey : key = k
    · subst hkey
      by_cases hp : p key <;> simp [hp, ih]
    · by_cases hp : p k <;> simp [hp, ih, lookup_member, hkey]

end Members

/-! ### Well-formed documents -/

/-- The documents there can be: integers fit 64 bits, signed or unsigned, and members are in order. -/
inductive WellFormed : Json → Prop
  | null : WellFormed .null
  | boolean (b : Bool) : WellFormed (.boolean b)
  | integer {n : Int} : Int64.minValue.toInt ≤ n → n < UInt64.size → WellFormed (.integer n)
  | double (x : Double) : WellFormed (.double x)
  | string (s : String) : WellFormed (.string s)
  | array {items : List Json} : (∀ item ∈ items, WellFormed item) → WellFormed (.array items)
  | object {members : List (String × Json)} : Ascending members → (∀ m ∈ members, WellFormed m.2) →
      WellFormed (.object members)

end RobotBridge.Json
