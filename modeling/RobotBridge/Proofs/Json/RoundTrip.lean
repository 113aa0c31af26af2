import Mathlib.Data.List.DropRight
import RobotBridge.Json.Parse
import RobotBridge.Proofs.Json.Document
import RobotBridge.Proofs.Json.Number
import RobotBridge.Proofs.Json.Text

/-! Documents are read back from their text, unless they nest too deep to be read at all. -/
namespace RobotBridge.Json
open Numeric

variable {cs cs' rest : List Char} {c : Char} {d fuel : Nat} {j : Json}

/-! ### Blanks and scalars -/

theorem skipBlank_cons (h : isBlank c = false) : skipBlank (c :: cs) = c :: cs :=
  List.dropWhile_cons_of_neg (by simp [h])

theorem value?_scalar (hc : isBlank c = false) (harray : c ≠ '[') (hobject : c ≠ '\x7b') :
    value? d (c :: cs) = scalar? (c :: cs) := by
  unfold value?
  rw [skipBlank_cons hc]
  split <;> simp_all

theorem ne_of_numeric {c' : Char} (h : isNumeric c) (h' : isNumeric c' = false) : c ≠ c' := by
  rintro rfl
  exact absurd h (ne_true_of_eq_false h')

theorem isBlank_of_numeric (h : isNumeric c) : isBlank c = false := by
  simp only [isBlank, Bool.or_eq_false_iff, beq_eq_false_iff_ne]
  exact ⟨⟨⟨ne_of_numeric h rfl, ne_of_numeric h rfl⟩, ne_of_numeric h rfl⟩, ne_of_numeric h rfl⟩

theorem value?_number (h : isNumeric c) : value? d (c :: cs) = number? (c :: cs) := by
  have hhead {c' : Char} {tail : List Char} (h' : isNumeric c' = false) : c :: cs ≠ c' :: tail :=
    fun heq => ne_of_numeric h h' (List.cons.inj heq).1
  rw [value?_scalar (isBlank_of_numeric h) (ne_of_numeric h rfl) (ne_of_numeric h rfl), scalar?]
  · exact fun _ => hhead rfl
  · exact fun _ => hhead rfl
  · exact fun _ => hhead rfl
  · exact fun _ => hhead rfl

theorem value?_skipBlank (d : Nat) (cs : List Char) : value? d (skipBlank cs) = value? d cs := by
  have hidem : skipBlank (skipBlank cs) = skipBlank cs := List.dropWhile_idempotent isBlank cs
  unfold value?
  rw [hidem]

/-- A closing bracket starts no value. -/
theorem value?_close (d : Nat) (tail : List Char) : value? d (']' :: tail) = none := by
  cases d <;> rfl

/-! ### Arrays and objects -/

-- Here and below `simp` rules the closing bracket out by `h`, which it finds among the hypotheses.
theorem value?_array (h : ∀ tail, skipBlank cs ≠ ']' :: tail) : value? (d + 1) ('[' :: cs) =
    (items? (value? d) cs.length cs).map fun (items, rest) => (Json.array items, rest) := by
  have hhead : skipBlank ('[' :: cs) = '[' :: cs := rfl
  unfold value?
  simp only [hhead]

theorem value?_object (h : ∀ tail, skipBlank cs ≠ '\x7d' :: tail) : value? (d + 1) ('\x7b' :: cs) =
    (members? (value? d) cs.length cs).map fun (members, rest) => (ofMembers members, rest) := by
  have hhead : skipBlank ('\x7b' :: cs) = '\x7b' :: cs := rfl
  unfold value?
  simp only [hhead]

section Lists

variable {element : List Char → Option (Json × List Char)} {item value : Json} {key : String}

theorem items?_last (h : element cs = some (item, ']' :: rest)) :
    items? element (fuel + 1) cs = some ([item], rest) := by
  rw [items?, h]
  rfl

theorem items?_more (h : element cs = some (item, ',' :: cs')) : items? element (fuel + 1) cs =
    (items? element fuel cs').map fun (items, rest) => (item :: items, rest) := by
  rw [items?, h, Option.map_eq_bind]
  rfl

theorem items?_none (h : element cs = none) : items? element (fuel + 1) cs = none := by
  rw [items?, h]
  rfl

theorem members?_last (hkey : key? cs = some (key, cs')) (h : element cs' = some (value, '\x7d' :: rest)) :
    members? element (fuel + 1) cs = some ([(key, value)], rest) := by
  simp only [members?, hkey, h, Option.bind_eq_bind, Option.bind_some]
  rfl

theorem members?_more {cs'' : List Char} (hkey : key? cs = some (key, cs'))
    (h : element cs' = some (value, ',' :: cs'')) : members? element (fuel + 1) cs =
      (members? element fuel cs'').map fun (members, rest) => ((key, value) :: members, rest) := by
  simp only [members?, hkey, h, Option.bind_eq_bind, Option.bind_some, Option.map_eq_bind]
  rfl

theorem members?_none (hkey : key? cs = some (key, cs')) (h : element cs' = none) :
    members? element (fuel + 1) cs = none := by
  simp only [members?, hkey, h, Option.bind_eq_bind, Option.bind_some, Option.bind_none]

theorem key?_renderString (key : String) (rest : List Char) :
    key? (renderString key ++ ':' :: rest) = some (key, rest) := by
  rw [renderString_append, key?, skipBlank_cons (by rfl)]
  simp only [stringBody?_escaped, Option.bind_eq_bind, Option.bind_some,
    skipBlank_cons (show isBlank ':' = false from rfl), Option.pure_def]

end Lists

/-! ### The text of a document -/

/-- The text of a document is read as the document if it nests no deeper than `d`, and not at all
otherwise. -/
def Reads (d : Nat) (j : Json) : Prop := ∀ rest, Apart rest →
  value? d (j.outline.compact ++ rest) = if j.depth ≤ d then some (j, rest) else none

section Compact

variable {items : List Json} {members : List (String × Json)} {item value : Json} {key : String}
  {next : String × Json}

open Outline (compactItems compactMembers)

theorem compactItems_last : compactItems (outlineItems [item]) ++ rest = item.outline.compact ++ ']' :: rest :=
  List.append_assoc _ _ _

theorem compactItems_more {next : Json} : compactItems (outlineItems (item :: next :: items)) ++ rest =
    item.outline.compact ++ ',' :: (compactItems (outlineItems (next :: items)) ++ rest) :=
  List.append_assoc _ _ _

theorem compactMembers_last : compactMembers (outlineMembers [(key, value)]) ++ rest =
    renderString key ++ ':' :: (value.outline.compact ++ '\x7d' :: rest) := by
  simp [outlineMembers, compactMembers]

theorem compactMembers_more : compactMembers (outlineMembers ((key, value) :: next :: members)) ++ rest =
    renderString key ++ ':' :: (value.outline.compact ++
      ',' :: (compactMembers (outlineMembers (next :: members)) ++ rest)) := by
  simp [outlineMembers, compactMembers]

/-- Items are read in order, up to the first that nests too deep. -/
theorem items?_compact (hitems : ∀ item ∈ items, Reads d item) (hne : items ≠ [])
    (hfuel : items.length ≤ fuel) (rest : List Char) :
    items? (value? d) fuel (compactItems (outlineItems items) ++ rest) =
      if itemsDepth items ≤ d then some (items, rest) else none := by
  induction items generalizing fuel with
  | nil => exact absurd rfl hne
  | cons item items ih =>
    obtain ⟨fuel, rfl⟩ := Nat.exists_eq_succ_of_ne_zero (Nat.ne_of_gt (Nat.zero_lt_of_lt hfuel))
    have hitem := hitems item List.mem_cons_self
    cases items with
    | nil =>
      have hread := hitem (']' :: rest) (apart_cons rfl)
      rw [compactItems_last, itemsDepth, itemsDepth, Nat.max_zero]
      by_cases hd : item.depth ≤ d
      · rw [if_pos hd] at hread ⊢
        exact items?_last hread
      · rw [if_neg hd] at hread ⊢
        exact items?_none hread
    | cons next items =>
      have hread := hitem (',' :: (compactItems (outlineItems (next :: items)) ++ rest)) (apart_cons rfl)
      have hnext := ih (fun item h => hitems item (List.mem_cons_of_mem _ h)) (List.cons_ne_nil _ _)
        (Nat.le_of_succ_le_succ hfuel)
      simp only [compactItems_more, itemsDepth.eq_2 item, Nat.max_le]
      by_cases hd : item.depth ≤ d
      · rw [if_pos hd] at hread
        rw [items?_more hread, hnext]
        simp only [hd, true_and]
        split <;> rfl
      · rw [if_neg hd] at hread
        rw [items?_none hread, if_neg fun h => hd h.1]

theorem members?_compact (hmembers : ∀ m ∈ members, Reads d m.2) (hne : members ≠ [])
    (hfuel : members.length ≤ fuel) (rest : List Char) :
    members? (value? d) fuel (compactMembers (outlineMembers members) ++ rest) =
      if membersDepth members ≤ d then some (members, rest) else none := by
  induction members generalizing fuel with
  | nil => exact absurd rfl hne
  | cons m members ih =>
    obtain ⟨key, value⟩ := m
    obtain ⟨fuel, rfl⟩ := Nat.exists_eq_succ_of_ne_zero (Nat.ne_of_gt (Nat.zero_lt_of_lt hfuel))
    have hvalue : Reads d value := hmembers (key, value) List.mem_cons_self
    cases members with
    | nil =>
      have hread := hvalue ('\x7d' :: rest) (apart_cons rfl)
      rw [compactMembers_last, membersDepth, membersDepth, Nat.max_zero]
      by_cases hd : value.depth ≤ d
      · rw [if_pos hd] at hread ⊢
        exact members?_last (key?_renderString key _) hread
      · rw [if_neg hd] at hread ⊢
        exact members?_none (key?_renderString key _) hread
    | cons next members =>
      have hread := hvalue (',' :: (compactMembers (outlineMembers (next :: members)) ++ rest)) (apart_cons rfl)
      have hnext := ih (fun m h => hmembers m (List.mem_cons_of_mem _ h)) (List.cons_ne_nil _ _)
        (Nat.le_of_succ_le_succ hfuel)
      simp only [compactMembers_more, membersDepth.eq_2, Nat.max_le]
      by_cases hd : value.depth ≤ d
      · rw [if_pos hd] at hread
        rw [members?_more (key?_renderString key _) hread, hnext]
        simp only [hd, true_and]
        split <;> rfl
      · rw [if_neg hd] at hread
        rw [members?_none (key?_renderString key _) hread, if_neg fun h => hd h.1]

/-- There is fuel enough: each item takes a character. -/
theorem length_le_compactItems (items : List Json) (rest : List Char) :
    items.length ≤ (compactItems (outlineItems items) ++ rest).length := by
  induction items with
  | nil => exact Nat.zero_le _
  | cons item items ih =>
    cases items with
    | nil =>
      simp only [compactItems_last, List.length_append, List.length_cons, List.length_nil]
      omega
    | cons next items =>
      simp only [compactItems_more, List.length_append, List.length_cons] at ih ⊢
      omega

theorem length_le_compactMembers (members : List (String × Json)) (rest : List Char) :
    members.length ≤ (compactMembers (outlineMembers members) ++ rest).length := by
  induction members with
  | nil => exact Nat.zero_le _
  | cons m members ih =>
    obtain ⟨key, value⟩ := m
    cases members with
    | nil =>
      simp only [compactMembers_last, List.length_append, List.length_cons, List.length_nil]
      omega
    | cons next members =>
      simp only [compactMembers_more, List.length_append, List.length_cons] at ih ⊢
      omega

/-- The text of a document does not start with a closing bracket. -/
theorem Reads.not_closed (h : ∀ d, Reads d item) (hr : Apart rest) (tail : List Char) :
    skipBlank (item.outline.compact ++ rest) ≠ ']' :: tail := by
  intro heq
  have hread := h item.depth rest hr
  rw [if_pos (Nat.le_refl _), ← value?_skipBlank, heq, value?_close] at hread
  contradiction

theorem reads_array (h : ∀ item ∈ items, ∀ d, Reads d item) (d : Nat) : Reads d (.array items) := by
  intro rest _
  cases d with
  | zero => rfl
  | succ d =>
    simp only [outline, Outline.compact, List.cons_append, depth, Nat.succ_le_succ_iff]
    cases items with
    | nil => rfl
    | cons item items =>
      have hitem : ∀ d, Reads d item := h item List.mem_cons_self
      have hfirst : ∀ tail, skipBlank (compactItems (outlineItems (item :: items)) ++ rest) ≠ ']' :: tail := by
        cases items with
        | nil =>
          rw [compactItems_last]
          exact Reads.not_closed hitem (apart_cons rfl)
        | cons next items =>
          rw [compactItems_more]
          exact Reads.not_closed hitem (apart_cons rfl)
      rw [value?_array hfirst, items?_compact (fun item hm => h item hm d) (List.cons_ne_nil _ _)
        (length_le_compactItems _ _)]
      split <;> rfl

/-- An object is read as its members in the order of the text. -/
theorem value?_members (h : ∀ m ∈ members, Reads d m.2) (rest : List Char) :
    value? (d + 1) ('\x7b' :: (compactMembers (outlineMembers members) ++ rest)) =
      if membersDepth members ≤ d then some (ofMembers members, rest) else none := by
  cases members with
  | nil => rfl
  | cons m members =>
    obtain ⟨key, value⟩ := m
    have hquote : ∃ tail, compactMembers (outlineMembers ((key, value) :: members)) ++ rest = '"' :: tail := by
      cases members with
      | nil => exact ⟨_, by rw [compactMembers_last, renderString_append]⟩
      | cons next members => exact ⟨_, by rw [compactMembers_more, renderString_append]⟩
    have hfirst : ∀ tail,
        skipBlank (compactMembers (outlineMembers ((key, value) :: members)) ++ rest) ≠ '\x7d' :: tail := by
      obtain ⟨tail, heq⟩ := hquote
      rw [heq, skipBlank_cons (by rfl)]
      exact fun _ heq => absurd (List.cons.inj heq).1 (by decide)
    rw [value?_object hfirst, members?_compact h (List.cons_ne_nil _ _) (length_le_compactMembers _ _)]
    split <;> rfl

theorem reads_object (h : ∀ m ∈ members, ∀ d, Reads d m.2) (hord : Ascending members) (d : Nat) :
    Reads d (.object members) := by
  intro rest _
  cases d with
  | zero => rfl
  | succ d =>
    simp only [outline, Outline.compact, List.cons_append, depth, Nat.succ_le_succ_iff]
    rw [value?_members (fun m hm => h m hm d), ofMembers_eq, gather_of_ascending hord]

end Compact

/-! ### Scalars -/

theorem reads_leaf {text : List Char} (hleaf : j.outline = .leaf text) (hdepth : j.depth = 0)
    (h : ∀ rest, Apart rest → value? d (text ++ rest) = some (j, rest)) : Reads d j := by
  intro rest hr
  rw [hleaf, Outline.compact, h rest hr, hdepth, if_pos (Nat.zero_le d)]

theorem reads_null (d : Nat) : Reads d .null :=
  reads_leaf rfl rfl fun _ _ => value?_scalar rfl (by decide) (by decide)

theorem reads_boolean (b : Bool) (d : Nat) : Reads d (.boolean b) := by
  refine reads_leaf rfl rfl fun rest _ => ?_
  cases b
  · exact value?_scalar rfl (by decide) (by decide)
  · exact value?_scalar rfl (by decide) (by decide)

theorem reads_string (s : String) (d : Nat) : Reads d (.string s) := by
  refine reads_leaf rfl rfl fun rest _ => ?_
  rw [renderString_append, value?_scalar rfl (by decide) (by decide), scalar?, stringBody?_escaped,
    Option.map_some]

theorem reads_number {text : List Char} (hleaf : j.outline = .leaf text) (hdepth : j.depth = 0)
    (hc : ∀ c ∈ text, isNumeric c) (h : number? text = some (j, [])) (d : Nat) : Reads d j := by
  refine reads_leaf hleaf hdepth fun rest hr => ?_
  cases text with
  | nil => exact absurd (h.symm.trans number?_nil) (Option.some_ne_none _)
  | cons c cs =>
    rw [List.cons_append, value?_number (hc c List.mem_cons_self), ← List.cons_append,
      (number?_scans h).2 rest hr, List.nil_append]

/-! ### Doubles -/

/-- Behind the document of a whole text there are blanks only. -/
theorem parse?_eq_some_iff {text : String} :
    parse? text = some j ↔ ∃ rest, value? depthLimit text.toList = some (j, rest) ∧ skipBlank rest = [] := by
  constructor
  · intro h
    obtain ⟨⟨j', rest⟩, hvalue, h⟩ := Option.bind_eq_some_iff.mp h
    obtain ⟨_, hguard, heq⟩ := Option.bind_eq_some_iff.mp h
    obtain rfl := Option.some.inj heq
    exact ⟨rest, hvalue, List.isEmpty_iff.mp ((Option.guard_eq_some' _).mp hguard)⟩
  · rintro ⟨rest, hvalue, hrest⟩
    have hguard := (Option.guard_eq_some' ()).mpr (List.isEmpty_iff.mpr hrest)
    simp only [parse?, hvalue, hguard, Option.bind_eq_bind, Option.bind_some, Option.pure_def]

/-- A finite double that equals, as a number, what is read from its text. -/
structure ReadsBack (x : Double) : Prop where
  isFinite : x.isFinite
  sameValue : ∃ y, parse? (render (.double x)) = some (.double y) ∧ x.sameValue y

namespace ReadsBack

variable {x : Double}

/-- The zeros keep their sign. -/
theorem zeros (h : x.isZero) : parse? (render (.double x)) = some (.double x) := by
  have hword : x = ⟨0#64⟩ ∨ x = ⟨0x8000000000000000#64⟩ := by
    obtain ⟨word⟩ := x
    have hlt : word.toNat < 2 ^ 64 := word.isLt
    have hmagnitude : word.toNat % 2 ^ 63 = 0 := eq_of_beq h
    have hcases : word.toNat = 0 ∨ word.toNat = 2 ^ 63 := by omega
    rcases hcases with hz | hz
    · exact .inl (congrArg _ (BitVec.eq_of_toNat_eq hz))
    · exact .inr (congrArg _ (BitVec.eq_of_toNat_eq hz))
  refine parse?_eq_some_iff.mpr ⟨[], ?_, rfl⟩
  rw [render, String.toList_ofList]
  rcases hword with rfl | rfl
  · rfl
  · rfl

/-- Read back, a double is the same to the bit. -/
theorem parse?_render (h : ReadsBack x) : parse? (render (.double x)) = some (.double x) := by
  obtain ⟨y, hparse, hsame⟩ := h.sameValue
  simp only [Binary.sameValue, Bool.and_eq_true, Bool.or_eq_true, beq_iff_eq] at hsame
  rcases hsame.2 with hword | ⟨hzero, -⟩
  · obtain ⟨word⟩ := x
    obtain ⟨word'⟩ := y
    obtain rfl : word = word' := hword
    exact hparse
  · exact zeros hzero

theorem numeric (h : ReadsBack x) : ∀ c ∈ renderBinary .double x, isNumeric c := by
  rw [renderBinary, if_pos h.isFinite]
  exact finite_numeric .double x

theorem number (h : ReadsBack x) : number? (renderBinary .double x) = some (.double x, []) := by
  obtain ⟨rest, hvalue, hrest⟩ := parse?_eq_some_iff.mp h.parse?_render
  rw [render, String.toList_ofList, outline, Outline.compact] at hvalue
  have hnumeric := h.numeric
  cases htext : renderBinary .double x with
  | nil =>
    rw [htext] at hvalue
    exact absurd hvalue (by simp [show value? depthLimit [] = none from rfl])
  | cons c cs =>
    rw [htext] at hvalue hnumeric
    rw [value?_number (hnumeric c List.mem_cons_self)] at hvalue
    -- What is left is the end of the number, so it has no blanks to skip.
    cases rest with
    | nil => exact hvalue
    | cons c' rest =>
      have hc' := hnumeric c' ((number?_scans hvalue).1.subset List.mem_cons_self)
      rw [skipBlank_cons (isBlank_of_numeric hc')] at hrest
      contradiction

end ReadsBack

/-! ### Whole documents -/

/-- A document whose doubles are read back is read back itself. -/
theorem WellFormed.reads (h : j.WellFormed) (hx : ∀ x ∈ j.doubles, ReadsBack x) (d : Nat) : Reads d j := by
  induction h generalizing d with
  | null => exact reads_null d
  | boolean b => exact reads_boolean b d
  | @integer n hlow hhigh =>
    exact reads_number rfl rfl (renderInteger_numeric n) (number?_renderInteger hlow hhigh) d
  | double x =>
    have hback := hx x (List.mem_singleton_self x)
    exact reads_number rfl rfl hback.numeric hback.number d
  | string s => exact reads_string s d
  | @array items _ ih =>
    refine reads_array (fun item hm d => ih item hm (fun x h => hx x ?_) d) d
    exact mem_itemsDoubles.mpr ⟨item, hm, h⟩
  | @object members hord _ ih =>
    refine reads_object (fun m hm d => ih m hm (fun x h => hx x ?_) d) hord d
    exact mem_membersDoubles.mpr ⟨m, hm, h⟩

/-- Written and read, such a document is the same, up to the depth that a text may nest. -/
theorem WellFormed.parse?_render (h : j.WellFormed) (hx : ∀ x ∈ j.doubles, ReadsBack x) :
    parse? j.render = if j.depth ≤ depthLimit then some j else none := by
  have hread := h.reads hx depthLimit [] apart_nil
  rw [List.append_nil] at hread
  rw [parse?, render, String.toList_ofList, hread]
  split <;> rfl

end RobotBridge.Json
