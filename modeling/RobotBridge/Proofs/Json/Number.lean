import Mathlib.Data.List.TakeDrop
import Mathlib.Data.List.TakeWhile
import Mathlib.Data.Option.Basic
import RobotBridge.Json.Number
import RobotBridge.Json.Render

/-! Numbers in documents: where the text of a number ends, what it stands for, and that integers are
read back from their text. -/
namespace RobotBridge.Json
open Numeric

variable {cs rest ds whole : List Char} {negative : Bool} {j : Json}

/-! ### Where a number ends -/

def isNumeric (c : Char) : Bool := c.isDigit || c == '.' || c == 'e' || c == 'E' || c == '+' || c == '-'

/-- What does not go on the number before it. -/
def Apart (rest : List Char) : Prop := ∀ c ∈ rest.head?, isNumeric c = false

theorem apart_nil : Apart [] := fun c h => absurd h (Option.not_mem_none c)

theorem apart_cons {c : Char} (h : isNumeric c = false) : Apart (c :: rest) := by
  intro c' hc'
  obtain rfl := Option.some.inj hc'
  exact h

theorem Apart.ne {c : Char} (h : Apart (c :: rest)) {c' : Char} (hc : isNumeric c' = true) : c ≠ c' := by
  rintro rfl
  exact absurd (h c rfl) (ne_false_of_eq_true hc)

/-- What is numeric at the front stands before what is apart. -/
theorem Apart.append_eq_cons {c : Char} {tail : List Char} (hr : Apart rest) (hc : isNumeric c)
    (h : cs ++ rest = c :: tail) : ∃ tail', cs = c :: tail' := by
  rcases List.append_eq_cons_iff.mp h with ⟨-, rfl⟩ | ⟨tail', rfl, -⟩
  · exact absurd rfl (hr.ne hc)
  · exact ⟨tail', rfl⟩

theorem isNumeric_of_isDigit {c : Char} (h : c.isDigit) : isNumeric c := by simp [isNumeric, h]

/-- The digits at the front are all there are before something else. -/
theorem digits?_eq_some_iff : digits? cs = some (ds, rest) ↔
    ds ≠ [] ∧ cs = ds ++ rest ∧ (∀ c ∈ ds, c.isDigit) ∧ ∀ c ∈ rest.head?, ¬ c.isDigit := by
  have hspan : digits? cs = some (ds, rest) ↔
      ds ≠ [] ∧ cs.takeWhile Char.isDigit = ds ∧ cs.dropWhile Char.isDigit = rest := by
    rw [digits?, List.span_eq_takeWhile_dropWhile]
    cases h : cs.takeWhile Char.isDigit with
    | nil => simpa using fun hne heq => absurd heq hne
    | cons c tail =>
      simp only [Option.some.injEq, Prod.mk.injEq]
      exact ⟨fun ⟨h₁, h₂⟩ => ⟨h₁ ▸ List.cons_ne_nil c tail, h₁, h₂⟩, And.right⟩
  rw [hspan]
  refine and_congr_right fun _ => ⟨?_, ?_⟩
  · rintro ⟨rfl, rfl⟩
    refine ⟨List.takeWhile_append_dropWhile.symm, fun c hc => List.mem_takeWhile_imp hc, fun c hc => ?_⟩
    have hnot := List.head?_dropWhile_not Char.isDigit cs
    rw [Option.mem_def.mp hc] at hnot
    simpa using hnot
  · rintro ⟨rfl, hds, hrest⟩
    rw [List.takeWhile_append_of_pos hds, List.dropWhile_append_of_pos hds]
    cases rest with
    | nil => exact ⟨List.append_nil _, rfl⟩
    | cons c rest =>
      have hc : ¬ c.isDigit := hrest c rfl
      exact ⟨by rw [List.takeWhile_cons_of_neg hc, List.append_nil], List.dropWhile_cons_of_neg hc⟩

/-- A scanner leaves the end of a text, and does the same with something apart behind the text. -/
def Scans {α : Type} (scan : List Char → Option (α × List Char)) : Prop := ∀ {cs a cs'},
  scan cs = some (a, cs') → cs' <:+ cs ∧ ∀ rest, Apart rest → scan (cs ++ rest) = some (a, cs' ++ rest)

theorem digits?_scans : Scans digits? := by
  intro cs ds cs' h
  obtain ⟨hne, rfl, hds, hcs'⟩ := digits?_eq_some_iff.mp h
  refine ⟨List.suffix_append _ _, fun rest hr => ?_⟩
  refine digits?_eq_some_iff.mpr ⟨hne, List.append_assoc _ _ _, hds, fun c hc => ?_⟩
  cases cs' with
  | nil => exact fun hdigit => absurd (hr c hc) (ne_false_of_eq_true (isNumeric_of_isDigit hdigit))
  | cons c' cs' => exact hcs' c hc

theorem digits?_nil : digits? [] = none := rfl

theorem fraction?_scans : Scans fraction? := by
  intro cs fraction cs' h
  unfold fraction? at h
  split at h
  case h_1 cs =>
    obtain ⟨⟨ds, cs₁⟩, hds, heq⟩ := Option.map_eq_some_iff.mp h
    obtain ⟨rfl, rfl⟩ := Prod.mk.inj heq
    obtain ⟨hsuffix, happend⟩ := digits?_scans hds
    refine ⟨hsuffix.trans (List.suffix_cons _ _), fun rest hr => ?_⟩
    rw [List.cons_append, fraction?, happend rest hr, Option.map_some]
  case h_2 hpoint =>
    obtain ⟨rfl, rfl⟩ := Prod.mk.inj (Option.some.inj h)
    refine ⟨List.suffix_rfl, fun rest hr => ?_⟩
    unfold fraction?
    split
    case h_1 heq =>
      obtain ⟨tail, rfl⟩ := hr.append_eq_cons (by decide) heq
      exact absurd rfl (hpoint tail)
    case h_2 => rfl

def signOf : List Char → Bool × List Char
  | '+' :: cs => (false, cs)
  | '-' :: cs => (true, cs)
  | cs => (false, cs)

theorem signed_eq (cs : List Char) : exponent?.signed cs = (digits? (signOf cs).2).map fun (ds, rest) =>
    (some (if (signOf cs).1 then -(Nat.ofDigitChars 10 ds 0 : Int) else Nat.ofDigitChars 10 ds 0), rest) := by
  rw [Option.map_eq_bind]
  rfl

theorem signOf_suffix (cs : List Char) : (signOf cs).2 <:+ cs := by
  fun_cases signOf cs with
  | case1 => exact List.suffix_cons _ _
  | case2 => exact List.suffix_cons _ _
  | case3 => exact List.suffix_rfl

theorem signOf_append (hne : cs ≠ []) : signOf (cs ++ rest) = ((signOf cs).1, (signOf cs).2 ++ rest) := by
  fun_cases signOf cs with
  | case1 => rfl
  | case2 => rfl
  | case3 _ hplus hminus =>
    obtain ⟨c, cs, rfl⟩ := List.exists_cons_of_ne_nil hne
    rw [List.cons_append, signOf]
    · exact fun _ heq => hplus cs (by rw [(List.cons.inj heq).1])
    · exact fun _ heq => hminus cs (by rw [(List.cons.inj heq).1])

theorem signed_scans : Scans exponent?.signed := by
  intro cs exponent cs' h
  -- Digits follow the sign, so the sign is not to be sought in what stands apart.
  have hne : cs ≠ [] := by
    rintro rfl
    exact absurd h (by simp [signed_eq, signOf, digits?_nil])
  rw [signed_eq] at h
  obtain ⟨⟨ds, cs₁⟩, hds, heq⟩ := Option.map_eq_some_iff.mp h
  obtain ⟨rfl, rfl⟩ := Prod.mk.inj heq
  obtain ⟨hsuffix, happend⟩ := digits?_scans hds
  refine ⟨hsuffix.trans (signOf_suffix cs), fun rest hr => ?_⟩
  rw [signed_eq, signOf_append hne, happend rest hr, Option.map_some]

theorem exponent?_scans : Scans exponent? := by
  intro cs exponent cs' h
  unfold exponent? at h
  split at h
  case h_1 cs => exact (signed_scans h).imp_left fun hsuffix => hsuffix.trans (List.suffix_cons _ _)
  case h_2 cs => exact (signed_scans h).imp_left fun hsuffix => hsuffix.trans (List.suffix_cons _ _)
  case h_3 hlower hupper =>
    obtain ⟨rfl, rfl⟩ := Prod.mk.inj (Option.some.inj h)
    refine ⟨List.suffix_rfl, fun rest hr => ?_⟩
    unfold exponent?
    split
    case h_1 heq =>
      obtain ⟨tail, rfl⟩ := hr.append_eq_cons (by decide) heq
      exact absurd rfl (hlower tail)
    case h_2 heq =>
      obtain ⟨tail, rfl⟩ := hr.append_eq_cons (by decide) heq
      exact absurd rfl (hupper tail)
    case h_3 => rfl

/-! ### What a number stands for -/

def numberOf (negative : Bool) (whole : List Char) (fraction : Option (List Char)) (exponent : Option Int) :
    Option Json :=
  let head := whole.foldl Digits.pushInteger ⟨0, 0, false⟩
  match fraction, exponent with
  | none, none => if head.full then doubleOf negative head 0 else some (integerOf negative head.significand)
  | _, _ =>
    doubleOf negative ((fraction.getD []).foldl Digits.pushFraction { head with full := false })
      (exponent.getD 0)

/-- A number after its sign is read part by part. -/
theorem unsigned?_eq_some_iff : unsigned? negative cs = some (j, rest) ↔
    ∃ whole cs₁ fraction cs₂ exponent, digits? cs = some (whole, cs₁) ∧
      (whole.head? ≠ some '0' ∨ whole.length = 1) ∧ fraction? cs₁ = some (fraction, cs₂) ∧
      exponent? cs₂ = some (exponent, rest) ∧ numberOf negative whole fraction exponent = some j := by
  have hunsigned : unsigned? negative cs = (digits? cs).bind fun w =>
      if w.1.head? ≠ some '0' ∨ w.1.length = 1 then
        (fraction? w.2).bind fun f => (exponent? f.2).bind fun e =>
          (numberOf negative w.1 f.1 e.1).map fun j => (j, e.2)
      else none := by
    unfold unsigned?
    refine Option.bind_congr fun w _ => ?_
    obtain ⟨whole, cs₁⟩ := w
    by_cases hhead : whole.head? ≠ some '0' ∨ whole.length = 1
    · have hguard := (Option.guard_eq_some' ()).mpr hhead
      simp only [hguard, if_pos hhead, Option.pure_def, Option.bind_eq_bind, Option.bind_some]
      refine Option.bind_congr fun f _ => Option.bind_congr fun e _ => ?_
      obtain ⟨fraction, cs₂⟩ := f
      obtain ⟨exponent, rest⟩ := e
      rw [Option.map_eq_bind]
      cases fraction <;> cases exponent
      · simp only [numberOf]
        split <;> rfl
      · rfl
      · rfl
      · rfl
    · have hguard : (guard (whole.head? ≠ some '0' ∨ whole.length = 1) : Option Unit) = none := if_neg hhead
      simp only [hguard, if_neg hhead, Option.bind_eq_bind, Option.bind_none]
  constructor
  · intro h
    rw [hunsigned] at h
    obtain ⟨⟨whole, cs₁⟩, hwhole, h⟩ := Option.bind_eq_some_iff.mp h
    obtain ⟨hhead, h⟩ := Option.ite_none_right_eq_some.mp h
    obtain ⟨⟨fraction, cs₂⟩, hfraction, h⟩ := Option.bind_eq_some_iff.mp h
    obtain ⟨⟨exponent, cs₃⟩, hexponent, h⟩ := Option.bind_eq_some_iff.mp h
    obtain ⟨j, hvalue, heq⟩ := Option.map_eq_some_iff.mp h
    obtain ⟨rfl, rfl⟩ := Prod.mk.inj heq
    exact ⟨whole, cs₁, fraction, cs₂, exponent, hwhole, hhead, hfraction, hexponent, hvalue⟩
  · rintro ⟨whole, cs₁, fraction, cs₂, exponent, hwhole, hhead, hfraction, hexponent, hvalue⟩
    simp only [hunsigned, hwhole, Option.bind_some, if_pos hhead, hfraction, hexponent, hvalue, Option.map_some]

theorem unsigned?_scans : Scans (unsigned? negative) := by
  intro cs j cs' h
  obtain ⟨whole, cs₁, fraction, cs₂, exponent, hwhole, hhead, hfraction, hexponent, hvalue⟩ :=
    unsigned?_eq_some_iff.mp h
  obtain ⟨hwhole', hwhole⟩ := digits?_scans hwhole
  obtain ⟨hfraction', hfraction⟩ := fraction?_scans hfraction
  obtain ⟨hexponent', hexponent⟩ := exponent?_scans hexponent
  refine ⟨hexponent'.trans (hfraction'.trans hwhole'), fun rest hr => ?_⟩
  exact unsigned?_eq_some_iff.mpr ⟨whole, cs₁ ++ rest, fraction, cs₂ ++ rest, exponent, hwhole rest hr, hhead,
    hfraction rest hr, hexponent rest hr, hvalue⟩

theorem number?_nil : number? [] = none := rfl

theorem number?_scans : Scans number? := by
  intro cs j cs' h
  unfold number? at h
  split at h
  case h_1 cs => exact (unsigned?_scans h).imp_left fun hsuffix => hsuffix.trans (List.suffix_cons _ _)
  case h_2 hsign =>
    obtain ⟨hsuffix, happend⟩ := unsigned?_scans h
    refine ⟨hsuffix, fun rest hr => ?_⟩
    cases cs with
    | nil => exact absurd (h.symm.trans number?_nil) (Option.some_ne_none _)
    | cons c cs =>
      have hne : c ≠ '-' := fun heq => hsign cs (heq ▸ rfl)
      rw [← happend rest hr, List.cons_append, number?]
      exact fun _ heq => hne (List.cons.inj heq).1

/-! ### Integers -/

theorem valueOf_digitChar {d : Nat} (h : d < 10) : Digits.valueOf (Nat.digitChar d) = d :=
  Nat.toNat_digitChar_sub_48_of_lt_ten h

theorem pushInteger_digit {n d : Nat} {exponent : Int} (hd : d < 10) (h : n * 10 + d < UInt64.size) :
    Digits.pushInteger ⟨n, exponent, false⟩ (Nat.digitChar d) = ⟨n * 10 + d, exponent, false⟩ := by
  have hfits : ¬ UInt64.size ≤ n * 10 + d := Nat.not_le_of_lt h
  simp [Digits.pushInteger, valueOf_digitChar hd, hfits]

theorem foldl_pushInteger (n : Nat) (h : n < UInt64.size) :
    (Nat.toDigits 10 n).foldl Digits.pushInteger ⟨0, 0, false⟩ = ⟨n, 0, false⟩ := by
  induction n using Nat.strongRecOn with
  | ind n ih =>
    by_cases hn : n < 10
    · rw [Nat.toDigits_of_lt_base hn, List.foldl_cons, List.foldl_nil,
        pushInteger_digit hn (by omega), Nat.zero_mul, Nat.zero_add]
    · have hsum : n / 10 * 10 + n % 10 = n := Nat.div_add_mod' n 10
      rw [Nat.toDigits_of_base_le (by decide) (Nat.le_of_not_lt hn), List.foldl_append,
        ih (n / 10) (by omega) (by omega), List.foldl_cons, List.foldl_nil,
        pushInteger_digit (Nat.mod_lt n (by decide)) (by omega), hsum]

/-- No digits before the first that is not zero. -/
theorem head?_toDigits {n : Nat} (hn : n ≠ 0) : (Nat.toDigits 10 n).head? ≠ some '0' := by
  induction n using Nat.strongRecOn with
  | ind n ih =>
    by_cases hlt : n < 10
    · rw [Nat.toDigits_of_lt_base hlt]
      simpa using hn
    · have hhead := ih (n / 10) (by omega) (by omega)
      obtain ⟨c, cs, hcs⟩ := List.exists_cons_of_ne_nil (Nat.toDigits_ne_nil (n := n / 10) (b := 10))
      rw [Nat.toDigits_of_base_le (by decide) (Nat.le_of_not_lt hlt)]
      rw [hcs] at hhead ⊢
      exact hhead

theorem digits?_toDigits (n : Nat) : digits? (Nat.toDigits 10 n) = some (Nat.toDigits 10 n, []) :=
  digits?_eq_some_iff.mpr ⟨Nat.toDigits_ne_nil, (List.append_nil _).symm,
    fun _ hc => Nat.isDigit_of_mem_toDigits (by decide) (by decide) hc,
    fun c hc => absurd hc (Option.not_mem_none c)⟩

theorem unsigned?_toDigits (n : Nat) (h : n < UInt64.size) :
    unsigned? negative (Nat.toDigits 10 n) = some (integerOf negative n, []) := by
  have hhead : (Nat.toDigits 10 n).head? ≠ some '0' ∨ (Nat.toDigits 10 n).length = 1 := by
    by_cases hn : n = 0
    · exact .inr (hn ▸ rfl)
    · exact .inl (head?_toDigits hn)
  refine unsigned?_eq_some_iff.mpr
    ⟨Nat.toDigits 10 n, [], none, [], none, digits?_toDigits n, hhead, rfl, rfl, ?_⟩
  rw [numberOf, foldl_pushInteger n h]
  rfl

theorem integerOf_natAbs {n : Int} (h : Int64.minValue.toInt ≤ n) :
    integerOf (decide (n < 0)) n.natAbs = .integer n := by
  unfold integerOf
  split
  case isTrue hn => rw [Int.natAbs_of_nonneg (by simpa using hn)]
  case isFalse hn =>
    have hneg : n < 0 := by simpa using hn
    have hfits : ¬ (n.natAbs = 0 ∨ (n.natAbs : Int) > -Int64.minValue.toInt) := by omega
    rw [if_neg hfits, Int.ofNat_natAbs_of_nonpos (Int.le_of_lt hneg), Int.neg_neg]

theorem number?_of_isDigit {c : Char} (h : c.isDigit) : number? (c :: cs) = unsigned? false (c :: cs) := by
  rw [number?]
  rintro _ heq
  rw [(List.cons.inj heq).1] at h
  exact absurd h (by decide)

/-- An integer that fits 64 bits is read back from its text. -/
theorem number?_renderInteger {n : Int} (hlow : Int64.minValue.toInt ≤ n) (hhigh : n < UInt64.size) :
    number? (renderInteger n) = some (.integer n, []) := by
  have hmin : Int64.minValue.toInt = -9223372036854775808 := by decide
  have hsize : UInt64.size = 18446744073709551616 := rfl
  have hunsigned : unsigned? (decide (n < 0)) (Nat.toDigits 10 n.natAbs) = some (.integer n, []) := by
    rw [unsigned?_toDigits n.natAbs (by omega), integerOf_natAbs hlow]
  unfold renderInteger
  split
  case isTrue hn => rwa [decide_eq_true hn] at hunsigned
  case isFalse hn =>
    rw [decide_eq_false hn] at hunsigned
    obtain ⟨c, cs, hcs⟩ := List.exists_cons_of_ne_nil (Nat.toDigits_ne_nil (n := n.natAbs) (b := 10))
    have hmem : c ∈ Nat.toDigits 10 n.natAbs := hcs ▸ List.mem_cons_self
    have hc : c.isDigit := Nat.isDigit_of_mem_toDigits (by decide) (by decide) hmem
    rw [List.nil_append]
    rw [hcs] at hunsigned ⊢
    rw [number?_of_isDigit hc, hunsigned]

/-! ### Characters of a number -/

theorem toDigits_numeric (n : Nat) : ∀ c ∈ Nat.toDigits 10 n, isNumeric c := fun _ hc =>
  isNumeric_of_isDigit (Nat.isDigit_of_mem_toDigits (by decide) (by decide) hc)

theorem renderInteger_numeric (n : Int) : ∀ c ∈ renderInteger n, isNumeric c := by
  unfold renderInteger
  split
  · exact List.forall_mem_cons.mpr ⟨rfl, toDigits_numeric _⟩
  · exact toDigits_numeric _

theorem placed_numeric (l : Layout) (h : ∀ c ∈ ds, isNumeric c) (point : Int) :
    ∀ c ∈ l.placed ds point, isNumeric c := by
  have hzeros (n : Nat) : ∀ c ∈ List.replicate n '0', isNumeric c := fun _ hc =>
    List.eq_of_mem_replicate hc ▸ rfl
  unfold Layout.placed
  split
  · simp only [List.forall_mem_cons, List.forall_mem_append]
    exact ⟨rfl, rfl, hzeros _, h⟩
  · split
    · simp only [List.forall_mem_append]
      refine ⟨⟨h, hzeros _⟩, ?_⟩
      split
      · exact List.forall_mem_cons.mpr ⟨rfl, List.forall_mem_singleton.mpr rfl⟩
      · exact List.forall_mem_nil _
    · simp only [List.forall_mem_cons, List.forall_mem_append]
      exact ⟨fun c hc => h c (List.mem_of_mem_take hc), rfl, fun c hc => h c (List.mem_of_mem_drop hc)⟩

theorem scaled_numeric (h : ∀ c ∈ ds, isNumeric c) (point : Int) :
    ∀ c ∈ Layout.scaled ds point, isNumeric c := by
  unfold Layout.scaled
  simp only [List.forall_mem_append, List.forall_mem_cons]
  refine ⟨?_, rfl, ?_, toDigits_numeric _⟩
  · split
    · exact List.forall_mem_singleton.mpr rfl
    · exact h
    · simp only [List.forall_mem_cons] at h ⊢
      exact ⟨h.1, rfl, h.2⟩
  · split <;> rfl

theorem finite_numeric {f : Format} (l : Layout) (x : Binary f) : ∀ c ∈ l.finite x, isNumeric c := by
  unfold Layout.finite Layout.decimal
  simp only [List.forall_mem_append]
  constructor
  · split
    · exact List.forall_mem_singleton.mpr rfl
    · exact List.forall_mem_nil _
  · split
    · exact placed_numeric l (toDigits_numeric _) _
    · exact scaled_numeric (toDigits_numeric _) _

/-! ### What is read as a number -/

def IsNumber (j : Json) : Prop :=
  (∃ x, j = .double x) ∨ ∃ n, j = .integer n ∧ Int64.minValue.toInt ≤ n ∧ n < UInt64.size

theorem pushInteger_lt {d : Digits} (h : d.significand < UInt64.size) (c : Char) :
    (d.pushInteger c).significand < UInt64.size := by
  unfold Digits.pushInteger
  simp only
  split
  · exact h
  · rename_i hfits
    simp only [Bool.or_eq_true, decide_eq_true_eq, not_or, Nat.not_le] at hfits
    exact hfits.2

theorem foldl_pushInteger_lt {d : Digits} (h : d.significand < UInt64.size) :
    (cs.foldl Digits.pushInteger d).significand < UInt64.size := by
  induction cs generalizing d with
  | nil => exact h
  | cons c cs ih => exact ih (pushInteger_lt h c)

theorem integerOf_isNumber {n : Nat} (h : n < UInt64.size) : IsNumber (integerOf negative n) := by
  have hmin : Int64.minValue.toInt = -9223372036854775808 := by decide
  unfold integerOf
  split
  case isTrue => exact .inr ⟨n, rfl, by omega, by omega⟩
  case isFalse =>
    split
    case isTrue => exact .inl ⟨_, rfl⟩
    case isFalse hfits => exact .inr ⟨-n, rfl, by omega, by omega⟩

theorem numberOf_isNumber {fraction : Option (List Char)} {exponent : Option Int}
    (h : numberOf negative whole fraction exponent = some j) : IsNumber j := by
  have hdouble {d : Digits} {e : Int} (hd : doubleOf negative d e = some j) : IsNumber j := by
    obtain ⟨x, -, heq⟩ := Option.bind_eq_some_iff.mp hd
    exact .inl ⟨_, (Option.some.inj heq).symm⟩
  unfold numberOf at h
  simp only at h
  split at h
  · split at h
    · exact hdouble h
    · exact Option.some.inj h ▸ integerOf_isNumber (foldl_pushInteger_lt (by decide))
  · exact hdouble h

theorem number?_isNumber (h : number? cs = some (j, rest)) : IsNumber j := by
  unfold number? at h
  split at h <;>
  · obtain ⟨_, _, _, _, _, -, -, -, -, hvalue⟩ := unsigned?_eq_some_iff.mp h
    exact numberOf_isNumber hvalue

end RobotBridge.Json
