import Mathlib.Algebra.Group.Nat.Defs
import Mathlib.Data.Option.Basic
import RobotBridge.Base64

/-! Base 64 said in bits: a text carries the bits of its bytes in order, six a digit. Every list of
bytes has one text, writing gives it, and reading accepts it and no other. -/
namespace RobotBridge.Base64

/-! ### Bits -/

/-- The lowest bits of a number, so many of them, the highest first. -/
def bits : Nat → Nat → List Bool
  | 0, _ => []
  | w + 1, n => bits w (n / 2) ++ [n % 2 == 1]

theorem bits_length (w n : Nat) : (bits w n).length = w := by
  induction w generalizing n with
  | zero => rfl
  | succ w ih => simp [bits, ih]

theorem bits_add (m k n : Nat) : bits (m + k) n = bits m (n / 2 ^ k) ++ bits k n := by
  induction k generalizing n with
  | zero => simp [bits]
  | succ k ih =>
    rw [← Nat.add_assoc, bits, ih, bits, Nat.div_div_eq_div_mul, ← Nat.pow_succ', List.append_assoc]

theorem bits_congr {w x y : Nat} (h : x % 2 ^ w = y % 2 ^ w) : bits w x = bits w y := by
  induction w generalizing x y with
  | zero => rfl
  | succ w ih =>
    rw [Nat.pow_succ'] at h
    have hhigh : x / 2 % 2 ^ w = y / 2 % 2 ^ w := by
      rw [← Nat.mod_mul_right_div_self, ← Nat.mod_mul_right_div_self, h]
    have hlow : x % 2 = y % 2 := by
      rw [← Nat.mod_mul_right_mod x 2 (2 ^ w), ← Nat.mod_mul_right_mod y 2 (2 ^ w), h]
    rw [bits, bits, ih hhigh, hlow]

/-- A digit made of the last bits of one number and of all the bits of another. -/
theorem bits_join {k y : Nat} (m x : Nat) (hy : y < 2 ^ k) :
    bits (m + k) (x % 2 ^ m * 2 ^ k + y) = bits m x ++ bits k y := by
  have hhigh : (x % 2 ^ m * 2 ^ k + y) / 2 ^ k = x % 2 ^ m := by
    rw [Nat.mul_comm, Nat.mul_add_div (Nat.two_pow_pos k), Nat.div_eq_of_lt hy, Nat.add_zero]
  rw [bits_add, hhigh, bits_congr (Nat.mod_mod x (2 ^ m)), bits_congr (Nat.mul_add_mod_self_right _ _ y)]

theorem bits_injective {w x y : Nat} (hx : x < 2 ^ w) (hy : y < 2 ^ w) (h : bits w x = bits w y) : x = y := by
  induction w generalizing x y with
  | zero => omega
  | succ w ih =>
    rw [Nat.pow_succ] at hx hy
    obtain ⟨hhigh, hlow⟩ := List.append_inj h (by rw [bits_length, bits_length])
    have hhalf := ih (by omega) (by omega) hhigh
    have hodd : (x % 2 == 1) = (y % 2 == 1) := List.head_eq_of_cons_eq hlow
    have hx2 := Nat.mod_two_eq_zero_or_one x
    have hy2 := Nat.mod_two_eq_zero_or_one y
    rcases hx2 with hx2 | hx2 <;> rcases hy2 with hy2 | hy2 <;> simp [hx2, hy2] at hodd <;> omega

theorem flatMap_bits_length (w : Nat) (ns : List Nat) : (ns.flatMap (bits w)).length = w * ns.length := by
  induction ns with
  | nil => rfl
  | cons n ns ih =>
    rw [List.flatMap_cons, List.length_append, bits_length, ih, List.length_cons, Nat.mul_succ, Nat.add_comm]

theorem flatMap_bits_injective {w : Nat} {xs ys : List Nat} (hx : ∀ x ∈ xs, x < 2 ^ w) (hy : ∀ y ∈ ys, y < 2 ^ w)
    (hlength : xs.length = ys.length) (h : xs.flatMap (bits w) = ys.flatMap (bits w)) : xs = ys := by
  induction xs generalizing ys with
  | nil => exact (List.length_eq_zero_iff.mp hlength.symm).symm
  | cons x xs ih =>
    cases ys with
    | nil => contradiction
    | cons y ys =>
      obtain ⟨hfirst, hrest⟩ := List.append_inj h (by rw [bits_length, bits_length])
      obtain ⟨hx0, hxs⟩ := List.forall_mem_cons.mp hx
      obtain ⟨hy0, hys⟩ := List.forall_mem_cons.mp hy
      rw [bits_injective hx0 hy0 hfirst, ih hxs hys (Nat.succ.inj hlength) hrest]

/-! ### The canonical text -/

/-- The canonical text of some bytes: digits that carry the bits of the bytes in order, with zeros for
the bits by which the last digit is longer, and padding up to the next group of four characters. -/
def Canonical (bytes : List UInt8) (text : List Char) : Prop :=
  ∃ (digits : List Nat) (spare padding : Nat), (∀ d ∈ digits, d < 64) ∧ spare < 6 ∧ padding < 4 ∧
    digits.flatMap (bits 6) = (bytes.map UInt8.toNat).flatMap (bits 8) ++ List.replicate spare false ∧
    text = digits.map digit ++ List.replicate padding '=' ∧ 4 ∣ text.length

theorem Canonical.unique {bytes : List UInt8} {text text' : List Char} (h : Canonical bytes text)
    (h' : Canonical bytes text') : text = text' := by
  obtain ⟨digits, spare, padding, hsmall, hspare, hpadding, hbits, rfl, hfour⟩ := h
  obtain ⟨digits', spare', padding', hsmall', hspare', hpadding', hbits', rfl, hfour'⟩ := h'
  have hlength := congrArg List.length hbits
  have hlength' := congrArg List.length hbits'
  simp only [List.length_append, flatMap_bits_length, List.length_map, List.length_replicate] at hlength hlength'
  simp only [List.length_append, List.length_map, List.length_replicate] at hfour hfour'
  obtain rfl : spare = spare' := by omega
  have hsame : digits = digits' :=
    flatMap_bits_injective hsmall hsmall' (by omega) (hbits.trans hbits'.symm)
  obtain rfl : padding = padding' := by rw [hsame] at hfour; omega
  rw [hsame]

/-! Three bytes are cut into four digits: after 6 bits of the first, 4 of the second and 2 of the third. -/

theorem bits_first (a : Nat) : bits 8 a = bits 6 (a / 4) ++ bits 2 a := bits_add 6 2 a

theorem bits_second (b : Nat) : bits 8 b = bits 4 (b / 16) ++ bits 4 b := bits_add 4 4 b

theorem bits_third (c : Nat) : bits 8 c = bits 2 (c / 64) ++ bits 6 c := bits_add 2 6 c

theorem bits_firstSecond {b : Nat} (a : Nat) (hb : b < 16) : bits 6 (a % 4 * 16 + b) = bits 2 a ++ bits 4 b :=
  bits_join (k := 4) 2 a hb

theorem bits_secondThird {c : Nat} (b : Nat) (hc : c < 4) : bits 6 (b % 16 * 4 + c) = bits 4 b ++ bits 2 c :=
  bits_join (k := 2) 4 b hc

theorem bits_last (c : Nat) : bits 6 (c % 64) = bits 6 c := bits_congr (Nat.mod_mod c 64)

theorem canonical_encode (bytes : List UInt8) : Canonical bytes (encode bytes) := by
  induction bytes using encode.induct with
  | case1 => exact ⟨[], 0, 0, by simp, by decide, by decide, rfl, rfl, ⟨0, rfl⟩⟩
  | case2 a =>
    have ha := a.toNat_lt
    refine ⟨[a.toNat / 4, a.toNat % 4 * 16 + 0], 4, 2, ?_, by decide, by decide, ?_, by simp [encode],
      by simp [encode]⟩
    · intro d hd
      simp only [List.mem_cons, List.not_mem_nil, or_false] at hd
      omega
    · have hzero : 0 < 16 := by decide
      simp only [List.flatMap_cons, List.flatMap_nil, List.map_cons, List.map_nil, List.append_nil,
        bits_firstSecond _ hzero, bits_first a.toNat, List.append_assoc]
      rfl
  | case3 a b =>
    have ha := a.toNat_lt
    have hb := b.toNat_lt
    have hbyte : b.toNat / 16 < 16 := by omega
    refine ⟨[a.toNat / 4, a.toNat % 4 * 16 + b.toNat / 16, b.toNat % 16 * 4 + 0], 2, 1, ?_, by decide, by decide,
      ?_, by simp [encode], by simp [encode]⟩
    · intro d hd
      simp only [List.mem_cons, List.not_mem_nil, or_false] at hd
      omega
    · have hzero : 0 < 4 := by decide
      simp only [List.flatMap_cons, List.flatMap_nil, List.map_cons, List.map_nil, List.append_nil,
        bits_firstSecond _ hbyte, bits_secondThird _ hzero, bits_first a.toNat, bits_second b.toNat,
        List.append_assoc]
      rfl
  | case4 a b c rest ih =>
    have ha := a.toNat_lt
    have hb := b.toNat_lt
    have hc := c.toNat_lt
    have hbyte : b.toNat / 16 < 16 := by omega
    have hbyte' : c.toNat / 64 < 4 := by omega
    obtain ⟨digits, spare, padding, hsmall, hspare, hpadding, hbits, htext, hfour⟩ := ih
    refine ⟨a.toNat / 4 :: (a.toNat % 4 * 16 + b.toNat / 16) :: (b.toNat % 16 * 4 + c.toNat / 64) ::
      c.toNat % 64 :: digits, spare, padding, ?_, hspare, hpadding, ?_, by simp [encode, htext], ?_⟩
    · intro d hd
      simp only [List.mem_cons] at hd
      rcases hd with hd | hd | hd | hd | hd
      · omega
      · omega
      · omega
      · omega
      · exact hsmall d hd
    · simp only [List.flatMap_cons, List.map_cons, bits_firstSecond _ hbyte, bits_secondThird _ hbyte',
        bits_last, bits_first a.toNat, bits_second b.toNat, bits_third c.toNat, hbits, List.append_assoc]
    · rw [encode]
      simp only [List.length_cons]
      omega

theorem canonical_iff {bytes : List UInt8} {text : List Char} : Canonical bytes text ↔ text = encode bytes := by
  constructor
  · intro h
    exact h.unique (canonical_encode bytes)
  · rintro rfl
    exact canonical_encode bytes

/-! ### Reading -/

theorem alphabet_length : alphabet.length = 64 := rfl

theorem value?_digit {n : Nat} (h : n < 64) : value? (digit n) = some n := by
  have hall : ∀ n < 64, value? (digit n) = some n := by decide
  exact hall n h

theorem value?_eq_some {c : Char} {n : Nat} (h : value? c = some n) : n < 64 ∧ c = digit n := by
  obtain ⟨hlt, hget, -⟩ := List.idxOf?_eq_some_iff.mp h
  refine ⟨alphabet_length ▸ hlt, ?_⟩
  simp [digit, hlt, hget]

theorem digit_ne_pad {n : Nat} (h : n < 64) : digit n ≠ '=' := by
  intro heq
  have hnone : value? '=' = none := by decide
  exact Option.some_ne_none n ((value?_digit h).symm.trans (heq ▸ hnone))

-- The library's bound is `UInt8.size`, which `omega` does not read.
theorem toNat_byte {n : Nat} (h : n < 256) : (UInt8.ofNat n).toNat = n := UInt8.toNat_ofNat_of_lt h

/-! The three shapes of a group, written and read: of one byte, of two and of three. -/

section Groups

variable {a b c d : Nat}

theorem encode_one (ha : a < 64) (hb : b < 64) (hzero : b % 16 = 0) :
    encode [UInt8.ofNat (a * 4 + b / 16)] = [digit a, digit b, '=', '='] := by
  have hfirst : (a * 4 + b / 16) / 4 = a := by omega
  have hsecond : (a * 4 + b / 16) % 4 * 16 = b := by omega
  rw [encode, toNat_byte (by omega), hfirst, hsecond]

theorem encode_two (ha : a < 64) (hb : b < 64) (hc : c < 64) (hzero : c % 4 = 0) :
    encode [UInt8.ofNat (a * 4 + b / 16), UInt8.ofNat (b % 16 * 16 + c / 4)] =
      [digit a, digit b, digit c, '='] := by
  have hfirst : (a * 4 + b / 16) / 4 = a := by omega
  have hsecond : (a * 4 + b / 16) % 4 * 16 + (b % 16 * 16 + c / 4) / 16 = b := by omega
  have hthird : (b % 16 * 16 + c / 4) % 16 * 4 = c := by omega
  rw [encode, toNat_byte (by omega), toNat_byte (by omega), hfirst, hsecond, hthird]

theorem encode_group (ha : a < 64) (hb : b < 64) (hc : c < 64) (hd : d < 64) (rest : List UInt8) :
    encode (UInt8.ofNat (a * 4 + b / 16) :: UInt8.ofNat (b % 16 * 16 + c / 4) :: UInt8.ofNat (c % 4 * 64 + d) ::
      rest) = digit a :: digit b :: digit c :: digit d :: encode rest := by
  have hfirst : (a * 4 + b / 16) / 4 = a := by omega
  have hsecond : (a * 4 + b / 16) % 4 * 16 + (b % 16 * 16 + c / 4) / 16 = b := by omega
  have hthird : (b % 16 * 16 + c / 4) % 16 * 4 + (c % 4 * 64 + d) / 64 = c := by omega
  have hfourth : (c % 4 * 64 + d) % 64 = d := by omega
  rw [encode, toNat_byte (by omega), toNat_byte (by omega), toNat_byte (by omega), hfirst, hsecond, hthird,
    hfourth]

theorem decode_one (ha : a < 64) (hb : b < 64) (hzero : b % 16 = 0) :
    decode [digit a, digit b, '=', '='] = some [UInt8.ofNat (a * 4 + b / 16)] := by
  have hguard := (Option.guard_eq_some' ()).mpr hzero
  simp only [decode, value?_digit ha, value?_digit hb, hguard, Option.bind_eq_bind, Option.bind_some, Option.pure_def]

theorem decode_two (ha : a < 64) (hb : b < 64) (hc : c < 64) (hzero : c % 4 = 0) :
    decode [digit a, digit b, digit c, '='] =
      some [UInt8.ofNat (a * 4 + b / 16), UInt8.ofNat (b % 16 * 16 + c / 4)] := by
  have hguard := (Option.guard_eq_some' ()).mpr hzero
  rw [decode]
  · simp only [value?_digit ha, value?_digit hb, value?_digit hc, hguard, Option.bind_eq_bind, Option.bind_some,
      Option.pure_def]
  · exact digit_ne_pad hc

theorem decode_group (ha : a < 64) (hb : b < 64) (hc : c < 64) (hd : d < 64) (rest : List Char) :
    decode (digit a :: digit b :: digit c :: digit d :: rest) =
      (decode rest).map fun bytes => UInt8.ofNat (a * 4 + b / 16) :: UInt8.ofNat (b % 16 * 16 + c / 4) ::
        UInt8.ofNat (c % 4 * 64 + d) :: bytes := by
  have hpad := digit_ne_pad hd
  rw [decode]
  · simp only [value?_digit ha, value?_digit hb, value?_digit hc, value?_digit hd]
    cases decode rest <;> rfl
  · intro _ h
    exact absurd h hpad
  · intro h
    exact absurd h hpad

end Groups

theorem decode_encoded (bytes : List UInt8) : decode (encode bytes) = some bytes := by
  induction bytes using encode.induct with
  | case1 => rfl
  | case2 a =>
    have ha := a.toNat_lt
    have hbyte : a.toNat / 4 * 4 + a.toNat % 4 * 16 / 16 = a.toNat := by omega
    rw [encode, decode_one (by omega) (by omega) (by omega), hbyte, UInt8.ofNat_toNat]
  | case3 a b =>
    have ha := a.toNat_lt
    have hb := b.toNat_lt
    have hfirst : a.toNat / 4 * 4 + (a.toNat % 4 * 16 + b.toNat / 16) / 16 = a.toNat := by omega
    have hsecond : (a.toNat % 4 * 16 + b.toNat / 16) % 16 * 16 + b.toNat % 16 * 4 / 4 = b.toNat := by omega
    rw [encode, decode_two (by omega) (by omega) (by omega) (by omega), hfirst, hsecond, UInt8.ofNat_toNat,
      UInt8.ofNat_toNat]
  | case4 a b c rest ih =>
    have ha := a.toNat_lt
    have hb := b.toNat_lt
    have hc := c.toNat_lt
    have hfirst : a.toNat / 4 * 4 + (a.toNat % 4 * 16 + b.toNat / 16) / 16 = a.toNat := by omega
    have hsecond : (a.toNat % 4 * 16 + b.toNat / 16) % 16 * 16 + (b.toNat % 16 * 4 + c.toNat / 64) / 4 =
        b.toNat := by omega
    have hthird : (b.toNat % 16 * 4 + c.toNat / 64) % 4 * 64 + c.toNat % 64 = c.toNat := by omega
    rw [encode, decode_group (by omega) (by omega) (by omega) (by omega), ih, hfirst, hsecond, hthird]
    simp

theorem eq_encode_of_decode {text : List Char} {bytes : List UInt8} (h : decode text = some bytes) :
    text = encode bytes := by
  fun_induction decode text generalizing bytes with
  | case1 =>
    obtain rfl := Option.some.inj h
    rfl
  | case2 a b =>
    simp only [Option.bind_eq_bind, Option.bind_eq_some_iff, Option.guard_eq_some'] at h
    obtain ⟨x, hx, y, hy, _, hzero, h⟩ := h
    obtain ⟨hxlt, rfl⟩ := value?_eq_some hx
    obtain ⟨hylt, rfl⟩ := value?_eq_some hy
    obtain rfl := Option.some.inj h
    rw [encode_one hxlt hylt hzero]
  | case3 a b c =>
    simp only [Option.bind_eq_bind, Option.bind_eq_some_iff, Option.guard_eq_some'] at h
    obtain ⟨x, hx, y, hy, z, hz, _, hzero, h⟩ := h
    obtain ⟨hxlt, rfl⟩ := value?_eq_some hx
    obtain ⟨hylt, rfl⟩ := value?_eq_some hy
    obtain ⟨hzlt, rfl⟩ := value?_eq_some hz
    obtain rfl := Option.some.inj h
    rw [encode_two hxlt hylt hzlt hzero]
  | case4 a b c d rest _ _ ih =>
    simp only [Option.bind_eq_bind, Option.bind_eq_some_iff] at h
    obtain ⟨x, hx, y, hy, z, hz, w, hw, read, hread, h⟩ := h
    obtain ⟨hxlt, rfl⟩ := value?_eq_some hx
    obtain ⟨hylt, rfl⟩ := value?_eq_some hy
    obtain ⟨hzlt, rfl⟩ := value?_eq_some hz
    obtain ⟨hwlt, rfl⟩ := value?_eq_some hw
    obtain rfl := Option.some.inj h
    rw [encode_group hxlt hylt hzlt hwlt, ← ih hread]
  | case5 => contradiction

theorem decode_eq_some_iff {text : List Char} {bytes : List UInt8} :
    decode text = some bytes ↔ Canonical bytes text := by
  rw [canonical_iff]
  constructor
  · intro h
    exact eq_encode_of_decode h
  · rintro rfl
    exact decode_encoded bytes

/-- A text is canonical for one list of bytes. -/
theorem Canonical.bytes_eq {text : List Char} {bytes bytes' : List UInt8} (h : Canonical bytes text)
    (h' : Canonical bytes' text) : bytes = bytes' :=
  Option.some.inj ((decode_eq_some_iff.mpr h).symm.trans (decode_eq_some_iff.mpr h'))

end RobotBridge.Base64
