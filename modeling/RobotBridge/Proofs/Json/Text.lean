import Mathlib.Data.Option.Basic
import RobotBridge.Json.Text

/-! Strings in documents: what is escaped on the way out is read back on the way in. -/
namespace RobotBridge.Json

variable {c letter : Char} {fuel : Nat} {s cs rest : List Char}

theorem hexDigit?_digitChar : ∀ n < 16, hexDigit? (Nat.digitChar n) = some n := by decide

theorem unescapeLetter?_eq : ∀ p ∈ escapeLetters, unescapeLetter? p.2 = some p.1 ∧ p.2 ≠ 'u' := by decide

/-- A control character comes back from its four digits. -/
theorem codePoint?_control (h : c.toNat < 0x20) :
    codePoint? ('0' :: '0' :: Nat.digitChar (c.toNat / 16) :: Nat.digitChar (c.toNat % 16) :: cs) =
      some (c, cs) := by
  have hunit : codeUnit? ('0' :: '0' :: Nat.digitChar (c.toNat / 16) :: Nat.digitChar (c.toNat % 16) :: cs) =
      some (c.toNat, cs) := by
    have hzero : hexDigit? '0' = some 0 := hexDigit?_digitChar 0 (by decide)
    have hhigh := hexDigit?_digitChar (c.toNat / 16) (by omega)
    have hlow := hexDigit?_digitChar (c.toNat % 16) (Nat.mod_lt _ (by decide))
    have hsum : ((0 * 16 + 0) * 16 + c.toNat / 16) * 16 + c.toNat % 16 = c.toNat := by omega
    simp only [codeUnit?, hzero, hhigh, hlow, Option.bind_eq_bind, Option.bind_some, hsum, Option.pure_def]
  have hhigh : ¬ (0xD800 ≤ c.toNat ∧ c.toNat < 0xDC00) := by omega
  have hlow : ¬ (0xDC00 ≤ c.toNat ∧ c.toNat < 0xE000) := by omega
  have hguard := (Option.guard_eq_some' ()).mpr hlow
  simp only [codePoint?, hunit, Option.bind_eq_bind, Option.bind_some, if_neg hhigh, hguard, Option.pure_def,
    Char.ofNat_toNat]

theorem characters?_plain (h : characters? fuel cs = some (s, rest)) (hquote : c ≠ '"') (hslash : c ≠ '\\')
    (hcontrol : 0x20 ≤ c.toNat) : characters? (fuel + 1) (c :: cs) = some (c :: s, rest) := by
  have hguard := (Option.guard_eq_some' ()).mpr hcontrol
  rw [characters?]
  · simp only [hguard, h, Option.bind_eq_bind, Option.bind_some, Option.pure_def]
  · exact hquote
  · exact fun _ heq => absurd heq hslash
  · exact fun _ _ heq => absurd heq hslash

/-- One character is read from its escape. -/
theorem characters?_escapeChar (h : characters? fuel cs = some (s, rest)) (c : Char) :
    characters? (fuel + 1) (escapeChar c ++ cs) = some (c :: s, rest) := by
  unfold escapeChar
  split
  case h_1 letter hletter =>
    obtain ⟨before, after, hmem, -⟩ := List.lookup_eq_some_iff.mp hletter
    obtain ⟨hback, hu⟩ := unescapeLetter?_eq (c, letter) (by simp [hmem])
    rw [List.cons_append, List.cons_append, List.nil_append, characters?]
    · simp [h, hback]
    · exact fun heq => hu heq
  case h_2 hplain =>
    have hne := List.lookup_eq_none_iff.mp hplain
    split
    case isTrue hcontrol =>
      simp only [List.cons_append, List.nil_append, characters?, codePoint?_control hcontrol, h,
        Option.bind_eq_bind, Option.bind_some, Option.pure_def]
    case isFalse hcontrol =>
      have hquote : c ≠ '"' := by rintro rfl; exact absurd (hne _ List.mem_cons_self) (by decide)
      have hslash : c ≠ '\\' := by
        rintro rfl
        exact absurd (hne _ (List.mem_cons_of_mem _ List.mem_cons_self)) (by decide)
      exact characters?_plain h hquote hslash (Nat.le_of_not_lt hcontrol)

theorem characters?_escaped (s : List Char) (h : s.length < fuel) :
    characters? fuel (s.flatMap escapeChar ++ '"' :: rest) = some (s, rest) := by
  induction s generalizing fuel with
  | nil =>
    obtain ⟨fuel, rfl⟩ := Nat.exists_eq_succ_of_ne_zero (Nat.ne_of_gt h)
    rfl
  | cons c s ih =>
    obtain ⟨fuel, rfl⟩ := Nat.exists_eq_succ_of_ne_zero (Nat.ne_of_gt (Nat.zero_lt_of_lt h))
    rw [List.flatMap_cons, List.append_assoc]
    exact characters?_escapeChar (ih (Nat.lt_of_succ_lt_succ h)) c

theorem length_escapeChar_pos (c : Char) : 0 < (escapeChar c).length := by
  unfold escapeChar
  split
  · exact Nat.zero_lt_succ _
  · split <;> exact Nat.zero_lt_succ _

theorem length_le_escaped (s : List Char) : s.length ≤ (s.flatMap escapeChar).length := by
  induction s with
  | nil => exact Nat.le_refl 0
  | cons c s ih =>
    have hpos := length_escapeChar_pos c
    rw [List.flatMap_cons, List.length_append, List.length_cons]
    omega

/-- A string in quotes is read back, whatever follows it. -/
theorem stringBody?_escaped (s : String) (rest : List Char) :
    stringBody? (s.toList.flatMap escapeChar ++ '"' :: rest) = some (s, rest) := by
  have hfuel : s.toList.length < (s.toList.flatMap escapeChar ++ '"' :: rest).length + 1 := by
    have hlen := length_le_escaped s.toList
    rw [List.length_append]
    omega
  rw [stringBody?, characters?_escaped s.toList hfuel, Option.map_some]
  simp only [String.ofList_toList]

theorem renderString_append (s : String) (rest : List Char) :
    renderString s ++ rest = '"' :: (s.toList.flatMap escapeChar ++ '"' :: rest) := by
  simp [renderString]

end RobotBridge.Json
