import Mathlib.Data.List.TakeWhile
import TreeBrowser.Json.Printer
import TreeBrowser.Json.Token

/-!
# Integers as words

An integer of at most 64 binary digits is read back from its decimal digits: they are a numeral
without a needless zero, and a significand has room for all of them.
-/

namespace TreeBrowser.Json

/-! ## Magnitude -/

theorem Magnitude.le_ofDigitChars (digits : List Char) (significand : Nat) :
    significand ≤ Nat.ofDigitChars 10 digits significand := by
  rw [Nat.ofDigitChars_eq_ofDigitChars_zero]
  have hpow : 1 ≤ 10 ^ digits.length := Nat.one_le_pow _ _ (by omega)
  calc significand = 1 * significand := (Nat.one_mul _).symm
    _ ≤ 10 ^ digits.length * significand := Nat.mul_le_mul_right _ hpow
    _ ≤ _ := Nat.le_add_right _ _

theorem Magnitude.ofWhole_eq {digits : List Char} {significand : Nat}
    (h : Nat.ofDigitChars 10 digits significand < UInt64.size) :
    ofWhole significand digits = ⟨Nat.ofDigitChars 10 digits significand, 0⟩ := by
  induction digits generalizing significand with
  | nil => rfl
  | cons digit rest ih =>
    have happended : appended significand digit = 10 * significand + (digit.toNat - '0'.toNat) := by
      rw [appended, Nat.mul_comm]
    rw [Nat.ofDigitChars_cons, ← happended] at h ⊢
    have hlt : appended significand digit < UInt64.size :=
      Nat.lt_of_le_of_lt (le_ofDigitChars rest _) h
    rw [ofWhole, if_pos hlt, ih h]

theorem Magnitude.fitsDouble_ofDigits {digits : List Char}
    (h : Nat.ofDigitChars 10 digits 0 < UInt64.size) : (ofDigits digits [] 0).fitsDouble = true := by
  rw [ofDigits, ofWhole_eq h]
  simp [withFraction, fitsDouble]

/-! ## Decimal digits -/

theorem isDigit_of_mem_toDigits {n : Nat} {c : Char} (h : c ∈ Nat.toDigits 10 n) :
    c.isDigit = true :=
  Nat.isDigit_of_mem_toDigits (by omega) (by omega) h

theorem natOfDigits_toDigits (n : Nat) : Numeral.natOfDigits (Nat.toDigits 10 n) = n :=
  Nat.ofDigitChars_ten_toDigits

theorem toDigits_ne_zero_cons (n : Nat) (c : Char) (rest : List Char) :
    Nat.toDigits 10 n ≠ '0' :: c :: rest := by
  induction n using Nat.strongRecOn generalizing c rest with
  | ind n ih =>
    intro h
    by_cases hn : n < 10
    · rw [Nat.toDigits_of_lt_base hn] at h
      exact List.cons_ne_nil c rest (List.cons.inj h).2.symm
    · rw [Nat.toDigits_of_base_le (by omega) (by omega)] at h
      rcases hfirst : Nat.toDigits 10 (n / 10) with - | ⟨first, - | ⟨second, more⟩⟩
      · exact Nat.toDigits_ne_nil hfirst
      · -- The digits in front are a zero alone, so nothing is in front.
        rw [hfirst] at h
        have hzero := natOfDigits_toDigits (n / 10)
        rw [hfirst, (List.cons.inj h).1] at hzero
        have hdigit : Numeral.natOfDigits ['0'] = 0 := rfl
        omega
      · rw [hfirst] at h
        rw [(List.cons.inj h).1] at hfirst
        exact ih (n / 10) (by omega) second more hfirst

theorem takeWhile_toDigits (n : Nat) :
    (Nat.toDigits 10 n).takeWhile Char.isDigit = Nat.toDigits 10 n := by
  rw [List.takeWhile_eq_self_iff]
  exact fun _ => isDigit_of_mem_toDigits

theorem dropWhile_toDigits (n : Nat) : (Nat.toDigits 10 n).dropWhile Char.isDigit = [] := by
  rw [List.dropWhile_eq_nil_iff]
  exact fun _ => isDigit_of_mem_toDigits

/-! ## Numerals -/

namespace Numeral

theorem whole?_toDigits (n : Nat) : whole? (Nat.toDigits 10 n) = some (Nat.toDigits 10 n, []) := by
  rw [whole?, takeWhile_toDigits, dropWhile_toDigits]
  split
  · rename_i hnil
    exact absurd hnil Nat.toDigits_ne_nil
  · rename_i c rest hzero
    exact absurd hzero (toDigits_ne_zero_cons n c rest)
  · rfl

theorem unsigned?_toDigits (negative : Bool) (n : Nat) :
    unsigned? negative (Nat.toDigits 10 n) = some ⟨negative, Nat.toDigits 10 n, [], none⟩ := by
  rw [unsigned?, whole?_toDigits]
  rfl

theorem ofChars?_intChars (n : Int) :
    ofChars? (intChars n) = some ⟨decide (n < 0), Nat.toDigits 10 n.natAbs, [], none⟩ := by
  cases n with
  | ofNat n =>
    have hsigned : decide (Int.ofNat n < 0) = false := by
      apply decide_eq_false
      show ¬ (n : Int) < 0
      omega
    rw [intChars, hsigned]
    unfold ofChars?
    split
    · rename_i cs hsign
      have hmem : '-' ∈ Nat.toDigits 10 n := by
        rw [hsign]
        exact List.mem_cons_self
      cases isDigit_of_mem_toDigits hmem
    · exact unsigned?_toDigits false n
  | negSucc n =>
    have hsigned : decide (Int.negSucc n < 0) = true := decide_eq_true (Int.negSucc_lt_zero n)
    rw [hsigned]
    exact unsigned?_toDigits true (n + 1)

theorem isInteger_toDigits (n : Int) :
    isInteger ⟨decide (n < 0), Nat.toDigits 10 n.natAbs, [], none⟩ = true := by
  by_cases hneg : n < 0
  · have hzero : Nat.toDigits 10 n.natAbs ≠ ['0'] := by
      intro hdigits
      have hvalue := natOfDigits_toDigits n.natAbs
      rw [hdigits] at hvalue
      have hdigit : natOfDigits ['0'] = 0 := rfl
      omega
    simp [isInteger, hzero]
  · simp [isInteger, hneg]

theorem toJson_toDigits {n : Int} (h : n.natAbs < UInt64.size) (text : List Char) :
    toJson text ⟨decide (n < 0), Nat.toDigits 10 n.natAbs, [], none⟩ = .int n := by
  have hfits : (magnitude ⟨decide (n < 0), Nat.toDigits 10 n.natAbs, [], none⟩).fitsDouble = true := by
    apply Magnitude.fitsDouble_ofDigits
    rwa [Nat.ofDigitChars_ten_toDigits]
  rw [toJson, if_pos hfits, if_pos (isInteger_toDigits n), natOfDigits_toDigits]
  by_cases hneg : n < 0
  · rw [decide_eq_true hneg, if_pos rfl]
    congr 1
    omega
  · rw [decide_eq_false hneg, if_neg Bool.false_ne_true]
    congr 1
    omega

end Numeral

theorem ofWord?_intChars {n : Int} (h : n.natAbs < UInt64.size) :
    ofWord? (intChars n) = some (.int n) := by
  have hnumeral := Numeral.ofChars?_intChars n
  have hword {first : Char} {rest : List Char} (hnone : Numeral.ofChars? (first :: rest) = none) :
      intChars n ≠ first :: rest := by
    intro hchars
    rw [hchars, hnone] at hnumeral
    cases hnumeral
  rw [ofWord?, if_neg (hword rfl), if_neg (hword rfl), if_neg (hword rfl), hnumeral,
    Option.map_some, Numeral.toJson_toDigits h]

end TreeBrowser.Json
