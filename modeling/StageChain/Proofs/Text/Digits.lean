import Mathlib.Algebra.Ring.Nat
import StageChain.Text.Numeral

/-!
# Decimal digits of natural numbers

`digitsValue` reads the digits of a number back, and zeros in front of digits or after them count as
they should. A number that is not zero is not written with a zero in front. An integer is made of
its sign and its size.
-/

namespace StageChain.Text

variable {n : Nat} {c : Char} {digits : List Char}

/-! ## The value of digits -/

theorem digitsValue_eq (digits : List Char) :
    digitsValue digits = Nat.ofDigitChars 10 digits 0 :=
  Nat.ofDigitChars_eq_foldl.symm

/-- The digits of a number are read back. -/
@[simp]
theorem digitsValue_toDigits (n : Nat) : digitsValue (Nat.toDigits 10 n) = n := by
  rw [digitsValue_eq, Nat.ofDigitChars_ten_toDigits]

theorem digitsValue_append (digits more : List Char) :
    digitsValue (digits ++ more) = digitsValue digits * 10 ^ more.length + digitsValue more := by
  rw [digitsValue_eq, Nat.ofDigitChars_append, Nat.ofDigitChars_eq_ofDigitChars_zero,
    ← digitsValue_eq, ← digitsValue_eq, Nat.mul_comm]

theorem digitsValue_zeros (count : Nat) : digitsValue (List.replicate count '0') = 0 := by
  rw [digitsValue_eq, Nat.ofDigitChars_replicate_zero, Nat.mul_zero]

/-- A zero after digits multiplies by ten. -/
theorem digitsValue_append_zeros (digits : List Char) (count : Nat) :
    digitsValue (digits ++ List.replicate count '0') = digitsValue digits * 10 ^ count := by
  rw [digitsValue_append, digitsValue_zeros, List.length_replicate, Nat.add_zero]

/-- Zeros before digits do not count. -/
theorem digitsValue_zeros_append (count : Nat) (digits : List Char) :
    digitsValue (List.replicate count '0' ++ digits) = digitsValue digits := by
  rw [digitsValue_append, digitsValue_zeros, Nat.zero_mul, Nat.zero_add]

/-- Digits have less value than one with that many zeros. -/
theorem digitsValue_lt (h : ∀ c ∈ digits, isAsciiDigit c = true) :
    digitsValue digits < 10 ^ digits.length := by
  induction digits with
  | nil => decide
  | cons c digits ih =>
      obtain ⟨hc, hdigits⟩ := List.forall_mem_cons.1 h
      have hless := ih hdigits
      have hvalue : digitsValue [c] ≤ 9 := by
        simp only [isAsciiDigit, Bool.and_eq_true, decide_eq_true_eq] at hc
        simp only [digitsValue, List.foldl_cons, List.foldl_nil]
        omega
      calc digitsValue (c :: digits)
          = digitsValue [c] * 10 ^ digits.length + digitsValue digits :=
            digitsValue_append [c] digits
        _ < 9 * 10 ^ digits.length + 10 ^ digits.length :=
            Nat.add_lt_add_of_le_of_lt (Nat.mul_le_mul_right _ hvalue) hless
        _ = 10 ^ (c :: digits).length := by rw [List.length_cons, Nat.pow_succ]; omega

/-! ## Signs -/

theorem signed_natAbs (n : Int) : signed (n < 0) n.natAbs = n := by
  unfold signed
  split
  · rename_i hnegative
    have hlt : n < 0 := of_decide_eq_true hnegative
    omega
  · rename_i hnegative
    have hle : ¬ n < 0 := fun h => hnegative (decide_eq_true h)
    omega

theorem natAbs_signed (negative : Bool) (size : Nat) : (signed negative size).natAbs = size := by
  cases negative <;> simp [signed]

/-! ## The digits of a number -/

theorem isAsciiDigit_of_isDigit (h : c.isDigit = true) : isAsciiDigit c = true := by
  simp only [Char.isDigit, Bool.and_eq_true, decide_eq_true_eq, ge_iff_le,
    UInt32.le_iff_toNat_le] at h
  obtain ⟨hlow, hhigh⟩ := h
  have hlow : 48 ≤ c.toNat := hlow
  have hhigh : c.toNat ≤ 57 := hhigh
  simp only [isAsciiDigit, Bool.and_eq_true, decide_eq_true_eq]
  exact ⟨hlow, hhigh⟩

theorem isAsciiDigit_of_mem_toDigits (h : c ∈ Nat.toDigits 10 n) : isAsciiDigit c = true :=
  isAsciiDigit_of_isDigit (Nat.isDigit_of_mem_toDigits (by decide) (by decide) h)

theorem toDigits_mul_ten (hn : 0 < n) : Nat.toDigits 10 (n * 10) = Nat.toDigits 10 n ++ ['0'] := by
  have happend : Nat.toDigits 10 n ++ Nat.toDigits 10 0 = Nat.toDigits 10 (10 * n + 0) :=
    Nat.toDigits_append_toDigits (by decide) hn (by decide)
  rw [Nat.mul_comm, ← Nat.add_zero (10 * n), ← happend]
  rfl

/-- Multiplying by ten adds a zero. -/
theorem toDigits_mul_pow (hn : 0 < n) (count : Nat) :
    Nat.toDigits 10 (n * 10 ^ count) = Nat.toDigits 10 n ++ List.replicate count '0' := by
  induction count with
  | zero => simp
  | succ count ih =>
      have hpos : 0 < n * 10 ^ count := Nat.mul_pos hn (Nat.pow_pos (by decide))
      rw [Nat.pow_succ, ← Nat.mul_assoc, toDigits_mul_ten hpos, ih, List.append_assoc,
        List.replicate_succ']

/-- A number that is not zero has no zero in front. -/
theorem head?_toDigits_ne_zero (hn : 0 < n) : (Nat.toDigits 10 n).head? ≠ some '0' := by
  induction n using Nat.strong_induction_on with
  | _ n ih =>
      by_cases hsmall : n < 10
      · rw [Nat.toDigits_of_lt_base hsmall]
        have hsmallDigits : ∀ d, d < 10 → 0 < d → [d.digitChar].head? ≠ some '0' := by decide
        exact hsmallDigits n hsmall hn
      · rw [Nat.toDigits_of_base_le (by decide) (by omega), List.head?_append]
        have hhead := ih (n / 10) (by omega) (by omega)
        cases hdigits : Nat.toDigits 10 (n / 10) with
        | nil => exact absurd hdigits Nat.toDigits_ne_nil
        | cons first more =>
            rw [hdigits] at hhead
            simpa using hhead

/-- An integer has too many digits if it is at least the power of ten of that many. -/
theorem exceedsDigits_iff {n : Int} : exceedsDigits n = true ↔ 10 ^ maxDigits ≤ n.natAbs := by
  have hpos : 0 < maxDigits := by decide
  rw [exceedsDigits, decide_eq_true_iff, ← Nat.not_le,
    Nat.length_toDigits_le_iff (by decide) hpos, Nat.not_lt]

/-- What is read from digits within the limit has no more digits than the limit. -/
theorem exceedsDigits_of_readDigits {negative : Bool} {number : Int}
    (hdigits : ∀ c ∈ digits, isAsciiDigit c = true) (h : readDigits negative digits = .ok number) :
    exceedsDigits number = false := by
  unfold readDigits at h
  split at h
  · rename_i hlength
    cases h
    rw [Bool.eq_false_iff, ne_eq, exceedsDigits_iff, natAbs_signed, Nat.not_le]
    exact Nat.lt_of_lt_of_le (digitsValue_lt hdigits) (Nat.pow_le_pow_right (by decide) hlength)
  · cases h

/-! ## Characters of one kind in front of others -/

section Front

variable {p : Char → Bool} {front rest : List Char}

/-- Characters of a kind are taken up to the first one of another kind. -/
theorem takeWhile_append_of_head (hfront : ∀ c ∈ front, p c = true)
    (hrest : ∀ c, rest.head? = some c → p c = false) : (front ++ rest).takeWhile p = front := by
  have hnone : rest.takeWhile p = [] := by
    cases rest with
    | nil => rfl
    | cons c rest => simp [hrest c rfl]
  rw [List.takeWhile_append_of_pos hfront, hnone, List.append_nil]

theorem dropWhile_append_of_head (hfront : ∀ c ∈ front, p c = true)
    (hrest : ∀ c, rest.head? = some c → p c = false) : (front ++ rest).dropWhile p = rest := by
  rw [List.dropWhile_append_of_pos hfront]
  cases rest with
  | nil => rfl
  | cons c rest => simp [hrest c rfl]

end Front

end StageChain.Text
