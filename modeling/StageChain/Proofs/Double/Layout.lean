import Mathlib.Data.List.Basic
import Mathlib.Data.List.TakeWhile
import StageChain.Double.Text
import StageChain.Proofs.Double.Rounding

/-!
# How doubles are laid out

A decimal is written as digits with a point, with an exponent, or with both: `Written` lists the
three forms and what each of them denotes. Whatever the layout does with zeros, the text of a
decimal in the full layout denotes a decimal that is read as the same double: `denotes_render`.
-/

namespace StageChain.Decimal

open Text

variable {d : Decimal} {chars digits whole places : List Char} {power : Int}

/-! ## Forms of numerals -/

/-- Digits that can stand before a point: a zero alone, or digits that do not start with a zero. -/
structure IsWhole (digits : List Char) : Prop where
  isDigit : ∀ c ∈ digits, isAsciiDigit c = true
  ne_nil : digits ≠ []
  leading : digits = ['0'] ∨ digits.head? ≠ some '0'

/-- The forms in which a decimal is written, with the decimal that each one denotes. -/
inductive Written : List Char → Nat → Int → Prop where
  | places (whole places : List Char) (hwhole : IsWhole whole)
      (hplaces : ∀ c ∈ places, isAsciiDigit c = true) (hne : places ≠ []) :
      Written (whole ++ '.' :: places) (digitsValue (whole ++ places)) (-places.length)
  | power (whole : List Char) (power : Int) (hwhole : IsWhole whole) :
      Written (whole ++ exponentText power) (digitsValue whole) power
  | placesPower (whole places : List Char) (power : Int) (hwhole : IsWhole whole)
      (hplaces : ∀ c ∈ places, isAsciiDigit c = true) (hne : places ≠ []) :
      Written (whole ++ '.' :: places ++ exponentText power) (digitsValue (whole ++ places))
        (power - places.length)

theorem IsWhole.zero : IsWhole ['0'] where
  isDigit := by simp [isAsciiDigit]
  ne_nil := by simp
  leading := .inl rfl

/-- The digits of a number can stand before a point. -/
theorem isWhole_toDigits (n : Nat) : IsWhole (Nat.toDigits 10 n) where
  isDigit := fun _ hc => isAsciiDigit_of_mem_toDigits hc
  ne_nil := Nat.toDigits_ne_nil
  leading := by
    rcases Nat.eq_zero_or_pos n with rfl | hn
    · exact .inl rfl
    · exact .inr (head?_toDigits_ne_zero hn)

/-- A text is a form of a numeral that is read as the same double as the decimal. -/
def Denotes (chars : List Char) (d : Decimal) : Prop :=
  ∃ value exponent, Written chars value exponent ∧
    ∀ negative, Double.ofDecimal negative value exponent =
      Double.ofDecimal negative d.digits d.exponent

/-! ## Significant digits -/

/-- The significant digits of a decimal, with the power of the first one, denote the decimal. -/
structure Signifies (d : Decimal) (digits : List Char) (power : Int) : Prop where
  whole : IsWhole digits
  /-- A zero has no power. -/
  zero_power : digits = ['0'] → power = 0
  value : ∀ negative, Double.ofDecimal negative (digitsValue digits) (power + 1 - digits.length) =
    Double.ofDecimal negative d.digits d.exponent

/-- Dropping zeros at the end leaves digits to which they can be added again. -/
theorem exists_dropEndWhile_zeros (digits : List Char) :
    ∃ count, digits = dropEndWhile (· == '0') digits ++ List.replicate count '0' := by
  have hzeros : digits.reverse.takeWhile (· == '0') =
      List.replicate (digits.reverse.takeWhile (· == '0')).length '0' :=
    List.eq_replicate_iff.2 ⟨rfl, fun c hc => by simpa using List.mem_takeWhile_imp hc⟩
  have hsplit := (digits.reverse.takeWhile_append_dropWhile (p := (· == '0'))).symm
  rw [hzeros] at hsplit
  have hturned := congrArg List.reverse hsplit
  rw [List.reverse_reverse, List.reverse_append, List.reverse_replicate] at hturned
  exact ⟨_, hturned⟩

theorem signifies_zero (exponent : Int) : Signifies ⟨0, exponent⟩ ['0'] 0 where
  whole := .zero
  zero_power := fun _ => rfl
  value := by
    intro negative
    have hvalue : digitsValue ['0'] = 0 := rfl
    rw [hvalue, Double.ofDecimal_eq, Double.ofDecimal_eq, if_pos (.inl rfl), if_pos (.inl rfl)]

/-- What is left of the digits of a number without the zeros at the end signifies the number. -/
theorem signifies_of_zeros {count : Nat} (hpos : 0 < d.digits)
    (hdigits : Nat.toDigits 10 d.digits = digits ++ List.replicate count '0') :
    d.Signifies digits d.leadingPower := by
  have hhead := head?_toDigits_ne_zero hpos
  have hne : digits ≠ [] := by
    rintro rfl
    rw [hdigits] at hhead
    cases count with
    | zero => exact Nat.toDigits_ne_nil hdigits
    | succ count => exact hhead rfl
  rw [hdigits, List.head?_append_of_ne_nil _ hne] at hhead
  constructor
  case whole =>
    refine ⟨fun c hc => isAsciiDigit_of_mem_toDigits (n := d.digits) ?_, hne, .inr hhead⟩
    rw [hdigits]
    exact List.mem_append_left _ hc
  case zero_power =>
    rintro rfl
    exact absurd rfl hhead
  case value =>
    intro negative
    have hvalue : d.digits = digitsValue digits * 10 ^ count := by
      rw [← digitsValue_append_zeros, ← hdigits, digitsValue_toDigits]
    have hcount : Double.digitCount d.digits = digits.length + count := by
      rw [Double.digitCount, hdigits, List.length_append, List.length_replicate]
    have hpower : d.leadingPower + 1 - digits.length = d.exponent + count := by
      rw [leadingPower, if_neg hpos.ne', hcount]
      omega
    rw [hpower, ← Double.ofDecimal_mul_pow, ← hvalue]

theorem signifies_significant (d : Decimal) : d.Signifies d.significant d.leadingPower := by
  rcases Nat.eq_zero_or_pos d.digits with hzero | hpos
  · obtain ⟨digits, exponent⟩ := d
    obtain rfl : digits = 0 := hzero
    have hsignificant : significant ⟨0, exponent⟩ = ['0'] := by
      simp [significant, dropEndWhile]
    rw [hsignificant]
    exact signifies_zero exponent
  · obtain ⟨count, hdigits⟩ := exists_dropEndWhile_zeros (Nat.toDigits 10 d.digits)
    have hkept := signifies_of_zeros hpos hdigits
    have hsignificant : d.significant = dropEndWhile (· == '0') (Nat.toDigits 10 d.digits) := by
      unfold significant
      split
      · rename_i hnone
        exact absurd hnone hkept.whole.ne_nil
      · rfl
    rwa [hsignificant]

/-! ## Layouts -/

namespace Signifies

/-- A text that writes the significant digits, with zeros after them, denotes the decimal if its
exponent fits. -/
theorem denotes (h : d.Signifies digits power) (zeros : Nat) {value : Nat} {exponent : Int}
    (hwritten : Written chars value exponent) (hvalue : value = digitsValue digits * 10 ^ zeros)
    (hexponent : exponent + zeros = power + 1 - digits.length) : Denotes chars d := by
  refine ⟨value, exponent, hwritten, fun negative => ?_⟩
  rw [hvalue, Double.ofDecimal_mul_pow, hexponent, h.value]

/-- The first digits can stand before a point. -/
theorem isWhole_take (h : d.Signifies digits power) {count : Nat} (hcount : 0 < count)
    (hlength : count < digits.length) : IsWhole (digits.take count) where
  isDigit := fun c hc => h.whole.isDigit c (List.mem_of_mem_take hc)
  ne_nil := by
    have hne := h.whole.ne_nil
    simp [hne, hcount.ne']
  leading := by
    rcases h.whole.leading with rfl | hhead
    · rw [List.length_singleton] at hlength
      omega
    · rw [List.head?_take, if_neg hcount.ne']
      exact .inr hhead

/-- Zeros up to the point can stand after the digits. -/
theorem isWhole_append_zeros (h : d.Signifies digits power) (zeros : Nat)
    (hzeros : (power + 1).toNat - digits.length = zeros) :
    IsWhole (digits ++ List.replicate zeros '0') where
  isDigit := by
    intro c hc
    rcases List.mem_append.1 hc with hdigit | hzero
    · exact h.whole.isDigit c hdigit
    · rw [List.eq_of_mem_replicate hzero]
      rfl
  ne_nil := by simp [h.whole.ne_nil]
  leading := by
    rcases h.whole.leading with hdigits | hhead
    · -- a zero alone has no power, so that no zero follows it
      rw [h.zero_power hdigits, hdigits] at hzeros
      obtain rfl : zeros = 0 := hzeros.symm
      exact .inl (by simp [hdigits])
    · rw [List.head?_append_of_ne_nil _ h.whole.ne_nil]
      exact .inr hhead

theorem denotes_positional (h : d.Signifies digits power) (hpower : 0 ≤ power) :
    Denotes (positional Double.fullLayout digits (power.toNat + 1)) d := by
  unfold positional
  split
  · rename_i hshort
    have hwhole := h.isWhole_append_zeros (power.toNat + 1 - digits.length) (by omega)
    have hwritten := Written.places _ ['0'] hwhole (by simp [isAsciiDigit]) (by simp)
    refine h.denotes (power.toNat + 1 - digits.length + 1) hwritten ?_ ?_
    · rw [List.append_assoc, ← List.replicate_succ', digitsValue_append_zeros]
    · rw [List.length_singleton]
      omega
  · rename_i hlong
    have hwritten := Written.places (digits.take (power.toNat + 1)) (digits.drop (power.toNat + 1))
      (h.isWhole_take (Nat.succ_pos _) (by omega))
      (fun c hc => h.whole.isDigit c (List.mem_of_mem_drop hc))
      (List.length_pos_iff.1 (by rw [List.length_drop]; omega))
    refine h.denotes 0 hwritten ?_ ?_
    · rw [List.take_append_drop, Nat.pow_zero, Nat.mul_one]
    · rw [List.length_drop]
      omega

/-- Below one, the digits come after the zeros that their power asks for. -/
theorem denotes_fraction (h : d.Signifies digits power) (hpower : power < 0) :
    Denotes ('0' :: '.' :: List.replicate ((-power).toNat - 1) '0' ++ digits) d := by
  have hplaces : ∀ c ∈ List.replicate ((-power).toNat - 1) '0' ++ digits,
      isAsciiDigit c = true := by
    intro c hc
    rcases List.mem_append.1 hc with hzero | hdigit
    · rw [List.eq_of_mem_replicate hzero]
      rfl
    · exact h.whole.isDigit c hdigit
  have hwritten := Written.places ['0'] _ .zero hplaces (by simp [h.whole.ne_nil])
  refine h.denotes 0 hwritten ?_ ?_
  · rw [← List.append_assoc, List.singleton_append, ← List.replicate_succ,
      digitsValue_zeros_append, Nat.pow_zero, Nat.mul_one]
  · rw [List.length_append, List.length_replicate]
    omega

/-- With an exponent, the first digit comes before the point and the others after it. -/
theorem denotes_power (h : d.Signifies digits power) :
    Denotes ((if digits.length ≤ 1 then digits else digits.take 1 ++ '.' :: digits.drop 1) ++
      exponentText power) d := by
  have hlength := List.length_pos_iff.2 h.whole.ne_nil
  split
  · refine h.denotes 0 (.power digits power h.whole) ?_ ?_
    · rw [Nat.pow_zero, Nat.mul_one]
    · omega
  · rename_i hlong
    have hwritten := Written.placesPower (digits.take 1) (digits.drop 1) power
      (h.isWhole_take Nat.one_pos (by omega))
      (fun c hc => h.whole.isDigit c (List.mem_of_mem_drop hc))
      (List.length_pos_iff.1 (by rw [List.length_drop]; omega))
    refine h.denotes 0 hwritten ?_ ?_
    · rw [List.take_append_drop, Nat.pow_zero, Nat.mul_one]
    · rw [List.length_drop]
      omega

end Signifies

/-- The text of a decimal denotes the decimal. -/
theorem denotes_render (d : Decimal) : Denotes (d.render Double.fullLayout) d := by
  have hsignifies := d.signifies_significant
  simp only [render]
  split
  · split
    · rename_i hpower
      exact hsignifies.denotes_positional hpower
    · rename_i hpower
      exact hsignifies.denotes_fraction (by omega)
  · exact hsignifies.denotes_power

end StageChain.Decimal
