import Mathlib.Data.Nat.Log
import Mathlib.Tactic.Ring
import StageChain.Double.Shortest
import StageChain.Proofs.Text.Digits

/-!
# Decimals that are read as doubles

A decimal is read as the same double however its zeros are written: `ofDecimal_mul_pow`. The exact
decimal of a magnitude is read as that magnitude, and so is its shortest one:
`ofDecimal_shortest`.
-/

namespace StageChain

/-! ## Rounding -/

section Rounding

variable {numerator denominator factor : Nat}

/-- A common factor does not change how a quotient is rounded. -/
theorem roundQuotient_mul_right (hfactor : 0 < factor) :
    roundQuotient (numerator * factor) (denominator * factor) =
      roundQuotient numerator denominator := by
  have hless : ∀ a b : Nat, a * factor < b * factor ↔ a < b := fun a b =>
    Nat.mul_lt_mul_right hfactor
  have hsame : ∀ a b : Nat, a * factor = b * factor ↔ a = b := fun a b =>
    Nat.mul_left_inj hfactor.ne'
  simp only [roundQuotient, Nat.mul_div_mul_right _ _ hfactor, Nat.mul_mod_mul_right,
    ← Nat.mul_assoc, hless, hsame]

/-- A whole number is rounded to itself. -/
theorem roundQuotient_mul_self (numerator : Nat) (hdenominator : 0 < denominator) :
    roundQuotient (numerator * denominator) denominator = numerator := by
  simp [roundQuotient, Nat.mul_div_cancel _ hdenominator, hdenominator]

end Rounding

namespace Magnitude

variable {m : Magnitude}

theorem nearest_mul_right {numerator denominator factor : Nat} (hfactor : 0 < factor) :
    nearest (numerator * factor) (denominator * factor) = nearest numerator denominator := by
  have hround : ∀ power : Nat, roundQuotient (numerator * factor) (denominator * factor * power) =
      roundQuotient numerator (denominator * power) := by
    intro power
    rw [Nat.mul_right_comm, roundQuotient_mul_right hfactor]
  simp only [nearest, Nat.mul_div_mul_right _ _ hfactor, hround]

theorem ofParts?_self (m : Magnitude) : ofParts? m.significand m.scale = some m :=
  dif_pos ⟨m.significand_lt, m.normal, m.scale_le⟩

/-- The scale of a magnitude is the one that rounding finds. -/
theorem log2_units (m : Magnitude) : m.units.log2 - 52 = m.scale := by
  obtain ⟨significand, scale, hlt, hnormal, -⟩ := m
  have hlt : significand < 2 ^ 53 := hlt
  have hnormal : scale = 0 ∨ 2 ^ 52 ≤ significand := hnormal
  simp only [units, Nat.pow_eq]
  rcases hnormal with rfl | hge
  · rcases Nat.eq_zero_or_pos significand with rfl | hpos
    · rfl
    · have hlog : significand.log2 < 53 := (Nat.log2_lt hpos.ne').2 hlt
      rw [Nat.pow_zero, Nat.mul_one]
      omega
  · have hpos : significand * 2 ^ scale ≠ 0 :=
      Nat.mul_ne_zero (by omega) (Nat.pow_pos (by decide)).ne'
    have hlow : 2 ^ (52 + scale) ≤ significand * 2 ^ scale := by
      rw [Nat.pow_add]
      exact Nat.mul_le_mul_right _ hge
    have hhigh : significand * 2 ^ scale < 2 ^ (52 + scale + 1) := by
      rw [Nat.add_right_comm, Nat.pow_add]
      exact Nat.mul_lt_mul_of_pos_right hlt (Nat.pow_pos (by decide))
    have hlog := (Nat.log2_eq_iff hpos).2 ⟨hlow, hhigh⟩
    omega

/-- A magnitude is nearest to itself. -/
theorem nearest_units (m : Magnitude) {denominator : Nat} (hdenominator : 0 < denominator) :
    nearest (m.units * denominator) denominator = some m := by
  have hround : roundQuotient (m.units * denominator) (denominator * 2 ^ m.scale) =
      m.significand := by
    have hunits : m.units * denominator = m.significand * (denominator * 2 ^ m.scale) := by
      rw [units, Nat.pow_eq]
      ring
    rw [hunits, roundQuotient_mul_self _ (Nat.mul_pos hdenominator (Nat.pow_pos (by decide)))]
  have hne : m.significand ≠ Nat.pow 2 53 := m.significand_lt.ne
  simp only [nearest, Nat.mul_div_cancel _ hdenominator, log2_units, Nat.pow_eq, hround]
  rw [if_neg hne, ofParts?_self]

end Magnitude

namespace Double

variable {digits : Nat} {exponent : Int} {negative : Bool}

/-! ## Writing zeros -/

theorem digitCount_mul_pow (hdigits : 0 < digits) (count : Nat) :
    digitCount (digits * 10 ^ count) = digitCount digits + count := by
  simp [digitCount, Text.toDigits_mul_pow hdigits]

theorem ofQuotient_mul_right {numerator denominator factor : Nat} (hfactor : 0 < factor) :
    ofQuotient negative (numerator * factor) (denominator * factor) =
      ofQuotient negative numerator denominator := by
  unfold ofQuotient
  rw [Magnitude.nearest_mul_right hfactor]

theorem ofQuotient_of_positive {numerator denominator : Nat} {m : Magnitude}
    (h : ofQuotient false numerator denominator = .finite false m) (negative : Bool) :
    ofQuotient negative numerator denominator = .finite negative m := by
  unfold ofQuotient at h ⊢
  cases hnearest : Magnitude.nearest numerator denominator with
  | none => simp [hnearest] at h
  | some found =>
      simp only [hnearest, finite.injEq, true_and] at h
      simp only [h]

/-- The quotient that a decimal is rounded from, unless its size alone decides. -/
theorem ofDecimal_eq (negative : Bool) (digits : Nat) (exponent : Int) :
    ofDecimal negative digits exponent =
      if digits = 0 ∨ exponent + digitCount digits < -330 then finite negative .zero
      else if 310 < exponent + digitCount digits then infinite negative
      else ofQuotient negative (digits * 10 ^ exponent.toNat * Magnitude.unitsPerOne)
        (10 ^ (-exponent).toNat) := by
  have hscaled : (if 0 ≤ exponent then
        ofQuotient negative (digits * Nat.pow 10 exponent.toNat * Magnitude.unitsPerOne) 1
      else ofQuotient negative (digits * Magnitude.unitsPerOne) (Nat.pow 10 (-exponent).toNat)) =
      ofQuotient negative (digits * 10 ^ exponent.toNat * Magnitude.unitsPerOne)
        (10 ^ (-exponent).toNat) := by
    split
    · rename_i hexponent
      rw [Int.toNat_of_nonpos (Int.neg_nonpos_of_nonneg hexponent), Nat.pow_zero]
      rfl
    · rename_i hexponent
      rw [Int.toNat_of_nonpos (by omega : exponent ≤ 0), Nat.pow_zero, Nat.mul_one]
      rfl
  unfold ofDecimal
  rw [hscaled]

/-- Zeros at the end of the digits count as the exponent does. -/
theorem ofDecimal_mul_pow (negative : Bool) (digits count : Nat) (exponent : Int) :
    ofDecimal negative (digits * 10 ^ count) exponent =
      ofDecimal negative digits (exponent + count) := by
  rcases Nat.eq_zero_or_pos digits with rfl | hdigits
  · simp [ofDecimal_eq]
  have hne : digits * 10 ^ count = 0 ↔ digits = 0 := by simp
  have horder : exponent + digitCount (digits * 10 ^ count) =
      exponent + count + digitCount digits := by
    rw [digitCount_mul_pow hdigits, Nat.cast_add]
    ring
  -- the powers of ten differ by a common factor
  obtain ⟨common, hnumerator, hdenominator⟩ : ∃ common,
      count + exponent.toNat = (exponent + count).toNat + common ∧
        (-exponent).toNat = (-(exponent + count)).toNat + common :=
    ⟨(-exponent).toNat - (-(exponent + count)).toNat, by omega, by omega⟩
  have hquotient : ofQuotient negative
      (digits * 10 ^ count * 10 ^ exponent.toNat * Magnitude.unitsPerOne)
        (10 ^ (-exponent).toNat) =
      ofQuotient negative (digits * 10 ^ (exponent + count).toNat * Magnitude.unitsPerOne)
        (10 ^ (-(exponent + count)).toNat) := by
    have hfactor : digits * 10 ^ count * 10 ^ exponent.toNat * Magnitude.unitsPerOne =
        digits * 10 ^ (exponent + count).toNat * Magnitude.unitsPerOne * 10 ^ common := by
      rw [Nat.mul_assoc digits, ← Nat.pow_add, hnumerator, Nat.pow_add]
      ring
    rw [hfactor, hdenominator, Nat.pow_add, ofQuotient_mul_right (Nat.pow_pos (by decide))]
  rw [ofDecimal_eq, ofDecimal_eq, horder, hquotient]
  simp only [hne]

/-- The sign of a decimal is that of the double. -/
theorem ofDecimal_of_positive {m : Magnitude}
    (h : ofDecimal false digits exponent = .finite false m) (negative : Bool) :
    ofDecimal negative digits exponent = .finite negative m := by
  rw [ofDecimal_eq] at h ⊢
  split at h
  · rename_i hzero
    rw [if_pos hzero, ← (finite.inj h).2]
  · rename_i hzero
    split at h
    · cases h
    · rename_i hlarge
      rw [if_neg hzero, if_neg hlarge]
      exact ofQuotient_of_positive h negative

end Double

namespace Magnitude

variable {m : Magnitude}

/-! ## The exact decimal -/

theorem unitsPerOne_eq : unitsPerOne = 2 ^ 1074 := by
  unfold unitsPerOne
  generalize 1074 = power
  exact Nat.pow_eq

/-- How many binary places the units are below one; a variable, since the power is large. -/
theorem exists_unitsPerOne_eq : ∃ places, places = 1074 ∧ unitsPerOne = 2 ^ places :=
  ⟨1074, rfl, unitsPerOne_eq⟩

theorem units_eq (m : Magnitude) : m.units = m.significand * 2 ^ m.scale := rfl

/-- A decimal of moderate size is read as the magnitude that it is equal to. -/
theorem isReadFrom_of_units {digits : Nat} {exponent : Int} (hpos : 0 < digits)
    (hlow : -330 ≤ exponent + Double.digitCount digits)
    (hhigh : exponent + Double.digitCount digits ≤ 310)
    (hunits : digits * 10 ^ exponent.toNat * unitsPerOne =
      m.units * 10 ^ (-exponent).toNat) : m.isReadFrom ⟨digits, exponent⟩ = true := by
  have hnearest := m.nearest_units (Nat.pow_pos (by decide) : 0 < 10 ^ (-exponent).toNat)
  have hmoderate : ¬ (digits = 0 ∨ exponent + Double.digitCount digits < -330) := by omega
  have hread : Double.ofDecimal false digits exponent = .finite false m := by
    rw [Double.ofDecimal_eq, if_neg hmoderate, if_neg (Int.not_lt.2 hhigh), hunits]
    unfold Double.ofQuotient
    rw [hnearest]
  exact beq_iff_eq.2 hread

theorem digitCount_pos (digits : Nat) : 0 < Double.digitCount digits := Nat.length_toDigits_pos

theorem digitCount_le_iff {digits count : Nat} (hcount : 0 < count) :
    Double.digitCount digits ≤ count ↔ digits < 10 ^ count :=
  Nat.length_toDigits_le_iff (by decide) hcount

theorem eq_zero_of_significand (hzero : m.significand = 0) : m = zero := by
  have hscale : m.scale = 0 := m.normal.resolve_right (by rw [hzero]; decide)
  cases m
  simp_all [zero]

/-- A magnitude without fractional part is read from its digits. -/
theorem isReadFrom_of_whole (h : 1074 ≤ m.scale) :
    m.isReadFrom ⟨m.significand * 2 ^ (m.scale - 1074), 0⟩ = true := by
  have hpos : 0 < m.significand :=
    Nat.lt_of_lt_of_le (Nat.pow_pos (by decide)) (m.normal.resolve_left (by omega))
  have hdigits : 0 < m.significand * 2 ^ (m.scale - 1074) :=
    Nat.mul_pos hpos (Nat.pow_pos (by decide))
  have hsmall : m.significand * 2 ^ (m.scale - 1074) < 10 ^ 310 := by
    have hscale : m.scale - 1074 ≤ 971 := by
      have hle := m.scale_le
      omega
    calc m.significand * 2 ^ (m.scale - 1074)
        ≤ 2 ^ 53 * 2 ^ 971 :=
          Nat.mul_le_mul m.significand_lt.le (Nat.pow_le_pow_right (by decide) hscale)
      _ < 10 ^ 310 := by decide +kernel
  have hcount := (digitCount_le_iff (by decide)).2 hsmall
  refine isReadFrom_of_units hdigits (by omega) (by omega) ?_
  have hscale : m.scale = (m.scale - 1074) + 1074 := by omega
  have hunits : m.significand * 2 ^ (m.scale - 1074) * unitsPerOne = m.units := by
    rw [unitsPerOne_eq, Nat.mul_assoc, ← Nat.pow_add, ← hscale, units_eq]
  simpa using hunits

/-- Fives have at most as many digits as tens. -/
theorem digitCount_fives_le (m : Magnitude) (places : Nat) :
    Double.digitCount (m.significand * 5 ^ places) ≤ places + 16 := by
  refine (digitCount_le_iff (by omega)).2 ?_
  calc m.significand * 5 ^ places
      ≤ m.significand * 10 ^ places :=
        Nat.mul_le_mul_left _ (Nat.pow_le_pow_left (by decide) places)
    _ < 10 ^ 16 * 10 ^ places := by
        refine Nat.mul_lt_mul_of_pos_right ?_ (Nat.pow_pos (by decide))
        exact Nat.lt_of_lt_of_le m.significand_lt (by decide +kernel)
    _ = 10 ^ (places + 16) := by rw [Nat.pow_add, Nat.mul_comm]

/-- Up to the places of the smallest double, fives lack less than 331 digits against tens. -/
theorem lt_digitCount_fives {places : Nat} (hpos : 0 < m.significand) (hplaces : places ≤ 1074) :
    places < Double.digitCount (m.significand * 5 ^ places) + 331 := by
  have hcount := digitCount_pos (m.significand * 5 ^ places)
  by_contra hmany
  obtain ⟨more, rfl⟩ : ∃ more, places = more + 331 := ⟨places - 331, by omega⟩
  have hlarge : m.significand * 5 ^ (more + 331) < 10 ^ more :=
    (digitCount_le_iff (by omega)).1 (by omega)
  have htwos : 2 ^ more ≤ 5 ^ 331 :=
    calc 2 ^ more ≤ 2 ^ 743 := Nat.pow_le_pow_right (by decide) (by omega)
      _ ≤ 5 ^ 331 := by decide +kernel
  have hfives : 10 ^ more ≤ m.significand * 5 ^ (more + 331) :=
    calc 10 ^ more = 5 ^ more * 2 ^ more := by rw [← Nat.mul_pow]
      _ ≤ 5 ^ more * 5 ^ 331 := Nat.mul_le_mul_left _ htwos
      _ = 5 ^ (more + 331) := by rw [Nat.pow_add]
      _ ≤ m.significand * 5 ^ (more + 331) := Nat.le_mul_of_pos_left _ hpos
  omega

/-- A magnitude is read from as many decimal places as it has binary ones. -/
theorem isReadFrom_of_places (hpos : 0 < m.significand) (h : m.scale < 1074) :
    m.isReadFrom ⟨m.significand * 5 ^ (1074 - m.scale), -(1074 - m.scale : Nat)⟩ = true := by
  obtain ⟨places, hplaces⟩ : ∃ places, 1074 - m.scale = places := ⟨_, rfl⟩
  rw [hplaces]
  have hdigits : 0 < m.significand * 5 ^ places := Nat.mul_pos hpos (Nat.pow_pos (by decide))
  have hlow := lt_digitCount_fives hpos (hplaces ▸ Nat.sub_le 1074 m.scale)
  have hhigh := m.digitCount_fives_le places
  refine isReadFrom_of_units hdigits (by omega) (by omega) ?_
  have hexponent : (-(places : Int)).toNat = 0 := by omega
  have hexponent' : (-(-(places : Int))).toNat = places := by omega
  have hunits : unitsPerOne = 2 ^ m.scale * 2 ^ places := by
    rw [← Nat.pow_add, ← hplaces, Nat.add_sub_cancel' h.le, unitsPerOne_eq]
  simp only [hexponent, hexponent', Nat.pow_zero, Nat.mul_one]
  calc m.significand * 5 ^ places * unitsPerOne
      = m.significand * 2 ^ m.scale * (5 ^ places * 2 ^ places) := by rw [hunits]; ring
    _ = m.units * 10 ^ places := by rw [← Nat.mul_pow, units_eq]

theorem isReadFrom_exactDecimal (m : Magnitude) : m.isReadFrom m.exactDecimal = true := by
  unfold exactDecimal
  split
  · rename_i hscale
    exact isReadFrom_of_whole hscale
  · rename_i hscale
    rcases Nat.eq_zero_or_pos m.significand with hzero | hpos
    · rw [isReadFrom, beq_iff_eq, Double.ofDecimal_eq, if_pos (.inl (by simp [hzero])),
        eq_zero_of_significand hzero]
    · exact isReadFrom_of_places hpos (by omega)

/-- The shortest decimal of a magnitude is read as the magnitude. -/
theorem isReadFrom_shortest (m : Magnitude) : m.isReadFrom m.shortest = true := by
  simp only [shortest]
  cases hfound : List.find? m.isReadFrom ((List.range 17).flatMap fun index =>
      candidates m.exactDecimal (Double.digitCount m.exactDecimal.digits) (index + 1)) with
  | none => exact m.isReadFrom_exactDecimal
  | some found => exact List.find?_some hfound

end Magnitude

/-- A double that is finite is read from its sign and the shortest decimal of its magnitude. -/
theorem Double.ofDecimal_shortest (negative : Bool) (m : Magnitude) :
    Double.ofDecimal negative m.shortest.digits m.shortest.exponent = .finite negative m :=
  Double.ofDecimal_of_positive (beq_iff_eq.1 m.isReadFrom_shortest) negative

end StageChain
