import StageChain.Proofs.Double.Rounding

/-!
# Integers that are doubles

An integer is a double exactly if it is one of 53 binary digits followed by zeros, within the range
of doubles: `holds_iff`. The double nearest to an integer is the integer itself exactly in that
case, `toInt?_ofDecimal_iff`. All integers up to `2 ^ 53` are doubles, and no odd integer beyond is.
-/

namespace StageChain

/-- The integer is a double: it has at most 53 binary digits before zeros, and is in the range. -/
def Double.Holds (n : Int) : Prop :=
  ∃ significand scale, significand < 2 ^ 53 ∧ scale ≤ 971 ∧ n.natAbs = significand * 2 ^ scale

namespace Magnitude

variable {m : Magnitude} {significand scale size : Nat}

/-- A number of at most 53 binary digits before zeros is a magnitude: the digits are moved up until
there are 53. -/
theorem exists_units_eq (hsignificand : significand < 2 ^ 53) (hscale : scale ≤ 971) :
    ∃ m : Magnitude, m.units = significand * 2 ^ scale * unitsPerOne := by
  rcases Nat.eq_zero_or_pos significand with rfl | hpos
  · exact ⟨zero, by simp [units, zero]⟩
  obtain ⟨places, hplaces, hunits⟩ := exists_unitsPerOne_eq
  have hlog : significand.log2 < 53 := (Nat.log2_lt hpos.ne').2 hsignificand
  obtain ⟨shift, hshift⟩ : ∃ shift, significand.log2 + shift = 52 :=
    ⟨52 - significand.log2, by omega⟩
  obtain ⟨power, hpower⟩ : ∃ power, shift + power = scale + places :=
    ⟨scale + places - shift, by omega⟩
  obtain ⟨hlow, hhigh⟩ := (Nat.log2_eq_iff hpos.ne').1 (rfl : significand.log2 = _)
  have hless : significand * 2 ^ shift < 2 ^ 53 :=
    calc significand * 2 ^ shift
        < 2 ^ (significand.log2 + 1) * 2 ^ shift :=
          Nat.mul_lt_mul_of_pos_right hhigh (Nat.pow_pos (by decide))
      _ = 2 ^ 53 := by rw [← Nat.pow_add, Nat.add_right_comm, hshift]
  have hnormal : 2 ^ 52 ≤ significand * 2 ^ shift :=
    calc 2 ^ 52 = 2 ^ significand.log2 * 2 ^ shift := by rw [← Nat.pow_add, hshift]
      _ ≤ significand * 2 ^ shift := Nat.mul_le_mul_right _ hlow
  refine ⟨⟨significand * 2 ^ shift, power, hless, .inr hnormal, by omega⟩, ?_⟩
  calc significand * 2 ^ shift * 2 ^ power
      = significand * 2 ^ (scale + places) := by rw [Nat.mul_assoc, ← Nat.pow_add, hpower]
    _ = significand * 2 ^ scale * unitsPerOne := by rw [hunits, Nat.pow_add, Nat.mul_assoc]

/-- A whole magnitude has at most 53 binary digits before zeros. -/
theorem exists_of_units_eq (h : m.units = size * unitsPerOne) :
    ∃ significand scale, significand < 2 ^ 53 ∧ scale ≤ 971 ∧ size = significand * 2 ^ scale := by
  obtain ⟨places, hplaces, hunits⟩ := exists_unitsPerOne_eq
  have hlt : m.significand < 2 ^ 53 := m.significand_lt
  have hle := m.scale_le
  rw [units_eq, hunits] at h
  rcases Nat.le_total places m.scale with hscale | hscale
  · obtain ⟨scale, hsum⟩ : ∃ scale, m.scale = scale + places := ⟨m.scale - places, by omega⟩
    rw [hsum, Nat.pow_add, ← Nat.mul_assoc] at h
    have hsize := Nat.eq_of_mul_eq_mul_right (Nat.pow_pos (by decide)) h
    exact ⟨m.significand, scale, hlt, by omega, hsize.symm⟩
  · obtain ⟨rest, hrest⟩ : ∃ rest, places = rest + m.scale := ⟨places - m.scale, by omega⟩
    rw [hrest, Nat.pow_add, ← Nat.mul_assoc] at h
    have hsize := Nat.eq_of_mul_eq_mul_right (Nat.pow_pos (by decide)) h
    have hsmall : size < 2 ^ 53 :=
      calc size ≤ size * 2 ^ rest := Nat.le_mul_of_pos_right _ (Nat.pow_pos (by decide))
        _ < 2 ^ 53 := hsize ▸ hlt
    exact ⟨size, 0, hsmall, by decide, by rw [Nat.pow_zero, Nat.mul_one]⟩

theorem units_eq_iff : m.units = size * unitsPerOne ↔ m.isWhole = true ∧ m.wholePart = size := by
  obtain ⟨places, -, hunits⟩ := exists_unitsPerOne_eq
  have hpos : 0 < unitsPerOne := hunits ▸ Nat.two_pow_pos places
  rw [isWhole, beq_iff_eq, wholePart]
  constructor
  · intro h
    rw [h, Nat.mul_mod_left, Nat.mul_div_cancel _ hpos]
    exact ⟨rfl, rfl⟩
  · rintro ⟨hmod, rfl⟩
    rw [Nat.div_mul_cancel (Nat.dvd_of_mod_eq_zero hmod)]

end Magnitude

namespace Double

variable {n : Int} {x : Double} {negative : Bool} {m : Magnitude} {size : Nat}

theorem toInt?_finite (h : m.units = size * Magnitude.unitsPerOne) :
    (finite negative m).toInt? = some (Text.signed negative size) := by
  obtain ⟨hwhole, rfl⟩ := Magnitude.units_eq_iff.1 h
  rw [toInt?, isWhole, if_pos hwhole]
  rfl

/-- A double is an integer if it is finite and its magnitude is that of the integer. -/
theorem exists_of_toInt? (h : x.toInt? = some n) :
    ∃ negative m, x = finite negative m ∧ m.units = n.natAbs * Magnitude.unitsPerOne := by
  cases x with
  | nan | infinite negative => cases h
  | finite negative m =>
      refine ⟨negative, m, rfl, ?_⟩
      unfold toInt? at h
      split at h
      · rename_i hwhole
        have hsigned : Text.signed negative m.wholePart = n := Option.some.inj h
        rw [← hsigned, Text.natAbs_signed]
        exact Magnitude.units_eq_iff.2 ⟨hwhole, rfl⟩
      · cases h

/-- An integer has the form of a double exactly if some double is that integer. -/
theorem holds_iff : Holds n ↔ ∃ x : Double, x.toInt? = some n := by
  constructor
  · rintro ⟨significand, scale, hsignificand, hscale, hn⟩
    obtain ⟨m, hm⟩ := Magnitude.exists_units_eq hsignificand hscale
    rw [← hn] at hm
    refine ⟨finite (n < 0) m, ?_⟩
    rw [toInt?_finite hm, Text.signed_natAbs]
  · rintro ⟨x, hx⟩
    obtain ⟨negative, m, rfl, hm⟩ := exists_of_toInt? hx
    exact Magnitude.exists_of_units_eq hm

/-- A number that is the magnitude of a double is read as that double. -/
theorem ofDecimal_of_units (h : m.units = size * Magnitude.unitsPerOne) (negative : Bool) :
    ofDecimal negative size 0 = finite negative m := by
  refine ofDecimal_of_positive ?_ negative
  rcases Nat.eq_zero_or_pos size with rfl | hpos
  · have hzero : m.significand = 0 := by
      rw [Nat.zero_mul, Magnitude.units_eq] at h
      exact (Nat.mul_eq_zero.1 h).resolve_right (Nat.pow_pos (by decide)).ne'
    rw [ofDecimal_eq, if_pos (.inl rfl), Magnitude.eq_zero_of_significand hzero]
  · obtain ⟨significand, scale, hsignificand, hscale, hsize⟩ := Magnitude.exists_of_units_eq h
    have hsmall : size < 10 ^ 310 :=
      calc size = significand * 2 ^ scale := hsize
        _ ≤ 2 ^ 53 * 2 ^ 971 :=
          Nat.mul_le_mul hsignificand.le (Nat.pow_le_pow_right (by decide) hscale)
        _ < 10 ^ 310 := by decide +kernel
    have hcount := (Magnitude.digitCount_le_iff (by decide)).2 hsmall
    refine beq_iff_eq.1 (Magnitude.isReadFrom_of_units hpos (by omega) (by omega) ?_)
    simpa using h.symm

/-- The double nearest to an integer is that integer, if any double is. -/
theorem toInt?_ofDecimal_iff (hsigned : Text.signed negative n.natAbs = n) :
    (ofDecimal negative n.natAbs 0).toInt? = some n ↔ Holds n := by
  refine ⟨fun h => holds_iff.2 ⟨_, h⟩, fun h => ?_⟩
  obtain ⟨x, hx⟩ := holds_iff.1 h
  obtain ⟨-, m, -, hm⟩ := exists_of_toInt? hx
  rw [ofDecimal_of_units hm, toInt?_finite hm, hsigned]

/-- All integers up to `2 ^ 53` are doubles. -/
theorem holds_of_natAbs_le (h : n.natAbs ≤ 2 ^ 53) : Holds n := by
  rcases Nat.lt_or_eq_of_le h with hlt | heq
  · exact ⟨n.natAbs, 0, hlt, by decide, by rw [Nat.pow_zero, Nat.mul_one]⟩
  · exact ⟨2 ^ 52, 1, by decide, by decide, heq⟩

/-- No odd integer beyond `2 ^ 53` is a double. -/
theorem not_holds_of_odd (hodd : n.natAbs % 2 = 1) (hlarge : 2 ^ 53 < n.natAbs) : ¬ Holds n := by
  rintro ⟨significand, scale, hsignificand, -, hn⟩
  cases scale with
  | zero =>
      rw [Nat.pow_zero, Nat.mul_one] at hn
      omega
  | succ scale =>
      rw [hn, Nat.pow_succ, ← Nat.mul_assoc, Nat.mul_mod_left] at hodd
      cases hodd

end Double

end StageChain
