import Mathlib.Data.Nat.Dist
import StageChain.Proofs.Double.Rounding

/-!
# Doubles are nearest

Numerals are read as the doubles that are nearest to them: `Double.rounds_iff`. Nearest is meant
among all doubles: no other one is nearer to the number that is written, and of two that are equally
near it is the even one, `Magnitude.IsNearest`. A number that is nearer to the next power of two
beyond all doubles, or halfway to it, is an infinity, `Magnitude.Overflows`.

Rounding works on a grid, the multiples of a power of two, of which at least `2 ^ 52` are below the
number. A double that is not on the grid is smaller than all these and so farther away.
-/

namespace StageChain

/-! ## Multiples of a step -/

section Grid

variable {numerator step multiple other : Nat}

/-- A quotient is rounded by at most half a step, and by half a step only to an even multiple. -/
theorem two_mul_dist_roundQuotient (numerator : Nat) (hstep : 0 < step) :
    2 * Nat.dist (roundQuotient numerator step * step) numerator ≤ step ∧
      (2 * Nat.dist (roundQuotient numerator step * step) numerator = step →
        roundQuotient numerator step % 2 = 0) := by
  have hsum := Nat.div_add_mod' numerator step
  have hrest := Nat.mod_lt numerator hstep
  simp only [roundQuotient]
  generalize numerator / step = quotient at *
  generalize numerator % step = rest at *
  have hnext : (quotient + 1) * step = quotient * step + step := Nat.succ_mul quotient step
  split
  · simp only [Nat.dist]
    omega
  · split
    · rcases Nat.mod_two_eq_zero_or_one quotient with heven | hodd
      · rw [heven, Nat.add_zero]
        simp only [Nat.dist]
        omega
      · rw [hodd, hnext]
        simp only [Nat.dist]
        omega
    · rw [hnext]
      simp only [Nat.dist]
      omega

/-- What is at most half a step away is nearest among the multiples of the step, and the only other
one that can be as near is next to it. -/
theorem dist_mul_le_of_half (h : 2 * Nat.dist (multiple * step) numerator ≤ step)
    (hstep : 0 < step) (other : Nat) :
    Nat.dist (multiple * step) numerator ≤ Nat.dist (other * step) numerator ∧
      (Nat.dist (other * step) numerator = Nat.dist (multiple * step) numerator →
        other ≠ multiple →
        2 * Nat.dist (multiple * step) numerator = step ∧
          (other = multiple + 1 ∨ multiple = other + 1)) := by
  have hgap : ∀ {low high : Nat}, low < high → low * step + step ≤ high * step := fun hlt =>
    Nat.succ_mul _ step ▸ Nat.mul_le_mul_right step hlt
  have hwide : ∀ {low high : Nat}, low + 1 < high → low * step + 2 * step ≤ high * step := by
    intro low high hlt
    have htwo : (low + 2) * step ≤ high * step := Nat.mul_le_mul_right step hlt
    rwa [Nat.add_mul] at htwo
  simp only [Nat.dist] at *
  rcases Nat.lt_trichotomy other multiple with hlt | rfl | hgt
  · have hone := hgap hlt
    refine ⟨by omega, fun hsame _ => ⟨by omega, .inr ?_⟩⟩
    by_contra hfar
    have htwo := hwide (show other + 1 < multiple by omega)
    omega
  · exact ⟨Nat.le_refl _, fun _ hne => absurd rfl hne⟩
  · have hone := hgap hgt
    refine ⟨by omega, fun hsame _ => ⟨by omega, .inl ?_⟩⟩
    by_contra hfar
    have htwo := hwide (show multiple + 1 < other by omega)
    omega

end Grid

namespace Magnitude

variable {numerator denominator : Nat} {m other : Magnitude}

/-! ## What nearest means -/

/-- How far a magnitude is from a quotient of units, times the denominator. -/
def distance (numerator denominator : Nat) (m : Magnitude) : Nat :=
  Nat.dist (m.units * denominator) numerator

/-- No other magnitude is nearer to a quotient of units, and if another one is as near, then it is
odd and this one is even. -/
structure IsNearest (numerator denominator : Nat) (m : Magnitude) : Prop where
  least : ∀ other, distance numerator denominator m ≤ distance numerator denominator other
  even : ∀ other, distance numerator denominator other = distance numerator denominator m →
    other ≠ m → m.significand % 2 = 0 ∧ other.significand % 2 = 1

/-- Halfway between the greatest magnitude and the next power of two, in units. -/
def limit : Nat := (Nat.pow 2 54 - 1) * Nat.pow 2 2044

/-- A quotient of units is so large that it is no double. -/
def Overflows (numerator denominator : Nat) : Prop := limit * denominator ≤ numerator

/-- Only one magnitude is nearest. -/
theorem IsNearest.unique (h : IsNearest numerator denominator m)
    (hother : IsNearest numerator denominator other) : m = other := by
  by_contra hne
  have hsame := Nat.le_antisymm (h.least other) (hother.least m)
  have heven := (h.even other hsame.symm (Ne.symm hne)).1
  have hodd := (hother.even m hsame hne).2
  omega

/-! ## Magnitudes on and off the grid -/

variable {multiple scale : Nat}

/-- Magnitudes of the same size are the same. -/
theorem units_injective : Function.Injective units := by
  intro first second hsame
  have hfirst := first.nearest_units Nat.one_pos
  rw [hsame, second.nearest_units Nat.one_pos] at hfirst
  exact (Option.some.inj hfirst).symm

/-- A magnitude of at least a scale is on the grid of the scale. -/
theorem exists_multiple (h : scale ≤ m.scale) :
    ∃ multiple, m.units = multiple * 2 ^ scale ∧
      (multiple % 2 = 1 → m.significand % 2 = 1) := by
  obtain ⟨more, hmore⟩ := Nat.exists_eq_add_of_le h
  refine ⟨m.significand * 2 ^ more, ?_, fun hodd => ?_⟩
  · rw [units_eq, hmore, Nat.pow_add]
    ring
  · by_contra heven
    rw [Nat.mul_mod, (Nat.mod_two_eq_zero_or_one _).resolve_right heven, Nat.zero_mul,
      Nat.zero_mod] at hodd
    cases hodd

/-- A magnitude of a smaller scale is below the multiples on the grid. -/
theorem units_lt_of_scale_lt (h : m.scale < scale) : m.units < 2 ^ 52 * 2 ^ scale := by
  obtain ⟨less, rfl⟩ : ∃ less, scale = less + 1 := ⟨scale - 1, by omega⟩
  calc m.units = m.significand * 2 ^ m.scale := m.units_eq
    _ < 2 ^ 53 * 2 ^ m.scale := Nat.mul_lt_mul_of_pos_right m.significand_lt (Nat.two_pow_pos _)
    _ ≤ 2 ^ 53 * 2 ^ less :=
        Nat.mul_le_mul_left _ (Nat.pow_le_pow_right (by decide) (Nat.le_of_lt_succ h))
    _ = 2 ^ 52 * 2 ^ (less + 1) := by ring

/-- What is chosen on the grid of a scale: a multiple that is at most half a step away, and half a
step only if it is even, and of at least `2 ^ 52` unless the scale is the least. -/
structure Chooses (numerator denominator scale multiple : Nat) : Prop where
  half : 2 * Nat.dist (multiple * (2 ^ scale * denominator)) numerator ≤ 2 ^ scale * denominator
  tie : 2 * Nat.dist (multiple * (2 ^ scale * denominator)) numerator = 2 ^ scale * denominator →
    multiple % 2 = 0
  low : 0 < scale → 2 ^ 52 ≤ multiple ∧ 2 ^ 52 * (2 ^ scale * denominator) ≤ numerator
  high : multiple ≤ 2 ^ 53

/-- On the grid a magnitude is as far away as its multiple of the step. -/
theorem distance_of_units (numerator denominator : Nat) (h : m.units = multiple * 2 ^ scale) :
    distance numerator denominator m =
      Nat.dist (multiple * (2 ^ scale * denominator)) numerator := by
  rw [distance, h, Nat.mul_assoc]

theorem step_pos (scale : Nat) (hdenominator : 0 < denominator) : 0 < 2 ^ scale * denominator :=
  Nat.mul_pos (Nat.two_pow_pos scale) hdenominator

namespace Chooses

/-- Off the grid a magnitude is smaller than the least multiple and so farther away. -/
theorem distance_lt (h : Chooses numerator denominator scale multiple)
    (hdenominator : 0 < denominator) (hunits : m.units = multiple * 2 ^ scale)
    (hless : other.scale < scale) :
    distance numerator denominator m < distance numerator denominator other := by
  obtain ⟨-, hbelow⟩ := h.low (Nat.lt_of_le_of_lt (Nat.zero_le _) hless)
  have hsmall : other.units * denominator < 2 ^ 52 * (2 ^ scale * denominator) := by
    rw [← Nat.mul_assoc]
    exact Nat.mul_lt_mul_of_pos_right (units_lt_of_scale_lt hless) hdenominator
  have hleast := (dist_mul_le_of_half h.half (step_pos scale hdenominator) (2 ^ 52)).1
  rw [distance_of_units _ _ hunits]
  simp only [distance, Nat.dist] at *
  omega

/-- The magnitude of a multiple that is chosen is nearest. -/
theorem isNearest (h : Chooses numerator denominator scale multiple)
    (hdenominator : 0 < denominator) (hunits : m.units = multiple * 2 ^ scale)
    (hsignificand : multiple % 2 = 0 → m.significand % 2 = 0) :
    IsNearest numerator denominator m := by
  have hgrid := dist_mul_le_of_half h.half (step_pos scale hdenominator)
  have hown := distance_of_units numerator denominator hunits
  constructor
  case least =>
    intro other
    rcases Nat.lt_or_ge other.scale scale with hless | hscale
    · exact (h.distance_lt hdenominator hunits hless).le
    · obtain ⟨twin, htwin, -⟩ := exists_multiple hscale
      rw [hown, distance_of_units _ _ htwin]
      exact (hgrid twin).1
  case even =>
    intro other hsame hne
    rcases Nat.lt_or_ge other.scale scale with hless | hscale
    · exact absurd hsame (h.distance_lt hdenominator hunits hless).ne'
    · obtain ⟨twin, htwin, hodd⟩ := exists_multiple hscale
      rw [hown, distance_of_units _ _ htwin] at hsame
      have hdiffers : twin ≠ multiple := by
        rintro rfl
        exact hne (units_injective (htwin.trans hunits.symm))
      obtain ⟨hwhole, hnext⟩ := (hgrid twin).2 hsame hdiffers
      have heven := h.tie hwhole
      exact ⟨hsignificand heven, hodd (by omega)⟩

end Chooses

/-! ## Rounding -/

/-- The scale that is chosen for a quotient: it has at most 53 binary digits above it, and that many
unless the scale is the least. -/
theorem scale_bounds (numerator : Nat) (hdenominator : 0 < denominator) {scale : Nat}
    (hscale : scale = (numerator / denominator).log2 - 52) :
    numerator < 2 ^ 53 * (2 ^ scale * denominator) ∧
      (0 < scale → 2 ^ 52 * (2 ^ scale * denominator) ≤ numerator) := by
  rcases Nat.eq_zero_or_pos (numerator / denominator) with hzero | hpos
  · have hnone : scale = 0 := by
      rw [hscale, hzero]
      rfl
    have hsmall := (Nat.div_eq_zero_iff_lt hdenominator).1 hzero
    subst hnone
    refine ⟨?_, fun h => absurd h (Nat.lt_irrefl 0)⟩
    rw [Nat.pow_zero, Nat.one_mul]
    omega
  · obtain ⟨hlow, hhigh⟩ := (Nat.log2_eq_iff hpos.ne').1 (rfl : (numerator / denominator).log2 = _)
    constructor
    · have hless : numerator / denominator < 2 ^ (53 + scale) :=
        Nat.lt_of_lt_of_le hhigh (Nat.pow_le_pow_right (by decide) (by omega))
      rwa [Nat.div_lt_iff_lt_mul hdenominator, Nat.pow_add, Nat.mul_assoc] at hless
    · intro hscaled
      have hlog : (numerator / denominator).log2 = 52 + scale := by omega
      rw [hlog, Nat.le_div_iff_mul_le hdenominator, Nat.pow_add, Nat.mul_assoc] at hlow
      exact hlow

/-- The limit as a multiple of a power of two; a variable, since the power is large. -/
theorem exists_limit_eq : ∃ top, top = 2044 ∧ limit = (2 ^ 54 - 1) * 2 ^ top := by
  refine ⟨2044, rfl, ?_⟩
  unfold limit
  generalize 2044 = power
  simp only [Nat.pow_eq]

/-- Rounding chooses on the grid of the scale. -/
theorem chooses_roundQuotient (numerator : Nat) (hdenominator : 0 < denominator)
    (hscale : scale = (numerator / denominator).log2 - 52) :
    Chooses numerator denominator scale
      (roundQuotient numerator (2 ^ scale * denominator)) := by
  obtain ⟨hhigh, hlow⟩ := scale_bounds numerator hdenominator hscale
  obtain ⟨hhalf, htie⟩ := two_mul_dist_roundQuotient numerator (step_pos scale hdenominator)
  refine ⟨hhalf, htie, fun hscaled => ⟨?_, hlow hscaled⟩, ?_⟩
  all_goals
    generalize roundQuotient numerator (2 ^ scale * denominator) = multiple at *
    generalize 2 ^ scale * denominator = step at *
    simp only [Nat.dist] at hhalf
    by_contra houtside
  · have hbelow : (multiple + 1) * step ≤ 2 ^ 52 * step := Nat.mul_le_mul_right step (by omega)
    have hle := hlow hscaled
    rw [Nat.succ_mul] at hbelow
    omega
  · have habove : (2 ^ 53 + 1) * step ≤ multiple * step := Nat.mul_le_mul_right step (by omega)
    omega

/-- The step of the next scale is twice as large. -/
theorem step_succ (denominator scale : Nat) :
    2 ^ (scale + 1) * denominator = 2 * (2 ^ scale * denominator) := by
  rw [Nat.pow_succ']
  exact Nat.mul_assoc 2 _ _

theorem step_le {first second : Nat} (denominator : Nat) (h : first ≤ second) :
    2 ^ first * denominator ≤ 2 ^ second * denominator :=
  Nat.mul_le_mul_right _ (Nat.pow_le_pow_right (by decide) h)

/-- What is chosen shows whether a quotient overflows. -/
theorem Chooses.overflows_iff (h : Chooses numerator denominator scale multiple)
    (hdenominator : 0 < denominator) :
    Overflows numerator denominator ↔ 2045 < scale ∨ multiple = 2 ^ 53 ∧ scale = 2045 := by
  obtain ⟨top, htop, hlimit⟩ := exists_limit_eq
  obtain ⟨hhalf, htie, hlow, hhigh⟩ := h
  have hpos := step_pos top hdenominator
  -- the step against half the greatest one
  have hsmall : scale ≤ top → 2 ^ scale * denominator ≤ 2 ^ top * denominator :=
    step_le denominator
  have hlast : scale = top + 1 → 2 ^ scale * denominator = 2 * (2 ^ top * denominator) := by
    rintro rfl
    exact step_succ denominator top
  have hlarge : top + 2 ≤ scale → 4 * (2 ^ top * denominator) ≤ 2 ^ scale * denominator := by
    intro hle
    have hstep := step_le denominator hle
    rw [step_succ, step_succ] at hstep
    omega
  rw [Overflows, hlimit, Nat.mul_assoc]
  generalize 2 ^ top * denominator = unit at *
  generalize 2 ^ scale * denominator = step at *
  have hbelow : ∀ most, multiple ≤ most → multiple * step ≤ most * step := fun most hle =>
    Nat.mul_le_mul_right step hle
  have hevenBelow := hbelow (2 ^ 53 - 2)
  have hoddBelow := hbelow (2 ^ 53 - 1)
  have hallBelow := hbelow (2 ^ 53)
  simp only [Nat.dist] at *
  constructor
  · intro hover
    by_contra hneither
    omega
  · rintro (hscale | ⟨rfl, hscale⟩)
    · have hstep := hlarge (by omega)
      have hleast := hlow (by omega)
      omega
    · have hstep := hlast (by omega)
      omega

/-- A quotient of units is rounded to the nearest magnitude, unless it overflows. -/
theorem nearest_cases (numerator : Nat) (hdenominator : 0 < denominator) :
    (∃ m, nearest numerator denominator = some m ∧ IsNearest numerator denominator m ∧
      ¬ Overflows numerator denominator) ∨
      nearest numerator denominator = none ∧ Overflows numerator denominator := by
  obtain ⟨scale, hscale⟩ : ∃ scale, scale = (numerator / denominator).log2 - 52 := ⟨_, rfl⟩
  have hchooses := chooses_roundQuotient numerator hdenominator hscale
  have hnearest : nearest numerator denominator =
      if roundQuotient numerator (2 ^ scale * denominator) = 2 ^ 53 then
        ofParts? (2 ^ 52) (scale + 1)
      else ofParts? (roundQuotient numerator (2 ^ scale * denominator)) scale := by
    simp only [nearest, ← hscale, Nat.pow_eq, Nat.mul_comm denominator]
  generalize roundQuotient numerator (2 ^ scale * denominator) = multiple at *
  have hoverflows := hchooses.overflows_iff hdenominator
  have hhigh := hchooses.high
  by_cases hfull : multiple = 2 ^ 53
  · subst hfull
    rw [if_pos rfl] at hnearest
    by_cases hrange : scale + 1 ≤ 2045
    · have hform : 2 ^ 52 < Nat.pow 2 53 ∧ (scale + 1 = 0 ∨ Nat.pow 2 52 ≤ 2 ^ 52) ∧
          scale + 1 ≤ 2045 := ⟨by decide, .inr (by decide), hrange⟩
      refine .inl ⟨⟨2 ^ 52, scale + 1, hform.1, hform.2.1, hrange⟩, ?_, ?_,
        hoverflows.not.2 (by omega)⟩
      · rw [hnearest, ofParts?, dif_pos hform]
      · refine hchooses.isNearest hdenominator ?_ fun _ => (by decide : 2 ^ 52 % 2 = 0)
        rw [units_eq]
        ring
    · refine .inr ⟨?_, hoverflows.2 (by omega)⟩
      rw [hnearest, ofParts?, dif_neg fun hform => hrange hform.2.2]
  · rw [if_neg hfull] at hnearest
    by_cases hrange : scale ≤ 2045
    · have hless : multiple < 2 ^ 53 := by omega
      have hnormal : scale = 0 ∨ 2 ^ 52 ≤ multiple :=
        (Nat.eq_zero_or_pos scale).imp_right fun hscaled => (hchooses.low hscaled).1
      refine .inl ⟨⟨multiple, scale, hless, hnormal, hrange⟩, ?_, ?_,
        hoverflows.not.2 (by omega)⟩
      · rw [hnearest, ofParts?, dif_pos ⟨hless, hnormal, hrange⟩]
      · exact hchooses.isNearest hdenominator rfl id
    · refine .inr ⟨?_, hoverflows.2 (by omega)⟩
      rw [hnearest, ofParts?, dif_neg fun hform => hrange hform.2.2]

/-! ## Numbers whose size alone decides -/

/-- Zero is nearest to at most half a unit. -/
theorem isNearest_zero (hdenominator : 0 < denominator) (hsmall : 2 * numerator ≤ denominator) :
    IsNearest numerator denominator zero ∧ ¬ Overflows numerator denominator := by
  have hchooses : Chooses numerator denominator 0 0 := by
    refine ⟨?_, fun _ => rfl, fun h => absurd h (Nat.lt_irrefl 0), Nat.zero_le _⟩
    rw [Nat.zero_mul, Nat.dist_eq_sub_of_le (Nat.zero_le _), Nat.pow_zero, Nat.one_mul]
    exact hsmall
  exact ⟨hchooses.isNearest hdenominator (Nat.zero_mul _) fun _ => rfl,
    (hchooses.overflows_iff hdenominator).not.2 (by omega)⟩

theorem limit_le {power : Nat} (h : 310 ≤ power) : limit ≤ 10 ^ power * unitsPerOne := by
  obtain ⟨top, htop, hlimit⟩ := exists_limit_eq
  obtain ⟨one, hone, hunits⟩ := exists_unitsPerOne_eq
  obtain ⟨below, rfl⟩ : ∃ below, top = below + one := ⟨970, by omega⟩
  have hsmall : (2 ^ 54 - 1) * 2 ^ below ≤ 10 ^ power := by
    obtain ⟨least, hleast, hle⟩ : ∃ least, least = 310 ∧ (2 ^ 54 - 1) * 2 ^ below ≤ 10 ^ least := by
      rw [show below = 970 by omega]
      exact ⟨310, rfl, by decide +kernel⟩
    exact hle.trans (Nat.pow_le_pow_right (by decide) (hleast ▸ h))
  rw [hlimit, hunits, Nat.pow_add, ← Nat.mul_assoc]
  exact Nat.mul_le_mul_right (2 ^ one) hsmall

theorem two_mul_unitsPerOne_le {power : Nat} (h : 330 ≤ power) :
    2 * unitsPerOne ≤ 10 ^ power := by
  obtain ⟨least, hleast, hle⟩ : ∃ least, least = 330 ∧ 2 * unitsPerOne ≤ 10 ^ least := by
    rw [unitsPerOne_eq, ← Nat.pow_succ']
    exact ⟨330, rfl, by decide +kernel⟩
  exact hle.trans (Nat.pow_le_pow_right (by decide) (hleast ▸ h))

end Magnitude

/-! ## Numerals -/

namespace Double

variable {numeral : Text.DecimalNumeral} {x : Double}

/-- The number that a numeral denotes without its sign, in units: the numerator. -/
def numeratorOf (numeral : Text.DecimalNumeral) : Nat :=
  numeral.digits * 10 ^ numeral.exponent.toNat * Magnitude.unitsPerOne

/-- The number that a numeral denotes without its sign, in units: the denominator. -/
def denominatorOf (numeral : Text.DecimalNumeral) : Nat := 10 ^ (-numeral.exponent).toNat

/-- The double that a numeral is rounded to: with its sign, the nearest one or an infinity. -/
inductive Rounds (numeral : Text.DecimalNumeral) : Double → Prop
  | finite (m : Magnitude)
      (least : m.IsNearest (numeratorOf numeral) (denominatorOf numeral))
      (fits : ¬ Magnitude.Overflows (numeratorOf numeral) (denominatorOf numeral)) :
      Rounds numeral (.finite numeral.negative m)
  | infinite (overflows : Magnitude.Overflows (numeratorOf numeral) (denominatorOf numeral)) :
      Rounds numeral (.infinite numeral.negative)

/-- A numeral is rounded to one double. -/
theorem Rounds.unique {y : Double} (hx : Rounds numeral x) (hy : Rounds numeral y) : x = y := by
  cases hx with
  | finite m hleast hfits =>
      cases hy with
      | finite other hother _ => rw [hleast.unique hother]
      | infinite hover => exact absurd hover hfits
  | infinite hover =>
      cases hy with
      | finite _ _ hfits => exact absurd hover hfits
      | infinite _ => rfl

theorem denominatorOf_pos (numeral : Text.DecimalNumeral) : 0 < denominatorOf numeral :=
  Nat.pow_pos (by decide)

/-- A numeral that is small for its size alone is at most half a unit. -/
theorem two_mul_numeratorOf_le
    (h : numeral.digits = 0 ∨ numeral.exponent + digitCount numeral.digits < -330) :
    2 * numeratorOf numeral ≤ denominatorOf numeral := by
  obtain ⟨negative, digits, exponent⟩ := numeral
  simp only [numeratorOf, denominatorOf] at *
  rcases h with rfl | hsmall
  · simp
  · have hdigits : digits < 10 ^ digitCount digits :=
      (Magnitude.digitCount_le_iff (Magnitude.digitCount_pos digits)).1 le_rfl
    obtain ⟨power, hpower, hlarge⟩ : ∃ power,
        (-exponent).toNat = digitCount digits + power ∧ 330 ≤ power :=
      ⟨(-exponent).toNat - digitCount digits, by omega, by omega⟩
    have hnone : exponent.toNat = 0 := by omega
    rw [hnone, hpower, Nat.pow_zero, Nat.mul_one, Nat.pow_add, Nat.mul_left_comm]
    exact Nat.mul_le_mul hdigits.le (Magnitude.two_mul_unitsPerOne_le hlarge)

/-- A numeral that is large for its size alone overflows. -/
theorem overflows_of_size (hdigits : numeral.digits ≠ 0)
    (h : 310 < numeral.exponent + digitCount numeral.digits) :
    Magnitude.Overflows (numeratorOf numeral) (denominatorOf numeral) := by
  obtain ⟨negative, digits, exponent⟩ := numeral
  simp only [numeratorOf, denominatorOf, Magnitude.Overflows] at *
  have hcount := Magnitude.digitCount_pos digits
  have hlarge : 10 ^ (digitCount digits - 1) ≤ digits := by
    rcases Nat.eq_zero_or_pos (digitCount digits - 1) with hone | hpos
    · rw [hone]
      omega
    · exact Nat.not_lt.1 fun hless => by
        have hle := (Magnitude.digitCount_le_iff hpos).2 hless
        omega
  obtain ⟨power, hpower, hleast⟩ : ∃ power,
      digitCount digits - 1 + exponent.toNat = power + (-exponent).toNat ∧ 310 ≤ power :=
    ⟨digitCount digits - 1 + exponent.toNat - (-exponent).toNat, by omega, by omega⟩
  calc Magnitude.limit * 10 ^ (-exponent).toNat
      ≤ 10 ^ power * Magnitude.unitsPerOne * 10 ^ (-exponent).toNat :=
        Nat.mul_le_mul_right _ (Magnitude.limit_le hleast)
    _ = 10 ^ (power + (-exponent).toNat) * Magnitude.unitsPerOne := by
        rw [Nat.pow_add, Nat.mul_right_comm]
    _ = 10 ^ (digitCount digits - 1) * 10 ^ exponent.toNat * Magnitude.unitsPerOne := by
        rw [← hpower, Nat.pow_add]
    _ ≤ digits * 10 ^ exponent.toNat * Magnitude.unitsPerOne :=
        Nat.mul_le_mul_right _ (Nat.mul_le_mul_right _ hlarge)

/-- The quotient that a numeral is rounded from, unless its size alone decides. -/
theorem ofNumeral_eq (numeral : Text.DecimalNumeral) : ofNumeral numeral =
    if numeral.digits = 0 ∨ numeral.exponent + digitCount numeral.digits < -330 then
      finite numeral.negative .zero
    else if 310 < numeral.exponent + digitCount numeral.digits then infinite numeral.negative
    else ofQuotient numeral.negative (numeratorOf numeral) (denominatorOf numeral) := by
  unfold numeratorOf denominatorOf ofNumeral
  exact ofDecimal_eq numeral.negative numeral.digits numeral.exponent

/-- A quotient of units is read as the nearest double with the sign, or as an infinity. -/
theorem ofQuotient_cases (negative : Bool) (numerator : Nat) {denominator : Nat}
    (hdenominator : 0 < denominator) :
    (∃ m, ofQuotient negative numerator denominator = .finite negative m ∧
      m.IsNearest numerator denominator ∧ ¬ Magnitude.Overflows numerator denominator) ∨
      ofQuotient negative numerator denominator = .infinite negative ∧
        Magnitude.Overflows numerator denominator := by
  rcases Magnitude.nearest_cases numerator hdenominator with
    ⟨m, hnearest, hleast, hfits⟩ | ⟨hnone, hover⟩
  · have hread : ofQuotient negative numerator denominator = .finite negative m := by
      unfold ofQuotient
      rw [hnearest]
    exact .inl ⟨m, hread, hleast, hfits⟩
  · have hread : ofQuotient negative numerator denominator = .infinite negative := by
      unfold ofQuotient
      rw [hnone]
    exact .inr ⟨hread, hover⟩

/-- A numeral is read as the double that it is rounded to. -/
theorem rounds_ofNumeral (numeral : Text.DecimalNumeral) :
    Rounds numeral (ofNumeral numeral) := by
  rw [ofNumeral_eq]
  split
  · rename_i hsmall
    obtain ⟨hleast, hfits⟩ := Magnitude.isNearest_zero (denominatorOf_pos numeral)
      (two_mul_numeratorOf_le hsmall)
    exact .finite _ hleast hfits
  rename_i hsmall
  split
  · rename_i hlarge
    exact .infinite (overflows_of_size (fun hzero => hsmall (.inl hzero)) hlarge)
  · rcases ofQuotient_cases numeral.negative (numeratorOf numeral) (denominatorOf_pos numeral)
      with ⟨m, hread, hleast, hfits⟩ | ⟨hread, hover⟩
    · rw [hread]
      exact .finite m hleast hfits
    · rw [hread]
      exact .infinite hover

/-- A numeral is read as the nearest double: what it is rounded to, and nothing else. -/
theorem rounds_iff : Rounds numeral x ↔ ofNumeral numeral = x :=
  ⟨(rounds_ofNumeral numeral).unique, fun h => h ▸ rounds_ofNumeral numeral⟩

end Double

end StageChain
