import Mathlib.Data.List.TakeWhile
import StageChain.Proofs.Text.Digits

/-!
# The grammar of numerals

An integer is written as an optional sign and ASCII digits, `IntegerForm`. A decimal numeral is
written as an optional sign, ASCII digits with at most one point before, among or after them, and an
optional power of ten, `DecimalForm`. The readers accept exactly what is written so:
`integerForm_iff` and `scanDecimal_eq_some_iff`.
-/

namespace StageChain.Text

/-! ## Forms -/

/-- What stands in front of a number for its sign: nothing, a plus or a minus. -/
inductive SignForm : List Char → Bool → Prop where
  | none : SignForm [] false
  | plus : SignForm ['+'] false
  | minus : SignForm ['-'] true

/-- The characters are one or more ASCII digits. -/
def AreDigits (chars : List Char) : Prop := chars ≠ [] ∧ ∀ c ∈ chars, isAsciiDigit c = true

/-- The characters are an optional sign and ASCII digits. -/
inductive IntegerForm : List Char → (negative : Bool) → (digits : List Char) → Prop where
  | intro {sign digits : List Char} {negative : Bool} :
      SignForm sign negative → AreDigits digits → IntegerForm (sign ++ digits) negative digits

/-- The characters are digits with at most one point, given the digits before and after it. -/
inductive MantissaForm : List Char → (whole fraction : List Char) → Prop where
  | whole {digits : List Char} : AreDigits digits → MantissaForm digits digits []
  | point {whole fraction : List Char} :
      AreDigits whole → (∀ c ∈ fraction, isAsciiDigit c = true) →
      MantissaForm (whole ++ '.' :: fraction) whole fraction
  | bare {fraction : List Char} : AreDigits fraction → MantissaForm ('.' :: fraction) [] fraction

/-- The characters name a power of ten: nothing, or an `e` of either case and an integer. -/
inductive PowerForm : List Char → (power : Int) → Prop where
  | none : PowerForm [] 0
  | exponent {mark : Char} {chars digits : List Char} {negative : Bool} :
      mark = 'e' ∨ mark = 'E' → IntegerForm chars negative digits →
      PowerForm (mark :: chars) (signed negative (digitsValue digits))

/-- The characters write a numeral. -/
inductive DecimalForm : List Char → DecimalNumeral → Prop where
  | intro {sign body whole fraction tail : List Char} {negative : Bool} {power : Int} :
      SignForm sign negative → MantissaForm body whole fraction → PowerForm tail power →
      DecimalForm (sign ++ (body ++ tail))
        ⟨negative, digitsValue (whole ++ fraction), power - fraction.length⟩

variable {chars rest sign digits body tail whole fraction : List Char} {negative : Bool}
  {power : Int} {numeral : DecimalNumeral}

/-! ## Signs and integers -/

/-- What is taken off for a sign is one. -/
theorem exists_signForm (chars : List Char) :
    ∃ sign, SignForm sign (splitSign chars).1 ∧ chars = sign ++ (splitSign chars).2 := by
  unfold splitSign
  split
  · exact ⟨['-'], .minus, rfl⟩
  · exact ⟨['+'], .plus, rfl⟩
  · exact ⟨[], .none, rfl⟩

/-- A sign is taken off from what does not start with another one. -/
theorem splitSign_append (hsign : SignForm sign negative)
    (hrest : ∀ c, rest.head? = some c → c ≠ '-' ∧ c ≠ '+') :
    splitSign (sign ++ rest) = (negative, rest) := by
  cases hsign with
  | minus | plus => rfl
  | none =>
      rw [List.nil_append]
      unfold splitSign
      split
      · exact absurd rfl (hrest '-' rfl).1
      · exact absurd rfl (hrest '+' rfl).2
      · rfl

theorem ne_of_isAsciiDigit {c mark : Char} (h : isAsciiDigit c = true)
    (hmark : isAsciiDigit mark = false) : c ≠ mark := by
  rintro rfl
  exact absurd (h.symm.trans hmark) (by decide)

theorem AreDigits.head (h : AreDigits digits) (rest : List Char) :
    ∀ c, (digits ++ rest).head? = some c → isAsciiDigit c = true := by
  obtain ⟨hne, hall⟩ := h
  cases digits with
  | nil => exact absurd rfl hne
  | cons first digits =>
      intro c hc
      exact hall c (Option.some.inj hc ▸ List.mem_cons_self)

theorem areDigits_iff : AreDigits digits ↔ isDigits digits = true := by
  rw [AreDigits, isDigits, Bool.and_eq_true, List.all_eq_true]
  exact and_congr_left' (by simp)

/-- Digits have no sign in front. -/
theorem AreDigits.head_ne (h : AreDigits digits) (rest : List Char) :
    ∀ c, (digits ++ rest).head? = some c → c ≠ '-' ∧ c ≠ '+' := fun c hc =>
  have hdigit := h.head rest c hc
  ⟨ne_of_isAsciiDigit hdigit (by decide), ne_of_isAsciiDigit hdigit (by decide)⟩

/-- Integers are recognized, with their signs and digits. -/
theorem integerForm_iff :
    IntegerForm chars negative digits ↔
      isIntegerChars chars = true ∧ splitSign chars = (negative, digits) := by
  rw [isIntegerChars, ← areDigits_iff]
  constructor
  · rintro ⟨hsign, hdigits⟩
    have hhead := hdigits.head_ne []
    rw [List.append_nil] at hhead
    rw [splitSign_append hsign hhead]
    exact ⟨hdigits, rfl⟩
  · rintro ⟨hdigits, hsplit⟩
    obtain ⟨sign, hsign, hchars⟩ := exists_signForm chars
    rw [hsplit] at hdigits hsign hchars
    rw [hchars]
    exact .intro hsign hdigits

/-- The characters write an integer. -/
def WritesInteger (chars : List Char) (n : Int) : Prop :=
  ∃ negative digits, IntegerForm chars negative digits ∧ n = signed negative (digitsValue digits)

theorem writesInteger_iff {n : Int} :
    WritesInteger chars n ↔ isIntegerChars chars = true ∧ integerValue chars = n := by
  constructor
  · rintro ⟨negative, digits, hform, rfl⟩
    obtain ⟨hinteger, hsplit⟩ := integerForm_iff.1 hform
    exact ⟨hinteger, by rw [integerValue, hsplit]⟩
  · rintro ⟨hinteger, rfl⟩
    exact ⟨_, _, integerForm_iff.2 ⟨hinteger, rfl⟩, rfl⟩

/-- The characters write an integer with more digits than are read. -/
def IsOverlong (chars : List Char) (numeral : OverlongNumeral) : Prop :=
  ∃ negative digits, IntegerForm chars negative digits ∧ maxDigits < digits.length ∧
    numeral = ⟨digits.length⟩

theorem isOverlong_iff {numeral : OverlongNumeral} :
    IsOverlong chars numeral ↔
      isIntegerChars chars = true ∧ readInteger chars = .error numeral := by
  constructor
  · rintro ⟨negative, digits, hform, hlong, rfl⟩
    obtain ⟨hinteger, hsplit⟩ := integerForm_iff.1 hform
    refine ⟨hinteger, ?_⟩
    rw [readInteger, hsplit, readDigits, if_neg (Nat.not_le.2 hlong)]
  · rintro ⟨hinteger, hread⟩
    refine ⟨_, _, integerForm_iff.2 ⟨hinteger, rfl⟩, ?_⟩
    rw [readInteger, readDigits] at hread
    split at hread
    · cases hread
    · rename_i hlong
      exact ⟨Nat.not_le.1 hlong, (Except.error.inj hread).symm⟩

/-- An integer that is not overlong is read. -/
theorem readInteger_eq_ok (hinteger : isIntegerChars chars = true)
    (hread : ∀ numeral, ¬ IsOverlong chars numeral) :
    readInteger chars = .ok (integerValue chars) := by
  cases hresult : readInteger chars with
  | error numeral => exact absurd (isOverlong_iff.2 ⟨hinteger, hresult⟩) (hread numeral)
  | ok n =>
      rw [readInteger, readDigits] at hresult
      split at hresult
      · rw [← hresult]
        rfl
      · cases hresult

theorem exponentPart?_eq_some_iff : exponentPart? chars = some power ↔ PowerForm chars power := by
  constructor
  · intro h
    cases chars with
    | nil =>
        cases h
        exact .none
    | cons mark rest =>
        rw [exponentPart?] at h
        split at h
        · rename_i hmark
          cases h
          exact .exponent hmark.1 (integerForm_iff.2 ⟨hmark.2, rfl⟩)
        · cases h
  · intro h
    cases h with
    | none => rfl
    | exponent hmark hinteger =>
        obtain ⟨hrest, hsplit⟩ := integerForm_iff.1 hinteger
        rw [exponentPart?, if_pos ⟨hmark, hrest⟩, integerValue, hsplit]

/-! ## Decimal numerals -/

/-- A power of ten goes on with no digit and no point. -/
theorem PowerForm.head (h : PowerForm tail power) :
    ∀ c, tail.head? = some c → isAsciiDigit c = false ∧ c ≠ '.' := by
  intro c hc
  cases h with
  | none => cases hc
  | exponent hmark =>
      obtain rfl := Option.some.inj hc
      rcases hmark with rfl | rfl <;> exact ⟨by decide, by decide⟩

theorem fractionPart_of_head (h : ∀ c, chars.head? = some c → c ≠ '.') :
    fractionPart chars = ([], chars) := by
  unfold fractionPart
  split
  · exact absurd rfl (h '.' rfl)
  · rfl

/-- The digits before and after the point are taken, up to the power of ten. -/
theorem MantissaForm.scan (hmantissa : MantissaForm body whole fraction)
    (hpower : PowerForm tail power) :
    (body ++ tail).takeWhile isAsciiDigit = whole ∧
      fractionPart ((body ++ tail).dropWhile isAsciiDigit) = (fraction, tail) := by
  have hdigit : ∀ c, tail.head? = some c → isAsciiDigit c = false := fun c hc =>
    (hpower.head c hc).1
  have hpoint : ∀ rest c, ('.' :: rest).head? = some c → isAsciiDigit c = false := by
    intro rest c hc
    obtain rfl := Option.some.inj hc
    decide
  cases hmantissa with
  | whole hdigits =>
      rw [takeWhile_append_of_head hdigits.2 hdigit, dropWhile_append_of_head hdigits.2 hdigit]
      exact ⟨rfl, fractionPart_of_head fun c hc => (hpower.head c hc).2⟩
  | point hwhole hfraction =>
      rw [List.append_assoc, List.cons_append, takeWhile_append_of_head hwhole.2 (hpoint _),
        dropWhile_append_of_head hwhole.2 (hpoint _), fractionPart,
        takeWhile_append_of_head hfraction hdigit, dropWhile_append_of_head hfraction hdigit]
      exact ⟨rfl, rfl⟩
  | bare hfraction =>
      have hnone : ('.' :: (fraction ++ tail)).takeWhile isAsciiDigit = [] :=
        List.takeWhile_cons_of_neg (by decide)
      have hall : ('.' :: (fraction ++ tail)).dropWhile isAsciiDigit = '.' :: (fraction ++ tail) :=
        List.dropWhile_cons_of_neg (by decide)
      rw [List.cons_append, hnone, hall, fractionPart,
        takeWhile_append_of_head hfraction.2 hdigit, dropWhile_append_of_head hfraction.2 hdigit]
      exact ⟨rfl, rfl⟩

theorem MantissaForm.head_ne (h : MantissaForm body whole fraction) (rest : List Char) :
    ∀ c, (body ++ rest).head? = some c → c ≠ '-' ∧ c ≠ '+' := by
  cases h with
  | whole hdigits => exact hdigits.head_ne rest
  | point hwhole =>
      rw [List.append_assoc]
      exact hwhole.head_ne _
  | bare =>
      intro c hc
      obtain rfl := Option.some.inj hc
      exact ⟨by decide, by decide⟩

/-- There are digits before or after the point. -/
theorem MantissaForm.isEmpty (h : MantissaForm body whole fraction) :
    (whole.isEmpty && fraction.isEmpty) = false := by
  cases h with
  | whole hdigits => simp [hdigits.1]
  | point hwhole => simp [hwhole.1]
  | bare hfraction => simp [hfraction.1]

/-- The digits around a point, if there are any, and what follows them are all characters. -/
theorem exists_mantissaForm (hwhole : ∀ c ∈ whole, isAsciiDigit c = true) (after : List Char)
    (hsome : (whole.isEmpty && (fractionPart after).1.isEmpty) = false) :
    ∃ body, MantissaForm body whole (fractionPart after).1 ∧
      whole ++ after = body ++ (fractionPart after).2 := by
  unfold fractionPart at *
  split at hsome
  · rename_i after
    have hfraction : ∀ c ∈ after.takeWhile isAsciiDigit, isAsciiDigit c = true := fun c hc =>
      List.mem_takeWhile_imp hc
    have hafter : after.takeWhile isAsciiDigit ++ after.dropWhile isAsciiDigit = after :=
      List.takeWhile_append_dropWhile
    cases whole with
    | nil =>
        refine ⟨_, .bare ⟨by simpa using hsome, hfraction⟩, ?_⟩
        rw [List.cons_append, hafter, List.nil_append]
    | cons c whole =>
        refine ⟨_, .point ⟨by simp, hwhole⟩ hfraction, ?_⟩
        simp only [List.append_assoc, List.cons_append, hafter]
  · exact ⟨whole, .whole ⟨by simpa using hsome, hwhole⟩, rfl⟩

/-- Numerals are read exactly. -/
theorem scanDecimal_eq_some_iff : scanDecimal chars = some numeral ↔ DecimalForm chars numeral := by
  constructor
  · intro h
    obtain ⟨sign, hsign, hchars⟩ := exists_signForm chars
    simp only [scanDecimal] at h
    split at h
    · cases h
    · rename_i hsome
      obtain ⟨power, hpower, rfl⟩ := Option.map_eq_some_iff.1 h
      have hdigits : ∀ c ∈ (splitSign chars).2.takeWhile isAsciiDigit, isAsciiDigit c = true :=
        fun c hc => List.mem_takeWhile_imp hc
      obtain ⟨body, hmantissa, hbody⟩ :=
        exists_mantissaForm hdigits _ (Bool.eq_false_iff.2 hsome)
      have hform := DecimalForm.intro hsign hmantissa (exponentPart?_eq_some_iff.1 hpower)
      rwa [← hbody, List.takeWhile_append_dropWhile, ← hchars] at hform
  · rintro ⟨hsign, hmantissa, hpower⟩
    rename_i sign body whole fraction tail negative power
    obtain ⟨hwhole, hfraction⟩ := hmantissa.scan hpower
    have hsplit : splitSign (sign ++ (body ++ tail)) = (negative, body ++ tail) :=
      splitSign_append hsign (hmantissa.head_ne tail)
    have hsome : (whole.isEmpty && fraction.isEmpty) = false := hmantissa.isEmpty
    simp only [scanDecimal, hsplit, hwhole, hfraction, hsome, Bool.false_eq_true, if_false,
      exponentPart?_eq_some_iff.2 hpower, Option.map_some]

end StageChain.Text
