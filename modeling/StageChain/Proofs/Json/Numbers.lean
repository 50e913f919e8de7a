import StageChain.Json.Reader
import StageChain.Json.Writer
import StageChain.Proofs.Double.Layout

/-!
# Numbers are read back

What is written for an integer is read as that integer, and what is written for a finite double as
that double, whatever follows, as long as it does not go on with the number.
-/

namespace StageChain.Json

open Text Decimal

variable {dialect : Dialect} {negative : Bool} {chars rest whole places : List Char} {power : Int}

/-- Nothing that follows goes on with a number. -/
def EndsNumber (rest : List Char) : Prop :=
  ∀ c, rest.head? = some c → isAsciiDigit c = false ∧ c ≠ '.' ∧ c ≠ 'e' ∧ c ≠ 'E'

theorem EndsNumber.nil : EndsNumber [] := by simp [EndsNumber]

/-- Separators end a number. -/
theorem EndsNumber.cons {c : Char}
    (h : isAsciiDigit c = false ∧ c ≠ '.' ∧ c ≠ 'e' ∧ c ≠ 'E') : EndsNumber (c :: rest) := by
  intro other hother
  obtain rfl : c = other := Option.some.inj hother
  exact h

/-! ## Parts of numbers -/

theorem readWhole_append (hwhole : IsWhole whole)
    (hrest : ∀ c, rest.head? = some c → isAsciiDigit c = false) :
    readWhole (whole ++ rest) = some (whole, rest) := by
  rcases hwhole.leading with rfl | hhead
  · rfl
  · unfold readWhole
    split
    · rename_i after hzero
      have hfirst := congrArg List.head? hzero
      rw [List.head?_append_of_ne_nil _ hwhole.ne_nil] at hfirst
      exact absurd hfirst hhead
    · rw [takeWhile_append_of_head hwhole.isDigit hrest,
        dropWhile_append_of_head hwhole.isDigit hrest]
      cases whole with
      | nil => exact absurd rfl hwhole.ne_nil
      | cons first more => rfl

theorem readFraction_append (hplaces : ∀ c ∈ places, isAsciiDigit c = true) (hne : places ≠ [])
    (hrest : ∀ c, rest.head? = some c → isAsciiDigit c = false) :
    readFraction ('.' :: (places ++ rest)) = some (places, rest) := by
  rw [readFraction, takeWhile_append_of_head hplaces hrest,
    dropWhile_append_of_head hplaces hrest]
  cases places with
  | nil => exact absurd rfl hne
  | cons first more => rfl

theorem readFraction_eq_none (h : chars.head? ≠ some '.') : readFraction chars = none := by
  unfold readFraction
  split
  · exact absurd rfl h
  · rfl

/-- The digits of an exponent, of which there are at least two. -/
def exponentDigits (power : Int) : List Char :=
  let digits := Nat.toDigits 10 power.natAbs
  if digits.length < 2 then '0' :: digits else digits

theorem isDigit_exponentDigits {c : Char} (h : c ∈ exponentDigits power) :
    isAsciiDigit c = true := by
  simp only [exponentDigits] at h
  split at h
  · rcases List.mem_cons.1 h with rfl | h
    · rfl
    · exact isAsciiDigit_of_mem_toDigits h
  · exact isAsciiDigit_of_mem_toDigits h

theorem exponentDigits_ne_nil (power : Int) : exponentDigits power ≠ [] := by
  simp only [exponentDigits]
  split
  · exact List.cons_ne_nil _ _
  · exact Nat.toDigits_ne_nil

theorem digitsValue_exponentDigits (power : Int) :
    digitsValue (exponentDigits power) = power.natAbs := by
  simp only [exponentDigits]
  split
  · have hzero := digitsValue_zeros_append 1 (Nat.toDigits 10 power.natAbs)
    rwa [digitsValue_toDigits] at hzero
  · exact digitsValue_toDigits _

theorem readExponent_append (hrest : ∀ c, rest.head? = some c → isAsciiDigit c = false) :
    readExponent (exponentText power ++ rest) = some (power, rest) := by
  have hsign : splitSign ((if power < 0 then '-' else '+') :: exponentDigits power ++ rest) =
      (decide (power < 0), exponentDigits power ++ rest) := by
    by_cases hnegative : power < 0
    · rw [if_pos hnegative, decide_eq_true hnegative]
      rfl
    · rw [if_neg hnegative, decide_eq_false hnegative]
      rfl
  have htext : exponentText power ++ rest =
      'e' :: ((if power < 0 then '-' else '+') :: exponentDigits power ++ rest) := rfl
  rw [htext, readExponent, if_pos (.inl rfl), hsign]
  simp only [takeWhile_append_of_head (fun c hc => isDigit_exponentDigits hc) hrest,
    dropWhile_append_of_head (fun c hc => isDigit_exponentDigits hc) hrest]
  cases hdigits : exponentDigits power with
  | nil => exact absurd hdigits (exponentDigits_ne_nil power)
  | cons first more =>
      simp only
      rw [← hdigits, digitsValue_exponentDigits, signed_natAbs]

theorem readExponent_eq_none (h : EndsNumber rest) : readExponent rest = none := by
  unfold readExponent
  split
  · rename_i mark after
    obtain ⟨-, -, hlower, hupper⟩ := h mark rfl
    rw [if_neg (by simp [hlower, hupper])]
  · rfl

/-! ## Whole numbers and doubles -/

/-- How a number is read whose part before the point is known. -/
theorem readUnsigned_eq (hwhole : readWhole chars = some (whole, rest)) :
    readUnsigned dialect negative chars =
      (let fraction := readFraction rest
      let (places, afterPlaces) := fraction.getD ([], rest)
      let exponent := readExponent afterPlaces
      let (power, rest) := exponent.getD (0, afterPlaces)
      if fraction.isSome || exponent.isSome then
        .ok (.float (Double.ofDecimal negative (digitsValue (whole ++ places))
          (power - places.length)), rest)
      else (wholeNumber dialect negative whole).map fun n => (.int n, rest)) := by
  simp only [readUnsigned, hwhole, expect, bind, Except.bind, Except.map]

theorem readUnsigned_whole (hwhole : IsWhole whole) (hrest : EndsNumber rest) :
    readUnsigned dialect negative (whole ++ rest) =
      (wholeNumber dialect negative whole).map fun n => (.int n, rest) := by
  have hdigit : ∀ c, rest.head? = some c → isAsciiDigit c = false := fun c hc => (hrest c hc).1
  have hpoint : readFraction rest = none := readFraction_eq_none fun hc => (hrest _ hc).2.1 rfl
  simp only [readUnsigned_eq (readWhole_append hwhole hdigit), hpoint, Option.getD_none,
    readExponent_eq_none hrest]
  rfl

theorem readUnsigned_written {value : Nat} {exponent : Int} (h : Written chars value exponent)
    (hrest : EndsNumber rest) :
    readUnsigned dialect negative (chars ++ rest) =
      .ok (.float (Double.ofDecimal negative value exponent), rest) := by
  have hdigit : ∀ c, rest.head? = some c → isAsciiDigit c = false := fun c hc => (hrest c hc).1
  cases h with
  | places whole places hwhole hplaces hne =>
      have hread : readWhole (whole ++ '.' :: (places ++ rest)) =
          some (whole, '.' :: (places ++ rest)) :=
        readWhole_append hwhole (by simp [isAsciiDigit])
      rw [List.append_assoc, List.cons_append, readUnsigned_eq hread]
      simp [readFraction_append hplaces hne hdigit, readExponent_eq_none hrest]
  | power whole _ hwhole =>
      have hmark : ∀ c, (exponentText exponent ++ rest).head? = some c → c = 'e' := by
        intro c hc
        exact (Option.some.inj hc).symm
      have hread : readWhole (whole ++ (exponentText exponent ++ rest)) =
          some (whole, exponentText exponent ++ rest) :=
        readWhole_append hwhole fun c hc => by rw [hmark c hc]; rfl
      have hpoint : readFraction (exponentText exponent ++ rest) = none :=
        readFraction_eq_none fun hc => absurd (hmark _ hc) (by decide)
      rw [List.append_assoc, readUnsigned_eq hread]
      simp [hpoint, readExponent_append hdigit]
  | placesPower whole places power hwhole hplaces hne =>
      have hread : readWhole (whole ++ '.' :: (places ++ (exponentText power ++ rest))) =
          some (whole, '.' :: (places ++ (exponentText power ++ rest))) :=
        readWhole_append hwhole (by simp [isAsciiDigit])
      have hplacesRead : readFraction ('.' :: (places ++ (exponentText power ++ rest))) =
          some (places, exponentText power ++ rest) :=
        readFraction_append hplaces hne fun c hc => by
          rw [← Option.some.inj hc]
          rfl
      simp only [List.append_assoc, List.cons_append]
      rw [readUnsigned_eq hread]
      simp [hplacesRead, readExponent_append hdigit]

/-! ## Numbers with their signs -/

theorem readNumber_minus (rest : List Char) :
    readNumber dialect ('-' :: rest) = readUnsigned dialect true rest := rfl

/-- A number that starts with a digit has no sign. -/
theorem readNumber_of_isWhole (dialect : Dialect) (hwhole : IsWhole whole) (rest : List Char) :
    readNumber dialect (whole ++ rest) = readUnsigned dialect false (whole ++ rest) := by
  unfold readNumber
  split
  · rename_i after hminus
    have hfirst := congrArg List.head? hminus
    rw [List.head?_append_of_ne_nil _ hwhole.ne_nil] at hfirst
    exact absurd (hwhole.isDigit _ (List.mem_of_head? hfirst)) (by decide)
  · rfl

/-- An integer is read from its digits, however many there are. -/
theorem readNumber_integerChars (hunlimited : dialect.limited = false) (n : Int)
    (hrest : EndsNumber rest) :
    readNumber dialect (integerChars n ++ rest) = .ok (.int n, rest) := by
  have hwhole := isWhole_toDigits n.natAbs
  have hnumber : ∀ negative, wholeNumber dialect negative (Nat.toDigits 10 n.natAbs) =
      .ok (signed negative n.natAbs) := by
    intro negative
    rw [wholeNumber, if_neg (by simp [hunlimited]), digitsValue_toDigits]
  have hsigned := signed_natAbs n
  unfold integerChars
  split
  · rename_i hnegative
    rw [decide_eq_true hnegative] at hsigned
    rw [List.cons_append, readNumber_minus, readUnsigned_whole hwhole hrest, hnumber, hsigned]
    rfl
  · rename_i hnegative
    rw [decide_eq_false hnegative] at hsigned
    rw [readNumber_of_isWhole dialect hwhole, readUnsigned_whole hwhole hrest, hnumber, hsigned]
    rfl

/-- A form of a numeral starts with its whole part. -/
theorem exists_isWhole_of_written {value : Nat} {exponent : Int}
    (h : Written chars value exponent) : ∃ whole after, IsWhole whole ∧ chars = whole ++ after := by
  cases h with
  | places whole places hwhole | power whole _ hwhole => exact ⟨whole, _, hwhole, rfl⟩
  | placesPower whole places power hwhole =>
      exact ⟨whole, _, hwhole, List.append_assoc _ _ _⟩

/-- A finite double is read from its text. -/
theorem readNumber_chars (negative : Bool) (m : Magnitude) (hrest : EndsNumber rest) :
    readNumber dialect ((Double.finite negative m).chars ++ rest) =
      .ok (.float (.finite negative m), rest) := by
  obtain ⟨value, exponent, hwritten, hvalue⟩ := denotes_render m.shortest
  have hread : ∀ negative, readUnsigned dialect negative
      (m.shortest.render Double.fullLayout ++ rest) = .ok (.float (.finite negative m), rest) := by
    intro negative
    rw [readUnsigned_written hwritten hrest, hvalue, Double.ofDecimal_shortest]
  cases negative with
  | true => exact hread true
  | false =>
      obtain ⟨whole, after, hwhole, hchars⟩ := exists_isWhole_of_written hwritten
      have hunsigned := readNumber_of_isWhole dialect hwhole (after ++ rest)
      rw [← List.append_assoc, ← hchars] at hunsigned
      exact hunsigned.trans (hread false)

/-! ## How numbers start -/

/-- A text starts with a digit, or with a minus and a digit. -/
inductive StartsNumber : List Char → Prop where
  | digit {c : Char} (rest : List Char) : isAsciiDigit c = true → StartsNumber (c :: rest)
  | minus {c : Char} (rest : List Char) : isAsciiDigit c = true → StartsNumber ('-' :: c :: rest)

theorem StartsNumber.append (h : StartsNumber chars) (rest : List Char) :
    StartsNumber (chars ++ rest) := by
  cases h with
  | digit after hdigit => exact .digit _ hdigit
  | minus after hdigit => exact .minus _ hdigit

theorem startsNumber_of_isWhole (hwhole : IsWhole whole) (negative : Bool) (rest : List Char) :
    StartsNumber (Double.signedText negative (whole ++ rest)) := by
  cases whole with
  | nil => exact absurd rfl hwhole.ne_nil
  | cons c after =>
      have hdigit := hwhole.isDigit c List.mem_cons_self
      cases negative with
      | true => exact .minus _ hdigit
      | false => exact .digit _ hdigit

theorem startsNumber_integerChars (n : Int) : StartsNumber (integerChars n) := by
  have hstart := startsNumber_of_isWhole (isWhole_toDigits n.natAbs) (n < 0) []
  rw [List.append_nil] at hstart
  unfold integerChars
  split <;> simpa [Double.signedText, *] using hstart

theorem startsNumber_chars (negative : Bool) (m : Magnitude) :
    StartsNumber (Double.finite negative m).chars := by
  obtain ⟨value, exponent, hwritten, -⟩ := denotes_render m.shortest
  obtain ⟨whole, after, hwhole, hchars⟩ := exists_isWhole_of_written hwritten
  have hstart := startsNumber_of_isWhole hwhole negative after
  rwa [← hchars] at hstart

end StageChain.Json
