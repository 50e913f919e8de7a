import StageChain.Stage.Amount

/-!
# Overlong amounts

A text of digits alone is trimmed to itself and has no sign, so one that has more digits than are
read is refused as overlong, whatever its value: as a typed value, `Literal.coerce_of_overlong`, and
as an amount, `Amount.compile_of_overlong`.
-/

namespace StageChain

namespace Text

variable {chars digits : List Char}

theorem isBlank_of_isAsciiDigit {c : Char} (h : isAsciiDigit c = true) : isBlank c = false := by
  simp only [isAsciiDigit, Bool.and_eq_true, decide_eq_true_eq] at h
  simp only [isBlank, Bool.or_eq_false_iff, Bool.and_eq_false_iff, decide_eq_false_iff_not,
    beq_eq_false_iff_ne]
  omega

/-- Characters without blanks are left as they are. -/
theorem trimChars_of_forall (h : ∀ c ∈ chars, isBlank c = false) : trimChars chars = chars :=
  trimChars_eq_self (fun c hc => h c (List.mem_of_head? hc))
    fun c hc => h c (List.mem_of_getLast? hc)

/-- Digits alone have no sign. -/
theorem splitSign_of_forall (h : ∀ c ∈ digits, isAsciiDigit c = true) :
    splitSign digits = (false, digits) := by
  unfold splitSign
  split
  · exact absurd (h '-' (List.mem_cons_self ..)) (by decide)
  · exact absurd (h '+' (List.mem_cons_self ..)) (by decide)
  · rfl

theorem isIntegerChars_of_forall (hdigits : ∀ c ∈ digits, isAsciiDigit c = true)
    (hnonempty : digits ≠ []) : isIntegerChars digits = true := by
  rw [isIntegerChars, splitSign_of_forall hdigits, isDigits, Bool.and_eq_true, List.all_eq_true]
  exact ⟨by simpa using hnonempty, hdigits⟩

theorem readInteger_of_overlong (hdigits : ∀ c ∈ digits, isAsciiDigit c = true)
    (hlong : maxDigits < digits.length) : readInteger digits = .error ⟨digits.length⟩ := by
  rw [readInteger, readDigits, splitSign_of_forall hdigits, if_neg (Nat.not_le.2 hlong)]

theorem ne_nil_of_overlong (hlong : maxDigits < digits.length) : digits ≠ [] := by
  rintro rfl
  exact absurd hlong (by decide)

end Text

/-- A typed value with more digits than are read is refused as overlong. -/
theorem Literal.coerce_of_overlong {digits : List Char}
    (hdigits : ∀ c ∈ digits, Text.isAsciiDigit c = true) (hlong : Text.maxDigits < digits.length) :
    Literal.coerce (.text (String.ofList digits)) = .error ⟨digits.length⟩ := by
  have htrim : Text.trimChars digits = digits :=
    Text.trimChars_of_forall fun c hc => Text.isBlank_of_isAsciiDigit (hdigits c hc)
  have hinteger := Text.isIntegerChars_of_forall hdigits (Text.ne_nil_of_overlong hlong)
  rw [coerce, coerceText, number, numberOfChars, String.toList_ofList, htrim, if_pos hinteger,
    Text.readInteger_of_overlong hdigits hlong]
  rfl

/-- An amount with more digits than are read is refused as overlong. -/
theorem Amount.compile_of_overlong (key : String) {digits : List Char}
    (hdigits : ∀ c ∈ digits, Text.isAsciiDigit c = true) (hlong : Text.maxDigits < digits.length) :
    Amount.compile key (.object [(key, .text (String.ofList digits))]) =
      .error (.overlong ⟨digits.length⟩) := by
  have hnonempty := Text.ne_nil_of_overlong hlong
  have htrim : Text.trimChars digits = digits :=
    Text.trimChars_of_forall fun c hc => Text.isBlank_of_isAsciiDigit (hdigits c hc)
  have hinteger := Text.isIntegerChars_of_forall hdigits hnonempty
  have hread := Text.readInteger_of_overlong hdigits hlong
  have hempty : (String.ofList digits).isEmpty = false := by simp [hnonempty]
  have hrefused : Amount.integerOf key (.text (String.ofList digits)) =
      .error (.overlong ⟨digits.length⟩) := by
    simp only [Amount.integerOf, hempty, String.toList_ofList, htrim, hinteger, if_true, hread]
    rfl
  have hfield : Value.field [(key, .text (String.ofList digits))] key =
      .text (String.ofList digits) := by
    simp [Value.field, Entries.get?]
  show (Amount.integerOf key (Value.field [(key, .text (String.ofList digits))] key)).bind _ = _
  rw [hfield, hrefused]
  rfl

end StageChain
