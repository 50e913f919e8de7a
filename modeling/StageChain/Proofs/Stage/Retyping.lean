import StageChain.Proofs.Stage.Literals
import StageChain.Stage.Shape

/-!
# Typed values stay as they are

What has been typed is not changed by typing it once more, `Literal.coerce_again` at any depth of
lists and `Literal.expression_again` for expressions. What counts as nothing given does so before
and after.
-/

namespace StageChain.Literal

variable {text : String} {value typed : Value} {numeral : Text.OverlongNumeral}

/-! ## Typing again -/

/-- What is typed from a text is the text itself, or what is no text any more. -/
theorem coerceText_again (text : String) :
    Ensures (coerceText text) fun typed => coerce typed = .ok typed := by
  intro typed h
  cases (coerceText_eq_ok_iff.1 h).1 with
  | integer | double | bool => rfl
  | kept => exact h

mutual

/-- What has been typed is typed as itself. -/
theorem coerce_again : ∀ value : Value, Ensures (coerce value) fun typed => coerce typed = .ok typed
  | .text text => coerceText_again text
  | .list items => (coerceItems_again items).map fun typed htyped => by
      rw [coerce, htyped]
      rfl
  | .null | .bool _ | .int _ | .float _ | .object _ => .ok rfl

theorem coerceItems_again : ∀ items : List Value,
    Ensures (coerceItems items) fun typed => coerceItems typed = .ok typed
  | [] => .ok rfl
  | item :: items => .bind (coerce_again item) fun typed hitem =>
      .bind (coerceItems_again items) fun others hrest => .ok (by
        rw [coerceItems, hitem, hrest]
        rfl)

end

/-- An expression that has been read is read as itself. -/
theorem expression_again (value : Value) :
    Ensures (expression value) fun typed => expression typed = .ok typed := by
  cases value with
  | text text =>
      intro typed h
      cases (expression_text_eq_ok_iff.1 h).1 with
      | integer | double | bool => rfl
      | kept =>
          rw [expression, Text.trim_trim]
          exact h
  | _ => exact .ok rfl

/-! ## Nothing given -/

/-- What is typed is nothing given exactly if it was so before. -/
theorem isBlank_coerce (value : Value) :
    Ensures (coerce value) fun typed => typed.isBlank = value.isBlank := by
  cases value with
  | text text =>
      intro typed h
      by_cases hempty : text = ""
      · subst hempty
        cases h
        rfl
      · have hgiven : (Value.text text).isBlank = false := by simpa [Value.isBlank] using hempty
        rw [hgiven]
        cases (coerceText_eq_ok_iff.1 h).1 with
        | integer | double | bool => rfl
        | kept => exact hgiven
  | list items => exact Ensures.map (P := fun _ => True) (fun _ _ => trivial) fun _ _ => rfl
  | _ => exact .ok rfl

/-- An expression that is read is missing exactly if it was so before. -/
theorem isMissing_expression (value : Value) :
    Ensures (expression value) fun typed =>
      Projection.isMissing typed = Projection.isMissing value := by
  cases value with
  | text text =>
      intro typed h
      by_cases hempty : Text.trim text = ""
      · have hread : expression (.text text) = .ok (.text "") := by
          rw [expression, hempty]
          decide
        obtain rfl : .text "" = typed := Except.ok.inj (hread.symm.trans h)
        rw [Projection.isMissing, Projection.isMissing, hempty]
        rfl
      · have hgiven : Projection.isMissing (.text text) = false := by
          simpa [Projection.isMissing] using hempty
        rw [hgiven]
        cases (expression_text_eq_ok_iff.1 h).1 with
        | integer | double | bool => rfl
        | kept => simpa [Projection.isMissing, Text.trim_trim] using hempty
  | _ => exact .ok rfl

/-- Of the expressions only overlong texts are refused. -/
theorem expression_eq_error_iff :
    expression value = .error numeral ↔ ∃ text, value = .text text ∧ IsOverlong text numeral := by
  constructor
  · intro h
    cases value with
    | text text =>
        rw [expression_text] at h
        exact ⟨text, rfl, number_eq_error_iff.1 (map_eq_error_iff.1 h)⟩
    | _ => cases h
  · rintro ⟨text, rfl, hlong⟩
    exact expression_of_isOverlong hlong

end StageChain.Literal
