import StageChain.Proofs.Stage.Retyping
import StageChain.Proofs.Stage.Shaping

/-!
# Computed fields, added or projected

A field can be computed by an addition or by a projection, from the same expressions. They agree,
`ParsesAlike`, if both find nothing to compute or both give the field the same value. For an
addition nothing is given if the value is null or the empty text, and for a projection also if it is
a text of blanks. So they agree exactly if the value is no such text and is read at all:
`parses_alike_iff`.
-/

namespace StageChain.Computing

variable {name : String} {value : Value} {numeral : Text.OverlongNumeral}

/-! ## Agreement -/

/-- An addition of one field. -/
def addition (name : String) (value : Value) : Value :=
  RowStage.listing [RowStage.namedRow (name, value)]

/-- A row that computes a field. -/
def computedRow (name : String) (value : Value) : Entries Value :=
  [("name", .text name), ("mode", .text "computed"), ("value", value)]

/-- A projection to one computed field. -/
def projection (name : String) (value : Value) : Value :=
  RowStage.listing [computedRow name value]

/-- The text names a field: there is something to it, and it is no reference. -/
def NamesField (name : String) : Prop :=
  Text.trim name ≠ "" ∧ Reference.isMarked (Text.trim name) = false

/-- An addition and a projection read a computed field alike: both miss the expression, or both give
the field what it is read as. -/
inductive ParsesAlike (name : String) (value : Value) : Prop where
  | missing (fault : StageFault)
      (hadded : Addition.compile (addition name value) = .error .untouched)
      (hcomputed : Projection.compile (projection name value) = .error (.invalid fault))
      (hfield : fault.field = "fields[0].value")
      (hmessage : fault.message = "computed field needs an expression")
  | parsed (typed : Value) (hread : Literal.expression value = .ok typed)
      (hadded : Addition.compile (addition name value) =
        .ok ⟨"$addFields", .object [(Text.trim name, typed)]⟩)
      (hcomputed : Projection.compile (projection name value) =
        .ok ⟨"$project", .object [(Text.trim name, typed)]⟩)

/-- The value is a text of blanks, and not the empty one. -/
def IsSpaces (value : Value) : Prop := ∃ text, value = .text text ∧ text ≠ "" ∧ Text.trim text = ""

/-- The value is a text that writes an integer with more digits than are read. -/
def IsOverlong (value : Value) (numeral : Text.OverlongNumeral) : Prop :=
  ∃ text, value = .text text ∧ Literal.IsOverlong text numeral

theorem isMissing_eq_true_iff :
    Projection.isMissing value = true ↔ value.isBlank = true ∨ IsSpaces value := by
  cases value with
  | null => exact iff_of_true rfl (.inl rfl)
  | text text =>
      have hmissing : Projection.isMissing (.text text) = true ↔ Text.trim text = "" := by
        simp [Projection.isMissing]
      have hblank : (Value.text text).isBlank = true ↔ text = "" := by simp [Value.isBlank]
      rw [hmissing, hblank]
      constructor
      · intro htrim
        by_cases hempty : text = ""
        · exact .inl hempty
        · exact .inr ⟨text, rfl, hempty, htrim⟩
      · rintro (rfl | ⟨_, hsame, -, htrim⟩)
        · decide
        · cases hsame
          exact htrim
  | _ => simp [Projection.isMissing, Value.isBlank, IsSpaces]

theorem isBlank_of_isMissing (h : Projection.isMissing value = false) : value.isBlank = false := by
  by_contra hblank
  have hmissing := isMissing_eq_true_iff.2 (.inl (eq_true_of_ne_false hblank))
  cases hmissing.symm.trans h

/-- An overlong text is an expression. -/
theorem isMissing_of_isOverlong (h : IsOverlong value numeral) :
    Projection.isMissing value = false := by
  obtain ⟨text, rfl, hlong⟩ := h
  by_contra hmissing
  have hempty : Text.trim text = "" := by simpa [Projection.isMissing] using hmissing
  have hread := Literal.expression_of_isOverlong hlong
  rw [Literal.expression, hempty] at hread
  cases (by decide : Literal.expressionText "" = .ok (.text "")).symm.trans hread

/-! ## One row -/

theorem gather_single {ρ : Type} (entry : Nat → ρ → Except Refusal (Option (String × Value)))
    (row : ρ) : Rows.gather entry 0 [row] [] = (entry 0 row).map Option.toList := by
  rw [Rows.gather_cons]
  cases entry 0 row with
  | error refusal => rfl
  | ok given => cases given <;> rfl

theorem addition_eq (name : String) (value : Value) :
    Addition.compile (addition name value) =
      ((Addition.entry (Text.trim name, value)).map Option.toList).bind
        (Rows.stageOfEntries "$addFields") := by
  have hcompile := RowStage.compile_addFields
    (RowStage.holdsRows_listing .addFields [RowStage.namedRow (name, value)])
  rw [List.map_singleton, RowStage.pairOf_namedRow, gather_single] at hcompile
  exact hcompile

theorem projection_eq (name : String) (value : Value) :
    Projection.compile (projection name value) =
      ((Projection.entry 0 (computedRow name value)).map Option.toList).bind fun fields =>
        .ok ⟨"$project", .object (Projection.complete fields)⟩ := by
  rw [← gather_single Projection.entry]
  exact Projection.compile_eq (.object _) (.listed [computedRow name value] rfl)

theorem compile_addition (h : NamesField name) (value : Value) :
    Addition.compile (addition name value) =
      if value.isBlank then .error .untouched
      else (Rows.typed (Literal.expression value)).map fun typed =>
        ⟨"$addFields", .object [(Text.trim name, typed)]⟩ := by
  obtain ⟨hnamed, hmarked⟩ := h
  have hname : (Text.trim name).isEmpty = false := by simpa using hnamed
  rw [addition_eq, Addition.entry]
  simp only [hname, hmarked, Bool.false_eq_true, if_false]
  split
  · rfl
  · cases Literal.expression value <;> rfl

theorem compile_projection (h : Text.trim name ≠ "") (value : Value) :
    Projection.compile (projection name value) =
      if Projection.isMissing value then .error (.invalid (.noExpression 0))
      else (Rows.typed (Literal.expression value)).map fun typed =>
        ⟨"$project", .object [(Text.trim name, typed)]⟩ := by
  have hlive : Projection.IsLive (computedRow name value) := h
  have hmode : Projection.modeOf (computedRow name value) = "computed" := by
    show Rows.orElse (Text.lower (Text.trim "computed")) "include" = "computed"
    decide +kernel
  have hname : Projection.nameOf (computedRow name value) = Text.trim name := rfl
  have hvalue : Value.field (computedRow name value) "value" = value := rfl
  rw [projection_eq, Projection.entry_of_computed hlive hmode, hname, hvalue]
  split
  · rfl
  · cases Literal.expression value <;> rfl

/-- A name that is a reference is refused by the addition. -/
theorem compile_addition_of_isMarked (h : Reference.isMarked (Text.trim name) = true)
    (value : Value) : Addition.compile (addition name value) =
      .error (.invalid (.nameIsReference (Text.trim name))) := by
  have hname : (Text.trim name).isEmpty = false := by
    rw [Bool.eq_false_iff, ne_eq, String.isEmpty_iff]
    intro hempty
    rw [hempty] at h
    cases h
  rw [addition_eq, Addition.entry]
  simp only [hname, h, Bool.false_eq_true, if_false, if_true]
  rfl

/-- Without a name there is no row, so that a projection keeps the identifier only. -/
theorem compile_projection_of_unnamed (h : Text.trim name = "") (value : Value) :
    Projection.compile (projection name value) = .ok ⟨"$project", .object [("_id", .int 1)]⟩ := by
  have hname : (Rows.textOf (computedRow name value) "name").isEmpty = true := by
    show (Text.trim name).isEmpty = true
    simpa using h
  rw [projection_eq, Projection.entry]
  simp only [hname, if_true]
  rfl

theorem compile_addition_of_unnamed (h : Text.trim name = "") (value : Value) :
    Addition.compile (addition name value) = .error .untouched := by
  rw [addition_eq, Addition.entry, h]
  rfl

/-! ## Where they agree -/

theorem ParsesAlike.namesField (h : ParsesAlike name value) : NamesField name := by
  constructor
  · intro hempty
    have hadded := compile_addition_of_unnamed hempty value
    have hcomputed := compile_projection_of_unnamed hempty value
    cases h with
    | missing _ _ hrefused => cases hcomputed.symm.trans hrefused
    | parsed _ _ hkept => cases hadded.symm.trans hkept
  · by_contra hmarked
    have hadded := compile_addition_of_isMarked (eq_true_of_ne_false hmarked) value
    cases h with
    | missing _ huntouched => cases hadded.symm.trans huntouched
    | parsed _ _ hkept => cases hadded.symm.trans hkept

/-- Blanks are read as the empty text by an addition, and are no expression for a projection. -/
theorem compile_of_isSpaces (hname : NamesField name) (h : IsSpaces value) :
    Addition.compile (addition name value) =
        .ok ⟨"$addFields", .object [(Text.trim name, .text "")]⟩ ∧
      Projection.compile (projection name value) = .error (.invalid (.noExpression 0)) := by
  have hmissing := isMissing_eq_true_iff.2 (.inr h)
  obtain ⟨text, rfl, hgiven, htrim⟩ := h
  have hblank : (Value.text text).isBlank = false := by simpa [Value.isBlank] using hgiven
  have hread : Literal.expression (.text text) = .ok (.text "") := by
    rw [Literal.expression, htrim]
    decide
  constructor
  · rw [compile_addition hname, hblank, hread]
    rfl
  · rw [compile_projection hname.1, hmissing]
    rfl

/-- Overlong texts are refused by both. -/
theorem compile_of_isOverlong (hname : NamesField name) (h : IsOverlong value numeral) :
    Addition.compile (addition name value) = .error (.overlong numeral) ∧
      Projection.compile (projection name value) = .error (.overlong numeral) := by
  have hread := Literal.expression_eq_error_iff.2 h
  have hgiven := isMissing_of_isOverlong h
  have hblank := isBlank_of_isMissing hgiven
  constructor
  · rw [compile_addition hname, hblank, hread]
    rfl
  · rw [compile_projection hname.1, hgiven, hread]
    rfl

/-- Blanks are not read alike. -/
theorem ParsesAlike.not_isSpaces (h : ParsesAlike name value) : ¬ IsSpaces value := by
  intro hspaces
  obtain ⟨hadded, hcomputed⟩ := compile_of_isSpaces h.namesField hspaces
  cases h with
  | missing _ huntouched => cases hadded.symm.trans huntouched
  | parsed _ _ _ hkept => cases hcomputed.symm.trans hkept

theorem ParsesAlike.not_isOverlong (h : ParsesAlike name value) : ¬ IsOverlong value numeral := by
  intro hlong
  obtain ⟨hadded, -⟩ := compile_of_isOverlong h.namesField hlong
  cases h with
  | missing _ huntouched => cases hadded.symm.trans huntouched
  | parsed _ _ hkept => cases hadded.symm.trans hkept

theorem parsesAlike (hname : NamesField name) (hspaces : ¬ IsSpaces value)
    (hread : ∀ numeral, ¬ IsOverlong value numeral) : ParsesAlike name value := by
  have hadded := compile_addition hname value
  have hcomputed := compile_projection hname.1 value
  cases hmissing : Projection.isMissing value with
  | true =>
      have hblank := (isMissing_eq_true_iff.1 hmissing).resolve_right hspaces
      rw [hblank] at hadded
      rw [hmissing] at hcomputed
      exact .missing (.noExpression 0) hadded hcomputed (by decide +kernel) rfl
  | false =>
      cases htyped : Literal.expression value with
      | error numeral => exact absurd (Literal.expression_eq_error_iff.1 htyped) (hread numeral)
      | ok typed =>
          rw [isBlank_of_isMissing hmissing, htyped] at hadded
          rw [hmissing, htyped] at hcomputed
          exact .parsed typed htyped hadded hcomputed

/-- An addition and a projection read a computed field alike exactly if the name names a field and
the value is neither a text of blanks nor overlong. Of blanks the addition makes the empty text, and
the projection misses an expression. What is overlong is refused by both. -/
theorem parses_alike_iff (name : String) (value : Value) :
    (ParsesAlike name value ↔
      NamesField name ∧ ¬ IsSpaces value ∧ ∀ numeral, ¬ IsOverlong value numeral) ∧
    (NamesField name → IsSpaces value →
      Addition.compile (addition name value) =
          .ok ⟨"$addFields", .object [(Text.trim name, .text "")]⟩ ∧
        Projection.compile (projection name value) = .error (.invalid (.noExpression 0))) ∧
    ∀ numeral, NamesField name → IsOverlong value numeral →
      Addition.compile (addition name value) = .error (.overlong numeral) ∧
        Projection.compile (projection name value) = .error (.overlong numeral) := by
  refine ⟨⟨fun h => ⟨h.namesField, h.not_isSpaces, fun _ => h.not_isOverlong⟩, ?_⟩,
    compile_of_isSpaces, fun _ => compile_of_isOverlong⟩
  rintro ⟨hname, hspaces, hread⟩
  exact parsesAlike hname hspaces hread

/-- A blank is a value for an addition, which makes the empty text of it, and none for a
projection. -/
theorem not_parsesAlike_blank :
    NamesField "total" ∧
      Addition.compile (addition "total" (.text " ")) =
        .ok ⟨"$addFields", .object [("total", .text "")]⟩ ∧
      Projection.compile (projection "total" (.text " ")) =
        .error (.invalid (.noExpression 0)) ∧
      ¬ ParsesAlike "total" (.text " ") := by
  have hname : NamesField "total" := ⟨by decide, by decide⟩
  have hspaces : IsSpaces (.text " ") := ⟨" ", rfl, by decide, by decide⟩
  obtain ⟨hadded, hcomputed⟩ := compile_of_isSpaces hname hspaces
  exact ⟨hname, hadded, hcomputed, fun h => h.not_isSpaces hspaces⟩

end StageChain.Computing
