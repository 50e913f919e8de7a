import StageChain.Proofs.Stage.Filtering
import StageChain.Proofs.Stage.Shaping

/-!
# Configurations in either shape

Fields to add are named in an object or listed in rows, and conditions stand in a bare list or under
their key. The two shapes of a configuration compile alike, `compiles_either_shape`, and to what
`Adds` and `Filters` say: both come down to the same rows, and bare conditions are checked to be
objects as others are.
-/

namespace StageChain.EitherShape

variable {fields : Entries Value} {items : List Value} {rows : List (Entries Value)}
  {config other : Value}

/-! ## Fields to add -/

/-- Fields to add, named in an object. -/
def named (fields : Entries Value) : Value := .object [("fields", .object fields)]

/-- Fields to add, each in a row with its name and its value. -/
def listed (fields : Entries Value) : Value := RowStage.listing (fields.map RowStage.namedRow)

/-- What becomes of fields to add: their rows settle, or meet an overlong value. -/
inductive Adds (fields : Entries Value) : Except Refusal CompiledStage → Prop where
  | settled (outcome : Except Refusal CompiledStage)
      (h : RowStage.addFields.rule.Settles "$addFields" (.error .untouched)
        (fields.map RowStage.namedRow) outcome) : Adds fields outcome
  | overlong (numeral : Text.OverlongNumeral)
      (h : RowStage.addFields.rule.MeetsOverlong (fields.map RowStage.namedRow) numeral) :
      Adds fields (.error (.overlong numeral))

theorem holdsRows_named (fields : Entries Value) :
    RowStage.HoldsRows .addFields (fields.map RowStage.namedRow) (named fields) := .named rfl

theorem holdsRows_listed (fields : Entries Value) :
    RowStage.HoldsRows .addFields (fields.map RowStage.namedRow) (listed fields) :=
  RowStage.holdsRows_listing .addFields _

/-- Configurations that hold the same rows add the same fields. -/
theorem compile_eq_of_holdsRows (h : RowStage.HoldsRows .addFields rows config)
    (hother : RowStage.HoldsRows .addFields rows other) :
    Addition.compile config = Addition.compile other :=
  (RowStage.compile_addFields h).trans (RowStage.compile_addFields hother).symm

theorem adds_compile (h : RowStage.HoldsRows .addFields (fields.map RowStage.namedRow) config) :
    Adds fields (Addition.compile config) := by
  by_cases hmeets : ∃ numeral, RowStage.addFields.rule.MeetsOverlong
      (fields.map RowStage.namedRow) numeral
  · obtain ⟨numeral, hmeets⟩ := hmeets
    have hrefused : Addition.compile config = .error (.overlong numeral) :=
      (RowStage.compile_eq_overlong_iff h).2 hmeets
    rw [hrefused]
    exact .overlong numeral hmeets
  · obtain ⟨entry, hgoverns, hcompile⟩ := RowStage.exists_governs h
    have hsettles : RowStage.addFields.rule.Settles "$addFields" (.error .untouched)
        (fields.map RowStage.namedRow) (RowStage.addFields.compile config) := by
      rw [hcompile]
      exact hgoverns.settles (not_exists.1 hmeets)
    exact .settled _ hsettles

/-! ## Conditions -/

/-- Conditions under their key. -/
def keyed (items : List Value) : Value := .object [("conditions", .list items)]

/-- What becomes of conditions: the first that is no object is named, and else they settle or meet
an overlong value. -/
inductive Filters (items : List Value) : Except Refusal CompiledStage → Prop where
  | stray (index : Nat) (fault : StageFault) (hstray : Rows.IsFirstStray items index)
      (hfield : fault.field = "conditions[" ++ StageFault.decimal index ++ "]")
      (hmessage : fault.message = "expected an object") : Filters items (.error (.invalid fault))
  | settled (rows : List (Entries Value)) (outcome : Except Refusal CompiledStage)
      (hitems : items = rows.map .object) (h : Filter.Settles rows outcome) : Filters items outcome
  | overlong (rows : List (Entries Value)) (numeral : Text.OverlongNumeral)
      (hitems : items = rows.map .object) (h : Filter.MeetsOverlong rows numeral) :
      Filters items (.error (.overlong numeral))

/-- Conditions are found in either shape, or refused in both. -/
theorem conditions_keyed (items : List Value) :
    Filter.conditions (keyed items) = Filter.conditions (.list items) := rfl

theorem compile_keyed (items : List Value) :
    Filter.compile (keyed items) = Filter.compile (.list items) := by
  rw [Filter.compile, Filter.compile, conditions_keyed]

theorem filters_compile (items : List Value) : Filters items (Filter.compile (.list items)) := by
  -- All conditions are checked to be objects before the first one is looked at.
  cases hconditions : Filter.conditions (.list items) with
  | error fault =>
      obtain ⟨index, hstray, rfl⟩ := Rows.objects_eq_error_iff.1 hconditions
      rw [Filter.compile, hconditions, Nat.zero_add]
      refine .stray index _ hstray ?_ rfl
      simp [StageFault.field, StageFault.rowName, String.append_assoc]
  | ok rows =>
      have hholds := Filter.conditions_eq_ok_iff.1 hconditions
      have hitems : items = rows.map .object := Rows.objects_eq_ok_iff.1 hconditions
      by_cases hmeets : ∃ numeral, Filter.MeetsOverlong rows numeral
      · obtain ⟨numeral, hmeets⟩ := hmeets
        rw [(Filter.compile_eq_overlong_iff hholds).2 hmeets]
        exact .overlong rows numeral hitems hmeets
      · exact .settled rows _ hitems (Filter.settles_compile hholds (not_exists.1 hmeets))

/-! ## Either shape -/

/-- Fields that are named in an object are added as those in rows, and bare conditions filter as
those under their key, with the same outcome in every case. -/
theorem compiles_either_shape (fields : Entries Value) (items : List Value) :
    Addition.compile (named fields) = Addition.compile (listed fields) ∧
    Adds fields (Addition.compile (named fields)) ∧
    Filter.compile (.list items) = Filter.compile (keyed items) ∧
    Filters items (Filter.compile (.list items)) := by
  have hnamed := holdsRows_named fields
  have hlisted := holdsRows_listed fields
  refine ⟨compile_eq_of_holdsRows hnamed hlisted, adds_compile hnamed, ?_, filters_compile items⟩
  exact (compile_keyed items).symm

/-- Names that are the same when trimmed are one field, in the place of the first. -/
example : Addition.compile (named [(" a", .int 1), ("b", .text " $c "), ("a ", .text "2")]) =
    .ok ⟨"$addFields", .object [("a", .int 2), ("b", .text "$c")]⟩ := by
  decide +kernel

end StageChain.EitherShape
