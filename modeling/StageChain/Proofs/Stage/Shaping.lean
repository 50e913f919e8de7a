import StageChain.Proofs.Stage.Literals
import StageChain.Proofs.Stage.Rules
import StageChain.Proofs.Stage.Sorting
import StageChain.Stage.Shape

/-!
# Sorts, projections and additions of fields

The three stages go over rows, each by a rule of its own. A row of a sort counts if it has a field,
and a row of a projection if it has a name. A named value that is added counts if it has a name and
a value, or if its name is a reference, which is wrong. Rows that do not count decide nothing.

`RowStage.shapes_rows_iff` says what becomes of the rows of each stage.
-/

namespace StageChain

variable {config value : Value} {settings row : Entries Value} {rows : List (Entries Value)}

theorem Value.isBlank_eq_true_iff : value.isBlank = true ↔ value = .null ∨ value = .text "" := by
  cases value <;> simp [Value.isBlank]

/-! ## Sorts -/

namespace Ordering

/-- What is said of a value that names no direction. -/
def refusalOf : Value → String
  | .bool _ => "expected ascending or descending"
  | value => "expected ascending or descending, got '" ++ value.display ++ "'"

/-- What a row comes to: its direction, if it is known. -/
def verdict (row : Entries Value) : Rows.Verdict :=
  match direction? row with
  | some direction => .asks direction.written
  | none => .wrong (fun index => "fields[" ++ StageFault.decimal index ++ "].direction")
      (refusalOf (Value.field row "direction"))

theorem compile_eq (hsettings : Rows.HasSettings config settings)
    (hrows : Rows.HasRows settings "fields" rows) :
    compile config = (Rows.gather entry 0 rows []).bind (Rows.stageOfEntries "$sort") :=
  Rows.read_eq hsettings hrows

/-- The rule for the rows of a sort. -/
def rule : Rows.Rule := ⟨IsLive, inferInstance, fieldOf, verdict⟩

/-- A boolean names no direction. -/
theorem named?_bool (b : Bool) : named? (.bool b) = none := by
  cases b <;> decide +kernel

/-- What is refused as a direction names none. -/
theorem wrong_of_direction {index : Nat} {fault : StageFault}
    (h : direction index value = .error fault) :
    named? value = none ∧ fault.field = "fields[" ++ StageFault.decimal index ++ "].direction" ∧
      fault.message = refusalOf value := by
  unfold direction at h
  split at h
  · cases h
  · cases h
  · rename_i b
    cases h
    refine ⟨named?_bool b, ?_, rfl⟩
    simp [StageFault.field, StageFault.rowName, String.append_assoc]
  · rename_i hnull hempty hbool
    have hgiven : value.isBlank = false := by
      cases value with
      | null => exact absurd rfl hnull
      | text text => simpa [Value.isBlank] using hempty
      | _ => rfl
    split at h
    · cases h
    · rename_i hunknown
      cases h
      have hnone := lookup_directions (Text.lower (Text.trim value.display))
      rw [hunknown] at hnone
      refine ⟨?_, ?_, ?_⟩
      · rw [named?, hgiven, if_neg Bool.false_ne_true]
        exact Option.map_eq_none_iff.1 hnone.symm
      · simp [StageFault.field, StageFault.rowName, String.append_assoc]
      · cases value with
        | bool b => exact absurd rfl (hbool b)
        | _ => rfl

theorem governs_entry : rule.Governs entry := by
  intro index row
  by_cases hlive : IsLive row
  · have hfield : (Rows.textOf row "field").isEmpty = false := by
      simpa [IsLive, fieldOf] using hlive
    simp only [entry, hfield, Bool.false_eq_true, if_false]
    cases hread : direction index (Value.field row "direction") with
    | ok n =>
        obtain ⟨known, hknown, hwritten⟩ := Option.map_eq_some_iff.1 (named?_of_direction hread)
        have hverdict : verdict row = .asks (.int n) := by
          rw [verdict, direction?, hknown]
          exact congrArg Rows.Verdict.asks hwritten
        exact .asks (.int n) hlive hverdict
    | error fault =>
        obtain ⟨hnone, hplace, hmessage⟩ := wrong_of_direction hread
        have hverdict : verdict row =
            .wrong (fun index => "fields[" ++ StageFault.decimal index ++ "].direction")
              (refusalOf (Value.field row "direction")) := by
          rw [verdict, direction?, hnone]
        exact .wrong fault _ _ hlive hverdict hplace hmessage
  · have hfield : (Rows.textOf row "field").isEmpty = true := by
      simpa [IsLive, fieldOf] using hlive
    simp only [entry, hfield, if_true]
    exact .nothing hlive

end Ordering

/-! ## Projections -/

namespace Projection

/-- The name of a row. -/
def nameOf (row : Entries Value) : String := Rows.textOf row "name"

/-- The mode of a row in lower case, inclusion if there is none. -/
def modeOf (row : Entries Value) : String :=
  Rows.orElse (Text.lower (Rows.textOf row "mode")) "include"

/-- A row counts if it has a name. -/
def IsLive (row : Entries Value) : Prop := nameOf row ≠ ""

instance : DecidablePred IsLive := fun _ => inferInstanceAs (Decidable (_ ≠ _))

/-- What a row comes to: one or zero, or its value as an expression. -/
def verdict (row : Entries Value) : Rows.Verdict :=
  if modeOf row = "include" then .asks (.int 1)
  else if modeOf row = "exclude" then .asks (.int 0)
  else if modeOf row = "computed" then
    if isMissing (Value.field row "value") then
      .wrong (fun index => "fields[" ++ StageFault.decimal index ++ "].value")
        "computed field needs an expression"
    else .ofTyped (Literal.expression (Value.field row "value"))
  else .wrong (fun index => "fields[" ++ StageFault.decimal index ++ "].mode")
    ("expected include, exclude or computed, got '" ++ modeOf row ++ "'")

theorem compile_eq (hsettings : Rows.HasSettings config settings)
    (hrows : Rows.HasRows settings "fields" rows) :
    compile config = (Rows.gather entry 0 rows []).bind fun fields =>
      .ok ⟨"$project", .object (complete fields)⟩ :=
  Rows.read_eq hsettings hrows

/-- A row that computes a field gives it, unless there is no expression. -/
theorem entry_of_computed {index : Nat} (hlive : IsLive row) (hmode : modeOf row = "computed") :
    entry index row =
      if isMissing (Value.field row "value") then .error (.invalid (.noExpression index))
      else (Rows.typed (Literal.expression (Value.field row "value"))).map fun typed =>
        some (nameOf row, typed) := by
  have hname : (Rows.textOf row "name").isEmpty = false := by simpa [IsLive, nameOf] using hlive
  unfold modeOf at hmode
  simp only [entry, hname, hmode, Bool.false_eq_true, if_false, if_true]
  rw [if_neg (by decide), if_neg (by decide)]
  rfl

/-- The rule for the rows of a projection. -/
def rule : Rows.Rule := ⟨IsLive, inferInstance, nameOf, verdict⟩

theorem governs_entry : rule.Governs entry := by
  intro index row
  by_cases hlive : IsLive row
  · have hname : (Rows.textOf row "name").isEmpty = false := by
      simpa [IsLive, nameOf] using hlive
    have hverdict : rule.verdict row = verdict row := by simp only [rule]
    unfold verdict modeOf at hverdict
    simp only [entry, hname, Bool.false_eq_true, if_false]
    split
    · rename_i hmode
      rw [if_pos hmode] at hverdict
      exact .asks (.int 1) hlive hverdict
    rename_i hinclude
    rw [if_neg hinclude] at hverdict
    split
    · rename_i hmode
      rw [if_pos hmode] at hverdict
      exact .asks (.int 0) hlive hverdict
    rename_i hexclude
    rw [if_neg hexclude] at hverdict
    split
    · rename_i hmode
      rw [if_pos hmode] at hverdict
      split
      · rename_i hmissing
        rw [if_pos hmissing] at hverdict
        have hplace : (StageFault.noExpression index).field =
            "fields[" ++ StageFault.decimal index ++ "].value" := by
          simp [StageFault.field, StageFault.rowName, String.append_assoc]
        exact .wrong (.noExpression index) _ _ hlive hverdict hplace rfl
      · rename_i hmissing
        rw [if_neg hmissing] at hverdict
        exact Rows.Rule.gives_typed hlive hverdict
    · rename_i hmode
      rw [if_neg hmode] at hverdict
      have hplace : (StageFault.unknownMode index (modeOf row)).field =
          "fields[" ++ StageFault.decimal index ++ "].mode" := by
        simp [StageFault.field, StageFault.rowName, String.append_assoc]
      exact .wrong (.unknownMode index (modeOf row)) _ _ hlive hverdict hplace rfl
  · have hname : (Rows.textOf row "name").isEmpty = true := by
      simpa [IsLive, nameOf] using hlive
    simp only [entry, hname, if_true]
    exact .nothing hlive

/-- An overlong expression is what a computed row comes to. -/
theorem verdict_of_isOverlong {text : String} {numeral : Text.OverlongNumeral}
    (hmode : modeOf row = "computed") (hvalue : Value.field row "value" = .text text)
    (h : Literal.IsOverlong text numeral) : rule.verdict row = .overlong numeral := by
  have hverdict : rule.verdict row = verdict row := by simp only [rule]
  have hgiven : isMissing (.text text) = false := by
    rw [isMissing, Bool.eq_false_iff, ne_eq, String.isEmpty_iff]
    intro hempty
    have hchars := (Text.isOverlong_iff.1 h).1
    rw [← Literal.toList_trim, hempty] at hchars
    exact absurd hchars (by decide)
  rw [hverdict, verdict, hmode, hvalue, hgiven, Literal.expression_of_isOverlong h]
  rfl

end Projection

/-! ## Additions of fields -/

namespace Addition

/-- The name of a row. -/
def nameOf (row : Entries Value) : String := Rows.textOf row "name"

/-- The value of a row. -/
def valueOf (row : Entries Value) : Value := Value.field row "value"

/-- A row counts if it has a name and a value, or if its name is a reference. -/
def IsLive (row : Entries Value) : Prop :=
  nameOf row ≠ "" ∧
    (Reference.isMarked (nameOf row) = true ∨ valueOf row ≠ .null ∧ valueOf row ≠ .text "")

instance : DecidablePred IsLive := fun _ => inferInstanceAs (Decidable (_ ∧ (_ ∨ _ ∧ _)))

/-- What a row comes to: its value as an expression, unless its name is a reference. -/
def verdict (row : Entries Value) : Rows.Verdict :=
  if Reference.isMarked (nameOf row) then
    .wrong (fun _ => "fields." ++ nameOf row) "field names cannot start with '$'"
  else .ofTyped (Literal.expression (valueOf row))

/-- The rule for the rows of an addition. -/
def rule : Rows.Rule := ⟨IsLive, inferInstance, nameOf, verdict⟩

theorem governs_entry : rule.Governs fun _ row => entry (nameOf row, valueOf row) := by
  intro index row
  have hverdict : rule.verdict row = verdict row := by simp only [rule]
  unfold verdict at hverdict
  simp only [entry]
  split
  · rename_i hname
    exact .nothing fun hlive => hlive.1 (by simpa using hname)
  rename_i hname
  replace hname : nameOf row ≠ "" := by simpa using hname
  split
  · rename_i hmarked
    rw [if_pos hmarked] at hverdict
    exact .wrong _ _ _ ⟨hname, .inl hmarked⟩ hverdict rfl rfl
  rename_i hmarked
  rw [if_neg hmarked] at hverdict
  split
  · rename_i hblank
    refine .nothing fun hlive => ?_
    obtain ⟨hnull, hempty⟩ := hlive.2.resolve_left hmarked
    exact (Value.isBlank_eq_true_iff.1 hblank).elim hnull hempty
  · rename_i hgiven
    have hvalue := not_or.1 (mt Value.isBlank_eq_true_iff.2 hgiven)
    exact Rows.Rule.gives_typed ⟨hname, .inr hvalue⟩ hverdict

end Addition

/-! ## The three stages -/

/-- The stages that name fields in rows. -/
inductive RowStage where
  | sort
  | project
  | addFields

namespace RowStage

/-- The operator of a stage. -/
def operator : RowStage → String
  | sort => "$sort"
  | project => "$project"
  | addFields => "$addFields"

/-- The rule for the rows of a stage. -/
def rule : RowStage → Rows.Rule
  | sort => Ordering.rule
  | project => Projection.rule
  | addFields => Addition.rule

/-- What becomes of rows of which none counts: a projection keeps the identifier only, and the
others are untouched. -/
def dead : RowStage → Except Refusal CompiledStage
  | sort => .error .untouched
  | project => .ok ⟨"$project", .object [("_id", .int 1)]⟩
  | addFields => .error .untouched

/-- Compiles the configuration of a stage. -/
def compile : RowStage → Value → Except Refusal CompiledStage
  | sort => Ordering.compile
  | project => Projection.compile
  | addFields => Addition.compile

/-- A name with a value, as a row. -/
def namedRow (pair : String × Value) : Entries Value := [("name", .text pair.1), ("value", pair.2)]

/-- The rows that a configuration holds. Fields to add may also be named in an object. -/
inductive HoldsRows : RowStage → List (Entries Value) → Value → Prop where
  | listed (stage : RowStage) {settings : Entries Value} {rows : List (Entries Value)}
      {config : Value} (hsettings : Rows.HasSettings config settings)
      (hrows : Rows.HasRows settings "fields" rows) : HoldsRows stage rows config
  | named {settings entries : Entries Value}
      (hentries : Value.field settings "fields" = .object entries) :
      HoldsRows addFields (entries.map namedRow) (.object settings)

variable {stage : RowStage} {numeral : Text.OverlongNumeral}

theorem dead_ne_overlong (stage : RowStage) (numeral : Text.OverlongNumeral) :
    stage.dead ≠ .error (.overlong numeral) := by
  cases stage <;> exact nofun

/-- What a row adds. -/
def pairOf (row : Entries Value) : String × Value := (Addition.nameOf row, Addition.valueOf row)

theorem pairOf_namedRow (pair : String × Value) : pairOf (namedRow pair) =
    (Text.trim pair.1, pair.2) := rfl

/-- The fields to add are those of the rows. -/
theorem exists_pairs (h : HoldsRows addFields rows config) : ∃ settings,
    Rows.HasSettings config settings ∧ Addition.pairs settings = .ok (rows.map pairOf) := by
  cases h with
  | listed _ hsettings hrows =>
      refine ⟨_, hsettings, ?_⟩
      have hread := Rows.rows_eq_ok_iff.2 hrows
      rw [Rows.rows] at hread
      cases hrows with
      | listed rows hfield | absent hfield =>
          rw [hfield] at hread
          rw [Addition.pairs, hfield]
          simp only [hread]
          rfl
  | named hentries =>
      rename_i settings entries
      refine ⟨settings, .object settings, ?_⟩
      rw [Addition.pairs, hentries, List.map_map]
      exact congrArg Except.ok (List.map_congr_left fun pair _ => (pairOf_namedRow pair).symm)

theorem compile_addFields (h : HoldsRows addFields rows config) :
    Addition.compile config =
      (Rows.gather (fun _ => Addition.entry) 0 (rows.map pairOf) []).bind
        (Rows.stageOfEntries "$addFields") := by
  obtain ⟨settings, hsettings, hpairs⟩ := exists_pairs h
  rw [Addition.compile, Rows.settings_eq_ok_iff.2 hsettings]
  show (Rows.checked (Addition.pairs settings)).bind _ = _
  rw [hpairs]
  rfl

/-- A stage goes over its rows by its rule. -/
theorem exists_governs (h : HoldsRows stage rows config) : ∃ entry, stage.rule.Governs entry ∧
    stage.compile config =
      (Rows.gather entry 0 rows []).bind (Rows.Rule.finish stage.operator stage.dead) := by
  cases stage with
  | sort =>
      cases h with
      | listed _ hsettings hrows =>
          exact ⟨_, Ordering.governs_entry, Ordering.compile_eq hsettings hrows⟩
  | project =>
      cases h with
      | listed _ hsettings hrows =>
          refine ⟨_, Projection.governs_entry, ?_⟩
          have hcompile := Projection.compile_eq hsettings hrows
          show Projection.compile config = _
          rw [hcompile]
          congr 1
          funext fields
          cases fields <;> rfl
  | addFields =>
      refine ⟨_, Addition.governs_entry, ?_⟩
      have hgather := Rows.gather_map (fun _ => Addition.entry) pairOf 0 rows []
      show Addition.compile config = _
      rw [compile_addFields h, hgather]
      rfl

theorem compile_eq_overlong_iff (h : HoldsRows stage rows config) :
    stage.compile config = .error (.overlong numeral) ↔
      stage.rule.MeetsOverlong rows numeral := by
  obtain ⟨entry, hgoverns, hcompile⟩ := exists_governs h
  rw [hcompile]
  exact hgoverns.eq_overlong_iff (stage.dead_ne_overlong numeral)

/-- What becomes of the rows of a stage is fixed by those that count: the first wrong one is named,
and else each name is there once, in the place in which it comes first, with what the last row of
that name asks for. The exception is an overlong value that is met first, with which there is none
of these outcomes. -/
theorem shapes_rows_iff (h : HoldsRows stage rows config) :
    (stage.rule.Settles stage.operator stage.dead rows (stage.compile config) ↔
      ∀ numeral, ¬ stage.rule.MeetsOverlong rows numeral) ∧
    ∀ numeral, stage.compile config = .error (.overlong numeral) ↔
      stage.rule.MeetsOverlong rows numeral := by
  refine ⟨?_, fun numeral => compile_eq_overlong_iff h⟩
  obtain ⟨entry, hgoverns, hcompile⟩ := exists_governs h
  rw [hcompile]
  exact hgoverns.settles_iff stage.dead_ne_overlong

/-- A configuration with rows. -/
def listing (rows : List (Entries Value)) : Value := .object [("fields", .list (rows.map .object))]

theorem holdsRows_listing (stage : RowStage) (rows : List (Entries Value)) :
    HoldsRows stage rows (listing rows) := .listed stage (.object _) (.listed rows rfl)

/-- A row of a projection in texts. -/
def projected (name mode value : String) : Entries Value :=
  [("name", .text name), ("mode", .text mode), ("value", .text value)]

/-- A field that is kept and computed after all, around one that is left out, after a row without a
name whose mode is unknown. -/
def recomputedTotal : List (Entries Value) :=
  [projected " " "rename" "", projected "total" "" "", projected "note" " EXCLUDE" "",
    projected "total" "computed" " 1e2 "]

theorem compile_recomputedTotal : project.compile (listing recomputedTotal) =
    .ok ⟨"$project", .object [("total", .float (.ofInt 100)), ("note", .int 0)]⟩ := by
  decide +kernel

theorem settles_recomputedTotal :
    HoldsRows project recomputedTotal (listing recomputedTotal) ∧
      project.rule.Settles project.operator project.dead recomputedTotal
        (project.compile (listing recomputedTotal)) := by
  have hholds := holdsRows_listing project recomputedTotal
  obtain ⟨hsettles, hoverlong⟩ := shapes_rows_iff hholds
  refine ⟨hholds, hsettles.2 fun numeral hmeets => ?_⟩
  have hrefused := (hoverlong numeral).2 hmeets
  rw [compile_recomputedTotal] at hrefused
  cases hrefused

/-- A row that computes a field from more zeros than digits are read. -/
def overlongRow : Entries Value := projected "a" "computed" (Literal.zeros 4301)

/-- An overlong expression is neither a wrong row nor one that is settled. -/
theorem not_settles_overlongRow :
    HoldsRows project [overlongRow] (listing [overlongRow]) ∧
      project.compile (listing [overlongRow]) = .error (.overlong ⟨4301⟩) ∧
      ¬ project.rule.Settles project.operator project.dead [overlongRow]
        (project.compile (listing [overlongRow])) := by
  have hholds := holdsRows_listing project [overlongRow]
  have hlong : Literal.IsOverlong (Literal.zeros 4301) ⟨4301⟩ :=
    Literal.number_eq_error_iff.1 (Literal.number_zeros (by decide)).2
  have hverdict : project.rule.verdict overlongRow = .overlong ⟨4301⟩ :=
    Projection.verdict_of_isOverlong (by decide +kernel) rfl hlong
  have hlive : project.rule.live overlongRow := by
    show Projection.IsLive overlongRow
    decide +kernel
  have hmeets : project.rule.MeetsOverlong [overlongRow] ⟨4301⟩ :=
    ⟨[], overlongRow, [], rfl, hlive, hverdict, nofun⟩
  have hrefused := (compile_eq_overlong_iff hholds).2 hmeets
  refine ⟨hholds, hrefused, ?_⟩
  rw [hrefused]
  exact Rows.Rule.Settles.ne_overlong (project.dead_ne_overlong ⟨4301⟩)

end RowStage

end StageChain
