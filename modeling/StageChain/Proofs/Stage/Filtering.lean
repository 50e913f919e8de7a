import StageChain.Proofs.Stage.Amount
import StageChain.Proofs.Stage.Rows
import StageChain.Stage.Filter

/-!
# What filters require

A condition is live if it has a field and a value. `Settles` says what becomes of conditions by
their live ones alone: the first with an unknown operator is refused, and else the parameters have
each field in the place in which it comes first, with what the last condition on it asks for.
Filters compile to that, unless they meet an overlong value first: `settles_compile_iff`.

So a condition is lost if a later one on the same field asks for something else. `keeps_iff` says
exactly which conditions the parameters of a filter keep.
-/

namespace StageChain.Filter

variable {config : Value} {row : Entries Value} {rows : List (Entries Value)}

/-! ## Conditions -/

/-- The field of a condition. -/
def fieldOf (row : Entries Value) : String := Rows.textOf row "field"

/-- The value of a condition. -/
def valueOf (row : Entries Value) : Value := Value.field row "value"

/-- The operator of a condition: trimmed, in lower case, equality if it is empty, and aliases
resolved. -/
def operatorOf (row : Entries Value) : String := comparisonName (Rows.textOf row "operator")

/-- A condition counts if it has a field and a value. -/
def IsLive (row : Entries Value) : Prop :=
  fieldOf row ≠ "" ∧ valueOf row ≠ .null ∧ valueOf row ≠ .text ""

instance : DecidablePred IsLive := fun _ => inferInstanceAs (Decidable (_ ∧ _ ∧ _))

/-- How a condition compares the field with a value. -/
inductive Comparison where
  | equals
  | operator (token : String)
deriving DecidableEq

/-- The comparison of a condition, if its operator is known. -/
def comparison? (row : Entries Value) : Option Comparison :=
  if operatorOf row = "equals" then some .equals
  else (operators.lookup (operatorOf row)).map .operator

/-- The predicate on a field that a comparison with a typed value makes. -/
def Comparison.predicate : Comparison → Value → Value
  | equals, typed => typed
  | operator token, typed => .object [(token, typed)]

/-- The condition asks for a predicate on its field. -/
def Asks (row : Entries Value) (predicate : Value) : Prop :=
  ∃ comparison typed, comparison? row = some comparison ∧
    Literal.coerce (valueOf row) = .ok typed ∧ predicate = comparison.predicate typed

/-- The conditions that a configuration holds: a list of them, alone or in an object. -/
inductive HoldsConditions : List (Entries Value) → Value → Prop where
  | bare (rows : List (Entries Value)) : HoldsConditions rows (.list (rows.map .object))
  | listed (rows : List (Entries Value)) (settings : Entries Value)
      (h : Value.field settings "conditions" = .list (rows.map .object)) :
      HoldsConditions rows (.object settings)
  | absent (settings : Entries Value) (h : Value.field settings "conditions" = .null) :
      HoldsConditions [] (.object settings)
  | untouched : HoldsConditions [] .null

theorem conditions_eq_ok_iff : conditions config = .ok rows ↔ HoldsConditions rows config := by
  constructor
  · intro h
    cases config with
    | list items =>
        have hread : Rows.rowsOf "conditions" (.list items) = .ok rows := h
        obtain hitems | ⟨hnull, -⟩ := Rows.rowsOf_eq_ok_iff.1 hread
        · cases hitems
          exact .bare rows
        · cases hnull
    | object settings =>
        have hread : Rows.rowsOf "conditions" (Value.field settings "conditions") = .ok rows := h
        obtain hlisted | ⟨habsent, rfl⟩ := Rows.rowsOf_eq_ok_iff.1 hread
        · exact .listed rows settings hlisted
        · exact .absent settings habsent
    | null =>
        cases h
        exact .untouched
    | _ => cases h
  · rintro (_ | ⟨_, settings, h⟩ | ⟨settings, h⟩ | _)
    · exact Rows.rowsOf_eq_ok_iff.2 (.inl rfl)
    · exact Rows.rowsOf_eq_ok_iff.2 (.inl h)
    · exact Rows.rowsOf_eq_ok_iff.2 (.inr ⟨h, rfl⟩)
    · rfl

theorem HoldsConditions.unique {other : List (Entries Value)} (h : HoldsConditions rows config)
    (hother : HoldsConditions other config) : rows = other :=
  Except.ok.inj ((conditions_eq_ok_iff.2 h).symm.trans (conditions_eq_ok_iff.2 hother))

/-! ## What conditions give -/

/-- What a condition gives, at an index. -/
inductive Gives (index : Nat) (row : Entries Value) :
    Except Refusal (Option (String × Value)) → Prop where
  | nothing (hdead : ¬ IsLive row) : Gives index row (.ok none)
  | predicate (predicate : Value) (hlive : IsLive row) (hasks : Asks row predicate) :
      Gives index row (.ok (some (fieldOf row, predicate)))
  | unknown (hlive : IsLive row) (hunknown : comparison? row = none) :
      Gives index row (.error (.invalid (.unknownComparison index (operatorOf row))))
  | overlong (numeral : Text.OverlongNumeral) (hlive : IsLive row)
      (hknown : (comparison? row).isSome)
      (hvalue : Literal.coerce (valueOf row) = .error numeral) :
      Gives index row (.error (.overlong numeral))

theorem isLive_iff :
    IsLive row ↔ ((fieldOf row).isEmpty || (valueOf row).isBlank) = false := by
  unfold IsLive
  cases valueOf row <;> simp [Value.isBlank]

theorem predicate?_operatorOf (row : Entries Value) :
    predicate? (operatorOf row) = (comparison? row).map Comparison.predicate := by
  unfold predicate? comparison?
  split
  · rfl
  · rw [Option.map_map]
    rfl

/-- A condition that is live and has a known operator gives its predicate, if its value is read. -/
theorem entry_of_isLive {comparison : Comparison} (index : Nat) (hlive : IsLive row)
    (hknown : comparison? row = some comparison) :
    entry index row = (Rows.typed (Literal.coerce (valueOf row))).map fun typed =>
      some (fieldOf row, comparison.predicate typed) := by
  have hpredicate := predicate?_operatorOf row
  rw [hknown, Option.map_some] at hpredicate
  have hcounts := isLive_iff.1 hlive
  unfold fieldOf valueOf operatorOf at *
  simp only [entry, hcounts, hpredicate, Bool.false_eq_true, if_false]

theorem gives_entry (index : Nat) (row : Entries Value) : Gives index row (entry index row) := by
  by_cases hlive : IsLive row
  · cases hknown : comparison? row with
    | none =>
        have hentry : entry index row =
            .error (.invalid (.unknownComparison index (operatorOf row))) := by
          have hpredicate := predicate?_operatorOf row
          rw [hknown, Option.map_none] at hpredicate
          have hcounts := isLive_iff.1 hlive
          unfold fieldOf valueOf operatorOf at *
          simp only [entry, hcounts, hpredicate, Bool.false_eq_true, if_false]
        rw [hentry]
        exact .unknown hlive hknown
    | some comparison =>
        rw [entry_of_isLive index hlive hknown]
        cases htyped : Literal.coerce (valueOf row) with
        | ok typed => exact .predicate _ hlive ⟨comparison, typed, hknown, htyped, rfl⟩
        | error numeral => exact .overlong numeral hlive (by rw [hknown]; rfl) htyped
  · have hentry : entry index row = .ok none := by
      have hdead : ((fieldOf row).isEmpty || (valueOf row).isBlank) = true :=
        eq_true_of_ne_false (mt isLive_iff.2 hlive)
      unfold fieldOf valueOf at hdead
      simp only [entry, hdead, if_true]
    rw [hentry]
    exact .nothing hlive

theorem follows_entry : Rows.Follows entry IsLive fieldOf Asks where
  skips := by
    intro index row h
    have hgives := gives_entry index row
    rw [h] at hgives
    cases hgives with
    | nothing hdead => exact hdead
  takes := by
    intro index row pair h
    have hgives := gives_entry index row
    rw [h] at hgives
    cases hgives with
    | predicate predicate hlive hasks => exact ⟨hlive, rfl, hasks⟩

theorem exists_entry_of_asks (index : Nat) (h : IsLive row → ∃ predicate, Asks row predicate) :
    ∃ given, entry index row = .ok given := by
  have hgives := gives_entry index row
  generalize entry index row = result at hgives
  cases hgives with
  | nothing | predicate => exact ⟨_, rfl⟩
  | unknown hlive hunknown =>
      obtain ⟨_, _, _, hknown, -⟩ := h hlive
      cases hunknown.symm.trans hknown
  | overlong numeral hlive _ hvalue =>
      obtain ⟨_, _, _, -, htyped, -⟩ := h hlive
      cases hvalue.symm.trans htyped

/-! ## What becomes of conditions -/

/-- What becomes of conditions whose values are read. -/
inductive Settles (rows : List (Entries Value)) : Except Refusal CompiledStage → Prop where
  /-- The first live condition with an unknown operator is named. -/
  | unknown (before : List (Entries Value)) (row : Entries Value) (after : List (Entries Value))
      (fault : StageFault) (hrows : rows = before ++ row :: after) (hlive : IsLive row)
      (hunknown : comparison? row = none)
      (hleast : ∀ other ∈ before, IsLive other → (comparison? other).isSome)
      (hfield : fault.field = "conditions[" ++ StageFault.decimal before.length ++ "].operator")
      (hmessage : fault.message = "unknown operator '" ++ operatorOf row ++ "'") :
      Settles rows (.error (.invalid fault))
  | untouched (hdead : ∀ row ∈ rows, ¬ IsLive row) : Settles rows (.error .untouched)
  /-- Each field of a live condition is there once, with what the last one on it asks for. -/
  | compiled (params : Entries Value)
      (hknown : ∀ row ∈ rows, IsLive row → (comparison? row).isSome)
      (hlive : ∃ row ∈ rows, IsLive row)
      (hfields : Entries.keys params = ((rows.filter (IsLive ·)).map fieldOf).eraseDups)
      (hlast : ∀ row, Rows.IsLast IsLive fieldOf rows row →
        ∃ predicate, Asks row predicate ∧ Entries.get? (fieldOf row) params = some predicate) :
      Settles rows (.ok ⟨"$match", .object params⟩)

/-- A live condition with a known operator has an overlong value, and no condition before it is
refused. -/
def MeetsOverlong (rows : List (Entries Value)) (numeral : Text.OverlongNumeral) : Prop :=
  ∃ before row after, rows = before ++ row :: after ∧ IsLive row ∧ (comparison? row).isSome ∧
    Literal.coerce (valueOf row) = .error numeral ∧
      ∀ other ∈ before, IsLive other → ∃ predicate, Asks other predicate

theorem Asks.isSome {predicate : Value} (h : Asks row predicate) : (comparison? row).isSome := by
  obtain ⟨comparison, _, hknown, -⟩ := h
  rw [hknown]
  rfl

theorem compile_eq (h : HoldsConditions rows config) :
    compile config = (Rows.gather entry 0 rows []).bind (Rows.stageOfEntries "$match") := by
  rw [compile, conditions_eq_ok_iff.2 h]
  rfl

/-- What compiles as a filter holds conditions. -/
theorem exists_holdsConditions {stage : CompiledStage} (h : compile config = .ok stage) :
    ∃ rows, HoldsConditions rows config := by
  cases hrows : conditions config with
  | error fault =>
      rw [compile, hrows] at h
      cases h
  | ok rows => exact ⟨rows, conditions_eq_ok_iff.1 hrows⟩

theorem exists_params_of_gather {entries : Entries Value}
    (h : Rows.gather entry 0 rows [] = .ok entries) :
    Rows.Gathered IsLive fieldOf Asks rows entries ∧
      ∀ row ∈ rows, IsLive row → ∃ predicate, Asks row predicate := by
  obtain ⟨pairs, hreads, rfl⟩ := Rows.gather_eq_ok_iff.1 h
  exact ⟨follows_entry.gathered hreads, follows_entry.asks_of_reads hreads⟩

theorem compile_eq_overlong_iff (h : HoldsConditions rows config) {numeral : Text.OverlongNumeral} :
    compile config = .error (.overlong numeral) ↔ MeetsOverlong rows numeral := by
  rw [compile_eq h]
  constructor
  · intro hcompile
    cases hgather : Rows.gather entry 0 rows [] with
    | ok entries =>
        rw [hgather] at hcompile
        simp only [Except.bind, Rows.stageOfEntries] at hcompile
        split at hcompile <;> cases hcompile
    | error refusal =>
        rw [hgather] at hcompile
        cases hcompile
        obtain ⟨before, row, after, pairs, hrows, hreads, hrow⟩ :=
          Rows.gather_eq_error_iff.1 hgather
        have hgives := gives_entry (0 + before.length) row
        rw [hrow] at hgives
        cases hgives with
        | overlong _ hlive hknown hvalue =>
            exact ⟨before, row, after, hrows, hlive, hknown, hvalue,
              follows_entry.asks_of_reads hreads⟩
  · rintro ⟨before, row, after, hrows, hlive, hknown, hvalue, hbefore⟩
    have hgiven : ∀ other ∈ before, ∀ index, ∃ given, entry index other = .ok given :=
      fun other hother index => exists_entry_of_asks index (hbefore other hother)
    obtain ⟨pairs, hreads⟩ := Rows.exists_reads hgiven 0
    obtain ⟨comparison, hcomparison⟩ := Option.isSome_iff_exists.1 hknown
    have hrow : entry (0 + before.length) row = .error (.overlong numeral) := by
      rw [entry_of_isLive _ hlive hcomparison, hvalue]
      rfl
    rw [Rows.gather_eq_error_iff.2 ⟨before, row, after, pairs, hrows, hreads, hrow⟩]
    rfl

/-- Conditions compile as `Settles` says, unless they meet an overlong value. -/
theorem settles_compile (h : HoldsConditions rows config)
    (hread : ∀ numeral, ¬ MeetsOverlong rows numeral) : Settles rows (compile config) := by
  have hcompile := compile_eq h
  cases hgather : Rows.gather entry 0 rows [] with
  | ok entries =>
      rw [hgather] at hcompile
      obtain ⟨hgathered, hasks⟩ := exists_params_of_gather hgather
      by_cases hempty : entries = []
      · have huntouched : compile config = .error .untouched := by
          rw [hcompile, hempty]
          rfl
        rw [huntouched]
        exact .untouched (hgathered.eq_nil_iff.1 hempty)
      · have hstage : compile config = .ok ⟨"$match", .object entries⟩ := by
          rw [hcompile]
          simp [Except.bind, Rows.stageOfEntries, hempty]
        have hlive := mt hgathered.eq_nil_iff.2 hempty
        push Not at hlive
        rw [hstage]
        refine .compiled entries (fun row hrow hcounts => ?_) hlive hgathered.names hgathered.last
        obtain ⟨_, hasked⟩ := hasks row hrow hcounts
        exact hasked.isSome
  | error refusal =>
      rw [hgather] at hcompile
      obtain ⟨before, row, after, pairs, hrows, hreads, hrow⟩ := Rows.gather_eq_error_iff.1 hgather
      have hbefore := follows_entry.asks_of_reads hreads
      have hgives := gives_entry (0 + before.length) row
      rw [hrow] at hgives
      rw [hcompile]
      cases hgives with
      | unknown hlive hunknown =>
          refine .unknown before row after _ hrows hlive hunknown
            (fun other hother hcounts => ?_) ?_ rfl
          · obtain ⟨_, hasked⟩ := hbefore other hother hcounts
            exact hasked.isSome
          · rw [Nat.zero_add]
            simp [StageFault.field, StageFault.rowName, String.append_assoc]
      | overlong numeral hlive hknown hvalue =>
          exact absurd ⟨before, row, after, hrows, hlive, hknown, hvalue, hbefore⟩ (hread numeral)

theorem Settles.ne_overlong {numeral : Text.OverlongNumeral} :
    ¬ Settles rows (.error (.overlong numeral)) := by
  intro h
  cases h

/-- Of conditions in objects, a filter refuses the first live one with an unknown operator, is
untouched if there is no live one, and else has for each field what the last live one asks for. The
exception is an overlong value that is met first, with which there is none of these outcomes. -/
theorem settles_compile_iff (h : HoldsConditions rows config) :
    (Settles rows (compile config) ↔ ∀ numeral, ¬ MeetsOverlong rows numeral) ∧
      ∀ numeral, compile config = .error (.overlong numeral) ↔ MeetsOverlong rows numeral := by
  refine ⟨⟨fun hsettles numeral hmeets => ?_, settles_compile h⟩,
    fun numeral => compile_eq_overlong_iff h⟩
  rw [(compile_eq_overlong_iff h).2 hmeets] at hsettles
  exact hsettles.ne_overlong

/-- A configuration with conditions. -/
def filterOf (rows : List (Entries Value)) : Value :=
  .object [("conditions", .list (rows.map .object))]

theorem holdsConditions_filterOf (rows : List (Entries Value)) :
    HoldsConditions rows (filterOf rows) := .listed rows _ rfl

/-- A condition in texts. -/
def condition (field operator value : String) : Entries Value :=
  [("field", .text field), ("operator", .text operator), ("value", .text value)]

theorem isLive_condition {field operator value : String} (hfield : Text.trim field ≠ "")
    (hvalue : value ≠ "") : IsLive (condition field operator value) := by
  have hvalueOf : valueOf (condition field operator value) = .text value := rfl
  refine ⟨hfield, ?_, ?_⟩ <;> rw [hvalueOf]
  · simp
  · simpa using hvalue

/-- A lower and an upper bound on one field around a condition on another, after a condition without
a field whose operator is unknown. -/
def boundedAge : List (Entries Value) :=
  [condition " " "between" "1", condition "age" " GTE " "18", condition "status" "" "active",
    condition "age" "lt" "65"]

/-- The parameters of `boundedAge`: its fields in the order in which they come first, and of the
bounds the later one. -/
def boundedAgeParams : Entries Value :=
  [("age", .object [("$lt", .int 65)]), ("status", .text "active")]

theorem compile_boundedAge :
    compile (filterOf boundedAge) = .ok ⟨"$match", .object boundedAgeParams⟩ := by
  decide +kernel

theorem settles_boundedAge : HoldsConditions boundedAge (filterOf boundedAge) ∧
    Settles boundedAge (compile (filterOf boundedAge)) := by
  have hholds := holdsConditions_filterOf boundedAge
  obtain ⟨hsettles, hoverlong⟩ := settles_compile_iff hholds
  refine ⟨hholds, hsettles.2 fun numeral hmeets => ?_⟩
  have hrefused := (hoverlong numeral).2 hmeets
  rw [compile_boundedAge] at hrefused
  cases hrefused

/-- A condition on a number of one digit more than are read. -/
def overlongCondition : Entries Value :=
  condition "a" "eq" (String.ofList (List.replicate 4301 '7'))

theorem coerce_overlongCondition :
    Literal.coerce (valueOf overlongCondition) = .error ⟨4301⟩ := by
  have hdigits : ∀ c ∈ List.replicate 4301 '7', Text.isAsciiDigit c = true := by
    intro c hc
    rw [List.eq_of_mem_replicate hc]
    decide
  have hlong : Text.maxDigits < (List.replicate 4301 '7').length := by
    rw [List.length_replicate]
    decide
  have hcoerce := Literal.coerce_of_overlong hdigits hlong
  rwa [List.length_replicate] at hcoerce

/-- An overlong value is no unknown operator, yet its filter neither is untouched nor compiles. -/
theorem not_settles_overlongCondition :
    ¬ Settles [overlongCondition] (compile (filterOf [overlongCondition])) := by
  have hlive : IsLive overlongCondition := by
    refine isLive_condition (by decide +kernel) fun hempty => ?_
    have hlength := congrArg (fun text => text.toList.length) hempty
    rw [String.toList_ofList, List.length_replicate] at hlength
    cases hlength
  have hmeets : MeetsOverlong [overlongCondition] ⟨4301⟩ :=
    ⟨[], overlongCondition, [], rfl, hlive, by decide +kernel, coerce_overlongCondition, by simp⟩
  rw [(compile_eq_overlong_iff (holdsConditions_filterOf _)).2 hmeets]
  exact Settles.ne_overlong

/-! ## Which conditions are kept -/

/-- A predicate on a field has what a comparison with a typed value asks for. -/
def Comparison.IsMetBy (predicate typed : Value) : Comparison → Prop
  | equals => predicate = typed
  | operator token => ∃ operators, predicate = .object operators ∧
      Entries.get? token operators = some typed

/-- A predicate on its field has what a condition asks for, perhaps among other operators. -/
def Meets (predicate : Value) (row : Entries Value) : Prop :=
  ∃ comparison typed, comparison? row = some comparison ∧
    Literal.coerce (valueOf row) = .ok typed ∧ comparison.IsMetBy predicate typed

/-- The parameters of a filter have what a condition asks for. -/
def Keeps (params row : Entries Value) : Prop :=
  ∃ predicate, Entries.get? (fieldOf row) params = some predicate ∧ Meets predicate row

/-- What a condition asks for is also what another one asks for. -/
def Covers (last row : Entries Value) : Prop :=
  ∃ predicate, Asks last predicate ∧ Meets predicate row

/-- A condition asks for one predicate only. -/
theorem Asks.unique {first second : Value} (hfirst : Asks row first) (hsecond : Asks row second) :
    first = second := by
  obtain ⟨comparison, typed, hcomparison, htyped, rfl⟩ := hfirst
  obtain ⟨_, _, hother, hvalue, rfl⟩ := hsecond
  cases hcomparison.symm.trans hother
  cases htyped.symm.trans hvalue
  rfl

theorem Asks.meets {predicate : Value} (h : Asks row predicate) : Meets predicate row := by
  obtain ⟨comparison, typed, hcomparison, htyped, rfl⟩ := h
  refine ⟨comparison, typed, hcomparison, htyped, ?_⟩
  cases comparison with
  | equals => rfl
  | operator token => exact ⟨_, rfl, by simp [Entries.get?]⟩

/-- A filter that compiles keeps the last condition on each field, and of the others those that are
covered by the last one on their field. -/
theorem keeps_iff {stage : CompiledStage} (hcompile : compile config = .ok stage) :
    ∃ rows params, HoldsConditions rows config ∧ stage = ⟨"$match", .object params⟩ ∧
      (∀ row, Rows.IsLast IsLive fieldOf rows row → Keeps params row) ∧
      ∀ row ∈ rows, IsLive row → (Keeps params row ↔
        ∃ last, Rows.IsLast IsLive fieldOf rows last ∧ fieldOf last = fieldOf row ∧
          Covers last row) := by
  obtain ⟨rows, h⟩ := exists_holdsConditions hcompile
  have hsettles := settles_compile h fun numeral hmeets => by
    rw [(compile_eq_overlong_iff h).2 hmeets] at hcompile
    cases hcompile
  rw [hcompile] at hsettles
  cases hsettles with
  | compiled params hknown hlive hfields hlast =>
      refine ⟨rows, params, h, rfl, fun row hrow => ?_, fun row hrow hcounts => ?_⟩
      · obtain ⟨predicate, hasks, hget⟩ := hlast row hrow
        exact ⟨predicate, hget, hasks.meets⟩
      · constructor
        · rintro ⟨predicate, hget, hmeets⟩
          obtain ⟨last, hlastRow, hfield⟩ :
              ∃ last, Rows.IsLast IsLive fieldOf rows last ∧ fieldOf last = fieldOf row :=
            Rows.exists_isLast ⟨row, hrow, hcounts, rfl⟩
          obtain ⟨asked, hasks, hgot⟩ := hlast last hlastRow
          rw [hfield, hget] at hgot
          obtain rfl := Option.some.inj hgot
          exact ⟨last, hlastRow, hfield, predicate, hasks, hmeets⟩
        · rintro ⟨last, hlastRow, hfield, predicate, hasks, hmeets⟩
          obtain ⟨asked, hasked, hgot⟩ := hlast last hlastRow
          obtain rfl := hasks.unique hasked
          exact ⟨predicate, hfield ▸ hgot, hmeets⟩

/-- The conditions of `boundedAge` that are the last on their fields are kept. -/
theorem keeps_boundedAge :
    compile (filterOf boundedAge) = .ok ⟨"$match", .object boundedAgeParams⟩ ∧
      Keeps boundedAgeParams (condition "status" "" "active") ∧
        Keeps boundedAgeParams (condition "age" "lt" "65") := by
  obtain ⟨rows, params, hholds, hparams, hlast, -⟩ := keeps_iff compile_boundedAge
  cases hparams
  obtain rfl := hholds.unique (holdsConditions_filterOf boundedAge)
  refine ⟨compile_boundedAge, hlast _ ⟨?_, ?_⟩, hlast _ ⟨?_, ?_⟩⟩
  · exact isLive_condition (by decide +kernel) (by decide)
  · exact ⟨boundedAge.take 2, boundedAge.drop 3, rfl, by decide +kernel⟩
  · exact isLive_condition (by decide +kernel) (by decide)
  · exact ⟨boundedAge.take 3, [], rfl, by simp⟩

/-- Not every live condition is kept: `boundedAge` compiles without its lower bound. -/
theorem loses_lower_bound : ∃ row ∈ boundedAge, IsLive row ∧
    compile (filterOf boundedAge) = .ok ⟨"$match", .object boundedAgeParams⟩ ∧
      ¬ Keeps boundedAgeParams row := by
  refine ⟨condition "age" " GTE " "18", by decide, ?_, compile_boundedAge, ?_⟩
  · exact isLive_condition (by decide +kernel) (by decide)
  · rintro ⟨predicate, hget, comparison, typed, hcomparison, -, hmet⟩
    have hgte : comparison? (condition "age" " GTE " "18") = some (.operator "$gte") := by
      decide +kernel
    have hfound : Entries.get? (fieldOf (condition "age" " GTE " "18")) boundedAgeParams =
        some (.object [("$lt", .int 65)]) := by decide +kernel
    cases hgte.symm.trans hcomparison
    cases hfound.symm.trans hget
    obtain ⟨operators, hoperators, hgot⟩ := hmet
    cases hoperators
    cases hgot

end StageChain.Filter
