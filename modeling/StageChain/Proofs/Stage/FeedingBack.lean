import Mathlib.Data.List.Forall2
import StageChain.Proofs.Stage.NormalForms

/-!
# Feeding parameters back

Compiled parameters can be given back as a configuration, `StageKind.FedBack`: an unwind or a join
as they are, an amount or a count under their key, and parameters under names as rows, one for each
name. Since they are in normal form, they compile to themselves:
`StageKind.compiles_to_normal_form`.
-/

namespace StageChain

variable {row settings params : Entries Value} {pair : String × Value}

/-! ## Rows -/

namespace Rows

variable {entry : Nat → Entries Value → Except Refusal (Option (String × Value))}
  {rows : List (Entries Value)} {IsValue : Value → Prop}
  {IsRowOf : Entries Value → String × Value → Prop}

/-- Each parameter has a row of its own. -/
theorem forall₂_map {rowFor : String × Value → Entries Value}
    (h : ∀ pair, IsRowOf (rowFor pair) pair) (params : Entries Value) :
    List.Forall₂ IsRowOf (params.map rowFor) params :=
  List.forall₂_map_left_iff.2 (List.forall₂_same.2 fun pair _ => h pair)

theorem reads_of_rows (hrows : List.Forall₂ IsRowOf rows params)
    (hnames : ∀ pair ∈ params, IsName pair.1) (hvalues : ∀ pair ∈ params, IsValue pair.2)
    (hentry : ∀ row pair, IsName pair.1 → IsValue pair.2 → IsRowOf row pair →
      ∀ index, entry index row = .ok (some pair)) (index : Nat) :
    Reads entry index rows params := by
  induction hrows generalizing index with
  | nil => exact .done index
  | cons hrow _ ih =>
      obtain ⟨hname, hnames⟩ := List.forall_mem_cons.1 hnames
      obtain ⟨hvalue, hvalues⟩ := List.forall_mem_cons.1 hvalues
      exact .taken index _ _ _ _ (hentry _ _ hname hvalue hrow index)
        (ih hnames hvalues (index + 1))

/-- Rows that give parameters in normal form one by one give all of them. -/
theorem AreNormal.gather (h : AreNormal IsValue params) (hrows : List.Forall₂ IsRowOf rows params)
    (hentry : ∀ row pair, IsName pair.1 → IsValue pair.2 → IsRowOf row pair →
      ∀ index, entry index row = .ok (some pair)) :
    Rows.gather entry 0 rows [] = .ok params := by
  have hreads := reads_of_rows hrows h.names h.values hentry 0
  exact gather_eq_ok_iff.2 ⟨params, hreads, (Entries.collect_of_nodup h.nodup).symm⟩

end Rows

namespace Filter

/-- The condition asks that a field equals a value. -/
structure IsRowOf (row : Entries Value) (pair : String × Value) : Prop where
  field : Value.field row "field" = .text pair.1
  value : Value.field row "value" = pair.2
  equals : comparison? row = some .equals

/-- The condition that a field equals a value. -/
def rowFor (pair : String × Value) : Entries Value := [("field", .text pair.1), ("value", pair.2)]

theorem isRowOf_rowFor (pair : String × Value) : IsRowOf (rowFor pair) pair := by
  refine ⟨rfl, rfl, ?_⟩
  have hoperator : operatorOf (rowFor pair) = comparisonName "" := rfl
  rw [comparison?, hoperator]
  decide +kernel

theorem entry_of_isRowOf (hname : Rows.IsName pair.1) (hvalue : IsPredicate pair.2)
    (h : IsRowOf row pair) (index : Nat) : entry index row = .ok (some pair) := by
  have hfield : fieldOf row = pair.1 := hname.textOf_eq h.field
  have hgiven : valueOf row = pair.2 := h.value
  have hlive : IsLive row := by
    rw [isLive_iff, hfield, hgiven, hvalue.given, Bool.or_false]
    simpa using hname.given
  rw [entry_of_isLive index hlive h.equals, hgiven, hvalue.typed, hfield]
  rfl

theorem compile_of_rows {rows : List (Entries Value)} {again : Value}
    (h : Rows.AreNormal IsPredicate params) (hholds : HoldsConditions rows again)
    (hrows : List.Forall₂ IsRowOf rows params) :
    compile again = .ok ⟨"$match", .object params⟩ := by
  have hgather := h.gather hrows fun _ _ => entry_of_isRowOf
  rw [compile_eq hholds, hgather]
  exact Rows.stageOfEntries_eq_ok_iff.2 ⟨h.given, rfl⟩

end Filter

namespace Projection

/-- The row computes a field from an expression. -/
structure IsRowOf (row : Entries Value) (pair : String × Value) : Prop where
  name : Value.field row "name" = .text pair.1
  mode : modeOf row = "computed"
  value : Value.field row "value" = pair.2

/-- The row that computes a field from an expression. -/
def rowFor (pair : String × Value) : Entries Value :=
  [("name", .text pair.1), ("mode", .text "computed"), ("value", pair.2)]

theorem isRowOf_rowFor (pair : String × Value) : IsRowOf (rowFor pair) pair := by
  refine ⟨rfl, ?_, rfl⟩
  show Rows.orElse (Text.lower (Text.trim "computed")) "include" = "computed"
  decide +kernel

theorem entry_of_isRowOf (hname : Rows.IsName pair.1) (hvalue : IsExpression pair.2)
    (h : IsRowOf row pair) (index : Nat) : entry index row = .ok (some pair) := by
  have hread : nameOf row = pair.1 := hname.textOf_eq h.name
  have hlive : IsLive row := by
    rw [IsLive, hread]
    exact hname.given
  rw [entry_of_computed hlive h.mode, h.value, hvalue.given, hvalue.read, hread]
  rfl

theorem compile_of_rows {rows : List (Entries Value)} {again : Value}
    (h : Rows.AreNormal IsExpression params) (hsettings : Rows.HasSettings again settings)
    (hholds : Rows.HasRows settings "fields" rows) (hrows : List.Forall₂ IsRowOf rows params) :
    compile again = .ok ⟨"$project", .object params⟩ := by
  have hgather := h.gather hrows fun _ _ => entry_of_isRowOf
  have hcomplete : complete params = params := by simp [complete, h.given]
  rw [compile_eq hsettings hholds, hgather]
  simp only [Except.bind, hcomplete]

end Projection

namespace Ordering

/-- The row sorts a field in a direction. -/
structure IsRowOf (row : Entries Value) (pair : String × Value) : Prop where
  field : Value.field row "field" = .text pair.1
  direction : Value.field row "direction" = pair.2

/-- The row that sorts a field in a direction. -/
def rowFor (pair : String × Value) : Entries Value :=
  [("field", .text pair.1), ("direction", pair.2)]

/-- An integer that is the word for a direction is read as it. -/
theorem direction_of_lookup {n direction : Int} (index : Nat)
    (h : directions.lookup (Text.lower (Text.trim (Value.int n).display)) = some direction) :
    Ordering.direction index (.int n) = .ok direction := by
  simp only [Ordering.direction, h]

/-- A direction is read as it is written. -/
theorem direction_written (index : Nat) (known : Direction) :
    ∃ n, direction index known.written = .ok n ∧ known.written = .int n := by
  cases known with
  | ascending => exact ⟨1, direction_of_lookup index (by decide +kernel), rfl⟩
  | descending => exact ⟨-1, direction_of_lookup index (by decide +kernel), rfl⟩

theorem entry_of_isRowOf (hname : Rows.IsName pair.1) (hvalue : IsDirection pair.2)
    (h : IsRowOf row pair) (index : Nat) : entry index row = .ok (some pair) := by
  have hfield : Rows.textOf row "field" = pair.1 := hname.textOf_eq h.field
  have hgiven : pair.1.isEmpty = false := by simpa using hname.given
  obtain ⟨known, hknown⟩ := hvalue
  obtain ⟨n, hread, hwritten⟩ := direction_written index known
  rw [entry, hfield, hgiven, h.direction, hknown, hread]
  exact congrArg (fun value => Except.ok (some (pair.1, value))) (hknown.trans hwritten).symm

theorem compile_of_rows {rows : List (Entries Value)} {again : Value}
    (h : Rows.AreNormal IsDirection params) (hsettings : Rows.HasSettings again settings)
    (hholds : Rows.HasRows settings "fields" rows) (hrows : List.Forall₂ IsRowOf rows params) :
    compile again = .ok ⟨"$sort", .object params⟩ := by
  have hgather := h.gather hrows fun _ _ => entry_of_isRowOf
  rw [compile_eq hsettings hholds, hgather]
  exact Rows.stageOfEntries_eq_ok_iff.2 ⟨h.given, rfl⟩

end Ordering

/-! ## Amounts, counts, unwinds and joins -/

theorem Amount.compile_of_int {key : String} {n : Int} (hleast : 0 ≤ n) (hmost : n ≤ 2 ^ 63 - 1)
    (hfield : Value.field settings key = .int n) :
    Amount.compile key (.object settings) = .ok ⟨"$" ++ key, .int n⟩ := by
  have hrange : Amount.inRange key n = .ok n := by
    rcases Amount.inRange_cases key n with ⟨-, hsame⟩ | ⟨hout, -⟩
    · exact hsame
    · exact absurd ⟨hleast, hmost⟩ hout
  show (Amount.integerOf key (Value.field settings key)).bind _ = _
  rw [hfield]
  show (Rows.checked (Amount.inRange key n)).bind _ = _
  rw [hrange]
  rfl

theorem Tally.compile_of_text {name : String} (h : IsOutput name)
    (hfield : Value.field settings "count" = .text name) :
    Tally.compile (.object settings) = .ok ⟨"$count", .text name⟩ := by
  have hread : Rows.orElse (Rows.textOf settings "count") "total" = name := by
    rw [h.textOf_eq hfield, Rows.orElse]
    exact if_neg (by simpa using h.given)
  have hchecked : checkName name = .ok name := by simp [checkName, h.marked, h.path]
  show (Rows.checked (checkName (Rows.orElse (Rows.textOf settings "count") "total"))).bind _ = _
  rw [hread, hchecked]
  rfl

namespace Unwind

variable {path : String} {preserve : Bool} {index : Option String}

theorem IsPath.isName (h : IsPath path) : Rows.IsName path := by
  refine ⟨fun hempty => ?_, h.trimmed⟩
  have hlong := h.long
  rw [hempty] at hlong
  exact absurd hlong (by decide)

/-- A path is the reference to itself. -/
theorem IsPath.ofName_eq (h : IsPath path) : Reference.ofName path = path := by
  rw [Reference.ofName, h.trimmed]
  exact if_pos h.marked

theorem field_preserve (path : String) (preserve : Bool) (index : Option String) :
    Value.field (entriesOf path preserve index) "preserveNullAndEmptyArrays" =
      if preserve then .bool true else .null := by
  cases preserve <;> cases index <;> rfl

theorem givenText_index (path : String) (preserve : Bool) (hindex : ∀ name ∈ index, IsIndex name) :
    Rows.givenText (entriesOf path preserve index) "includeArrayIndex" = index.getD "" := by
  cases index with
  | none => cases preserve <;> rfl
  | some name =>
      refine (hindex name rfl).givenText_eq ?_
      cases preserve <;> rfl

theorem params_entriesOf (hpath : IsPath path) (preserve : Bool)
    (hindex : ∀ name ∈ index, IsIndex name) :
    Unwind.params (entriesOf path preserve index) path =
      .ok (entriesOf path preserve index) := by
  have hflag := field_preserve path preserve index
  have hname := givenText_index path preserve hindex
  have hisFlag : isFlag (if preserve then .bool true else .null) = true := by
    cases preserve <;> rfl
  have hmarked : Reference.isMarked (index.getD "") = false := by
    cases index with
    | none => decide
    | some name => exact (hindex name rfl).marked
  have hentries : (if (if preserve then Value.bool true else .null).isVoid then []
      else [("preserveNullAndEmptyArrays", Value.bool true)]) =
        if preserve then [("preserveNullAndEmptyArrays", Value.bool true)] else [] := by
    cases preserve <;> rfl
  simp only [Unwind.params, hflag, hname, hisFlag, hmarked, hentries, hpath.ofName_eq,
    Bool.not_true, Bool.false_eq_true, if_false]
  cases index with
  | none => rfl
  | some name =>
      have hgiven : name ≠ "" := (hindex name rfl).given
      simp [entriesOf, hgiven]

theorem compile_entriesOf (hpath : IsPath path) (hindex : ∀ name ∈ index, IsIndex name) :
    compile (.object (entriesOf path preserve index)) =
      .ok ⟨"$unwind", .object (entriesOf path preserve index)⟩ := by
  have hread : Rows.givenText (entriesOf path preserve index) "path" = path :=
    hpath.isName.givenText_eq rfl
  have hsign : path ≠ "$" := by
    rintro rfl
    exact absurd hpath.long (by decide)
  have hparams := params_entriesOf hpath preserve hindex
  rw [compile]
  show (if Rows.givenText (entriesOf path preserve index) "path" = "" ∨ _ then _ else _) = _
  rw [hread, if_neg (not_or.2 ⟨hpath.isName.given, hsign⟩)]
  show (Rows.checked (Unwind.params (entriesOf path preserve index) path)).bind _ = _
  rw [hparams]
  rfl

end Unwind

theorem Join.compile_entriesOf {source localField foreignField output : String}
    (hsource : Rows.IsName source) (hlocal : Rows.IsName localField)
    (hforeign : Rows.IsName foreignField) (houtput : Rows.IsName output) :
    Join.compile (.object (entriesOf source localField foreignField output)) =
      .ok ⟨"$lookup", .object (entriesOf source localField foreignField output)⟩ := by
  generalize hentries : entriesOf source localField foreignField output = entries
  have hfrom : Rows.textOf entries "from" = source := hsource.textOf_eq (hentries ▸ rfl)
  have hown : Rows.textOf entries "localField" = localField := hlocal.textOf_eq (hentries ▸ rfl)
  have hother : Rows.textOf entries "foreignField" = foreignField :=
    hforeign.textOf_eq (hentries ▸ rfl)
  have has : Rows.textOf entries "as" = output := houtput.textOf_eq (hentries ▸ rfl)
  have hgiven : (required.map fun key => (key, Rows.textOf entries key)) =
      [("from", source), ("localField", localField), ("foreignField", foreignField)] := by
    simp only [required, List.map_cons, List.map_nil, hfrom, hown, hother]
  have hdefault : Rows.orElse output "joined" = output :=
    if_neg (by simpa using houtput.given)
  have hall : [("from", source), ("localField", localField), ("foreignField", foreignField)].all
      (·.2.isEmpty) = false := by simp [hsource.given]
  have hfind : [("from", source), ("localField", localField),
      ("foreignField", foreignField)].find? (·.2.isEmpty) = none := by
    simp [hsource.given, hlocal.given, hforeign.given]
  rw [Join.compile, Rows.settings_eq_ok_iff.2 (.object entries)]
  show (if _ then _ else _) = _
  rw [hgiven, has, hdefault, hall, hfind, ← hentries]
  rfl

/-! ## Stages -/

namespace StageKind

/-- A configuration that gives parameters back to their kind of stage. Of parameters under names
there is one row for each, in their order. -/
inductive FedBack : StageKind → Value → Value → Prop where
  | filter {rows : List (Entries Value)} {params : Entries Value} {config : Value}
      (hholds : Filter.HoldsConditions rows config)
      (hrows : List.Forall₂ Filter.IsRowOf rows params) : FedBack filter (.object params) config
  | project {settings params : Entries Value} {rows : List (Entries Value)} {config : Value}
      (hsettings : Rows.HasSettings config settings) (hholds : Rows.HasRows settings "fields" rows)
      (hrows : List.Forall₂ Projection.IsRowOf rows params) :
      FedBack project (.object params) config
  | sort {settings params : Entries Value} {rows : List (Entries Value)} {config : Value}
      (hsettings : Rows.HasSettings config settings) (hholds : Rows.HasRows settings "fields" rows)
      (hrows : List.Forall₂ Ordering.IsRowOf rows params) : FedBack sort (.object params) config
  | limit {settings : Entries Value} {amount : Value}
      (hfield : Value.field settings "limit" = amount) : FedBack limit amount (.object settings)
  | skip {settings : Entries Value} {amount : Value}
      (hfield : Value.field settings "skip" = amount) : FedBack skip amount (.object settings)
  | count {settings : Entries Value} {name : Value}
      (hfield : Value.field settings "count" = name) : FedBack count name (.object settings)
  | unwind (params : Value) : FedBack unwind params params
  | lookup (params : Value) : FedBack lookup params params

variable {kind : StageKind} {params again : Value}

/-- Parameters in normal form can be given back. -/
theorem exists_fedBack (h : IsNormal kind params) : ∃ again, FedBack kind params again := by
  cases h with
  | filter params =>
      exact ⟨_, .filter (.bare (params.map Filter.rowFor))
        (Rows.forall₂_map Filter.isRowOf_rowFor params)⟩
  | project params =>
      exact ⟨RowStage.listing (params.map Projection.rowFor), .project (.object _) (.listed _ rfl)
        (Rows.forall₂_map Projection.isRowOf_rowFor params)⟩
  | sort params =>
      exact ⟨RowStage.listing (params.map Ordering.rowFor), .sort (.object _) (.listed _ rfl)
        (Rows.forall₂_map (fun _ => ⟨rfl, rfl⟩) params)⟩
  | limit n => exact ⟨.object [("limit", .int n)], .limit rfl⟩
  | skip n => exact ⟨.object [("skip", .int n)], .skip rfl⟩
  | count name => exact ⟨.object [("count", .text name)], .count rfl⟩
  | unwind => exact ⟨_, .unwind _⟩
  | lookup => exact ⟨_, .lookup _⟩

/-- Parameters in normal form that are given back compile to themselves. -/
theorem compile_fedBack (h : IsNormal kind params) (hagain : FedBack kind params again) :
    kind.compile again = .ok ⟨kind.definition.type, params⟩ := by
  cases h with
  | filter params hparams =>
      cases hagain with
      | filter hholds hrows => exact Filter.compile_of_rows hparams hholds hrows
  | project params hparams =>
      cases hagain with
      | project hsettings hholds hrows =>
          exact Projection.compile_of_rows hparams hsettings hholds hrows
  | sort params hparams =>
      cases hagain with
      | sort hsettings hholds hrows => exact Ordering.compile_of_rows hparams hsettings hholds hrows
  | limit n hleast hmost =>
      cases hagain with
      | limit hfield => exact Amount.compile_of_int hleast hmost hfield
  | skip n hleast hmost =>
      cases hagain with
      | skip hfield => exact Amount.compile_of_int hleast hmost hfield
  | count name hname =>
      cases hagain with
      | count hfield => exact Tally.compile_of_text hname hfield
  | unwind path preserve index hpath hindex =>
      cases hagain with
      | unwind => exact Unwind.compile_entriesOf hpath hindex
  | lookup source localField foreignField output hsource hlocal hforeign houtput =>
      cases hagain with
      | lookup => exact Join.compile_entriesOf hsource hlocal hforeign houtput

/-- Every normal form is what some configuration compiles to. -/
theorem exists_compile_of_isNormal (h : IsNormal kind params) :
    ∃ config, kind.compile config = .ok ⟨kind.definition.type, params⟩ := by
  obtain ⟨again, hagain⟩ := exists_fedBack h
  exact ⟨again, compile_fedBack h hagain⟩

/-- For every kind of stage but groups and additions of fields, compiled parameters are in normal
form, they can be given back as a configuration, and however they are given back they compile to
themselves. The normal forms are no others than these. -/
theorem compiles_to_normal_form (hgroup : kind ≠ group) (hadd : kind ≠ addFields) :
    (∀ config stage, kind.compile config = .ok stage →
      IsNormal kind stage.params ∧ (∃ again, FedBack kind stage.params again) ∧
        ∀ again, FedBack kind stage.params again → kind.compile again = .ok stage) ∧
    ∀ params, IsNormal kind params →
      ∃ config, kind.compile config = .ok ⟨kind.definition.type, params⟩ := by
  refine ⟨fun config stage hcompile => ?_, fun params => exists_compile_of_isNormal⟩
  obtain ⟨hoperator, hnormal⟩ := isNormal_of_compile hgroup hadd hcompile
  refine ⟨hnormal, exists_fedBack hnormal, fun again hagain => ?_⟩
  rw [compile_fedBack hnormal hagain, ← hoperator]

/-- The parameters of `boundedAge`, given back as two conditions, compile to themselves. -/
theorem compiles_boundedAge_again :
    Filter.compile (Filter.filterOf Filter.boundedAge) =
        .ok ⟨"$match", .object Filter.boundedAgeParams⟩ ∧
      Filter.compile (Filter.filterOf (Filter.boundedAgeParams.map Filter.rowFor)) =
        .ok ⟨"$match", .object Filter.boundedAgeParams⟩ := by
  have hgroup : filter ≠ group := by decide
  have hadd : filter ≠ addFields := by decide
  obtain ⟨hnormal, -⟩ := compiles_to_normal_form hgroup hadd
  obtain ⟨-, -, hagain⟩ := hnormal _ _ Filter.compile_boundedAge
  refine ⟨Filter.compile_boundedAge,
    hagain _ (.filter (Filter.holdsConditions_filterOf _) ?_)⟩
  exact Rows.forall₂_map Filter.isRowOf_rowFor Filter.boundedAgeParams

end StageKind

end StageChain
