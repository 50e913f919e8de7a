import StageChain.Proofs.Stage.Filtering
import StageChain.Proofs.Stage.Limiting
import StageChain.Proofs.Stage.Retyping
import StageChain.Proofs.Stage.Shaping

/-!
# Normal forms of compiled parameters

Compiled parameters are in a normal form, `StageKind.IsNormal`. Names in it are neither empty nor
untrimmed and come once, values are typed, and the path of an unwind is a reference to something.
`StageKind.isNormal_of_compile` says so of the kinds of stage whose parameters can be given back as
a configuration, which are all but groups and additions of fields.
-/

namespace StageChain

variable {config value : Value} {settings row : Entries Value} {key name : String}
  {stage : CompiledStage}

/-! ## Names -/

namespace Rows

/-- The text is a name: it is neither empty nor untrimmed. -/
structure IsName (name : String) : Prop where
  given : name ≠ ""
  trimmed : Text.trim name = name

theorem trim_textOf (row : Entries Value) (key : String) :
    Text.trim (textOf row key) = textOf row key := by
  unfold textOf nameOf
  split
  · decide
  · exact Text.trim_trim _

theorem trim_givenText (settings : Entries Value) (key : String) :
    Text.trim (givenText settings key) = givenText settings key := by
  unfold givenText
  split
  · exact Text.trim_trim _
  · decide

theorem isName_textOf (h : textOf row key ≠ "") : IsName (textOf row key) :=
  ⟨h, trim_textOf row key⟩

theorem isName_givenText (h : givenText settings key ≠ "") : IsName (givenText settings key) :=
  ⟨h, trim_givenText settings key⟩

/-- A name is read as it is. -/
theorem IsName.textOf_eq (h : IsName name) (hfield : Value.field row key = .text name) :
    textOf row key = name := by
  rw [textOf, hfield]
  exact h.trimmed

theorem IsName.givenText_eq (h : IsName name) (hfield : Value.field settings key = .text name) :
    givenText settings key = name := by
  have hgiven : (Value.text name).given? = some (.text name) := by
    simp [Value.given?, Value.isVoid, h.given]
  rw [givenText, hfield, hgiven]
  exact h.trimmed

/-- The text, or else a name, is a name. -/
theorem isName_orElse {default : String} (hdefault : IsName default) :
    IsName (orElse (textOf row key) default) := by
  unfold orElse
  split
  · exact hdefault
  · rename_i hgiven
    exact isName_textOf (by simpa using hgiven)

/-! ## Parameters under names -/

variable {params : Entries Value}

/-- Parameters under names: there are some, no name comes twice, and all values are alike. -/
structure AreNormal (IsValue : Value → Prop) (params : Entries Value) : Prop where
  given : params ≠ []
  nodup : (Entries.keys params).Nodup
  names : ∀ pair ∈ params, IsName pair.1
  values : ∀ pair ∈ params, IsValue pair.2

/-- What rows give under names is gathered in a normal form. -/
theorem areNormal_of_gather {ρ : Type} {entry : Nat → ρ → Except Refusal (Option (String × Value))}
    {rows : List ρ} {IsValue : Value → Prop}
    (hentry : ∀ index row pair, entry index row = .ok (some pair) →
      IsName pair.1 ∧ IsValue pair.2)
    (hgather : gather entry 0 rows [] = .ok params) (hgiven : params ≠ []) :
    AreNormal IsValue params := by
  obtain ⟨pairs, hreads, hcollect⟩ := gather_eq_ok_iff.1 hgather
  obtain rfl : params = Entries.collect pairs := hcollect
  have hpair : ∀ pair ∈ Entries.collect pairs, IsName pair.1 ∧ IsValue pair.2 := by
    intro pair hpair
    obtain ⟨row, -, index, hrow⟩ := hreads.exists_row pair (Entries.mem_of_mem_collect hpair)
    exact hentry index row pair hrow
  exact ⟨hgiven, Entries.nodup_keys_collect pairs, fun pair h => (hpair pair h).1,
    fun pair h => (hpair pair h).2⟩

theorem stageOfEntries_eq_ok_iff {operator : String} :
    stageOfEntries operator params = .ok stage ↔
      params ≠ [] ∧ stage = ⟨operator, .object params⟩ := by
  unfold stageOfEntries
  split
  · rename_i hempty
    simp [List.isEmpty_iff.1 hempty]
  · rename_i hgiven
    rw [Except.ok.injEq]
    exact ⟨fun h => ⟨by simpa using hgiven, h.symm⟩, fun h => h.2.symm⟩

end Rows

/-! ## Filters -/

namespace Filter

/-- The value is a typed predicate on a field. -/
structure IsPredicate (value : Value) : Prop where
  typed : Literal.coerce value = .ok value
  given : value.isBlank = false

theorem isPredicate_of_asks (hlive : IsLive row) (h : Asks row value) : IsPredicate value := by
  obtain ⟨comparison, typed, -, htyped, rfl⟩ := h
  have hgiven := (Bool.or_eq_false_iff.1 (isLive_iff.1 hlive)).2
  cases comparison with
  | equals =>
      exact ⟨Literal.coerce_again _ _ htyped, (Literal.isBlank_coerce _ _ htyped).trans hgiven⟩
  | operator token => exact ⟨rfl, rfl⟩

/-- What a condition gives is in normal form. -/
theorem gives_normal (index : Nat) (row : Entries Value) (pair : String × Value)
    (h : entry index row = .ok (some pair)) : Rows.IsName pair.1 ∧ IsPredicate pair.2 := by
  obtain ⟨hlive, hfield, hasks⟩ := follows_entry.takes h
  exact ⟨hfield ▸ Rows.isName_textOf hlive.1, isPredicate_of_asks hlive hasks⟩

theorem exists_normal (h : compile config = .ok stage) :
    ∃ params, stage = ⟨"$match", .object params⟩ ∧ Rows.AreNormal IsPredicate params := by
  obtain ⟨rows, hholds⟩ := exists_holdsConditions h
  rw [compile_eq hholds] at h
  obtain ⟨params, hgather, hstage⟩ := Rows.bind_eq_ok_iff.1 h
  obtain ⟨hgiven, hstage⟩ := Rows.stageOfEntries_eq_ok_iff.1 hstage
  exact ⟨params, hstage, Rows.areNormal_of_gather gives_normal hgather hgiven⟩

end Filter

/-! ## Projections and sorts -/

namespace Projection

/-- The value is an expression that has been read. -/
structure IsExpression (value : Value) : Prop where
  read : Literal.expression value = .ok value
  given : isMissing value = false

theorem isExpression_of_verdict (h : verdict row = .asks value) : IsExpression value := by
  unfold verdict at h
  split at h
  · cases h
    exact ⟨rfl, rfl⟩
  split at h
  · cases h
    exact ⟨rfl, rfl⟩
  split at h
  · split at h
    · cases h
    · rename_i hgiven
      cases hread : Literal.expression (Value.field row "value") with
      | error numeral =>
          rw [hread] at h
          cases h
      | ok typed =>
          rw [hread] at h
          cases h
          exact ⟨Literal.expression_again _ _ hread,
            (Literal.isMissing_expression _ _ hread).trans (by simpa using hgiven)⟩
  · cases h

/-- What a row gives is in normal form. -/
theorem gives_normal (index : Nat) (row : Entries Value) (pair : String × Value)
    (h : entry index row = .ok (some pair)) : Rows.IsName pair.1 ∧ IsExpression pair.2 := by
  have hgives := governs_entry index row
  rw [h] at hgives
  cases hgives with
  | asks value hlive hasks =>
      have hname : nameOf row ≠ "" := hlive
      have hverdict : rule.verdict row = verdict row := by simp only [rule]
      exact ⟨Rows.isName_textOf hname, isExpression_of_verdict (hverdict.symm.trans hasks)⟩

theorem exists_normal (h : compile config = .ok stage) :
    ∃ params, stage = ⟨"$project", .object params⟩ ∧ Rows.AreNormal IsExpression params := by
  obtain ⟨settings, rows, hsettings, hrows, -⟩ := Rows.exists_rows_of_read h
  rw [compile_eq hsettings hrows] at h
  obtain ⟨params, hgather, hstage⟩ := Rows.bind_eq_ok_iff.1 h
  cases hstage
  refine ⟨complete params, rfl, ?_⟩
  by_cases hgiven : params = []
  · subst hgiven
    show Rows.AreNormal IsExpression [("_id", .int 1)]
    have hname : Rows.IsName "_id" := ⟨by decide, by decide⟩
    have hvalue : IsExpression (.int 1) := ⟨rfl, rfl⟩
    exact ⟨by simp, List.nodup_singleton "_id", by simpa using hname, by simpa using hvalue⟩
  · have hcomplete : complete params = params := by simp [complete, hgiven]
    rw [hcomplete]
    exact Rows.areNormal_of_gather gives_normal hgather hgiven

end Projection

namespace Ordering

/-- The value is a direction as it is written. -/
def IsDirection (value : Value) : Prop := ∃ direction : Direction, value = direction.written

/-- What a row gives is in normal form. -/
theorem gives_normal (index : Nat) (row : Entries Value) (pair : String × Value)
    (h : entry index row = .ok (some pair)) : Rows.IsName pair.1 ∧ IsDirection pair.2 := by
  have hgives := governs_entry index row
  rw [h] at hgives
  cases hgives with
  | asks value hlive hasks =>
      have hfield : Rows.textOf row "field" ≠ "" := hlive
      have hverdict : verdict row = .asks value := hasks
      refine ⟨Rows.isName_textOf hfield, ?_⟩
      unfold verdict at hverdict
      split at hverdict
      · rename_i direction _
        cases hverdict
        exact ⟨direction, rfl⟩
      · cases hverdict

theorem exists_normal (h : compile config = .ok stage) :
    ∃ params, stage = ⟨"$sort", .object params⟩ ∧ Rows.AreNormal IsDirection params := by
  obtain ⟨settings, rows, hsettings, hrows, -⟩ := Rows.exists_rows_of_read h
  rw [compile_eq hsettings hrows] at h
  obtain ⟨params, hgather, hstage⟩ := Rows.bind_eq_ok_iff.1 h
  obtain ⟨hgiven, hstage⟩ := Rows.stageOfEntries_eq_ok_iff.1 hstage
  exact ⟨params, hstage, Rows.areNormal_of_gather gives_normal hgather hgiven⟩

end Ordering

/-! ## Amounts, counts, unwinds and joins -/

theorem Amount.exists_normal (h : Amount.compile key config = .ok stage) :
    ∃ n : Int, stage = ⟨"$" ++ key, .int n⟩ ∧ 0 ≤ n ∧ n ≤ 2 ^ 63 - 1 := by
  obtain ⟨settings, -, h⟩ := Rows.bind_eq_ok_iff.1 h
  obtain ⟨n, -, h⟩ := Rows.bind_eq_ok_iff.1 h
  obtain ⟨amount, hamount, h⟩ := Rows.bind_eq_ok_iff.1 h
  have hrange := Rows.checked_eq_ok_iff.1 hamount
  rcases Amount.inRange_cases key n with ⟨⟨hleast, hmost⟩, hsame⟩ | ⟨-, fault, -, hrefused⟩
  · cases hsame.symm.trans hrange
    exact ⟨n, (Except.ok.inj h).symm, hleast, hmost⟩
  · cases hrefused.symm.trans hrange

namespace Tally

/-- The text is the name of an output field: no reference and no path. -/
structure IsOutput (name : String) : Prop extends Rows.IsName name where
  marked : Reference.isMarked name = false
  path : '.' ∉ name.toList

theorem isOutput_of_checkName {checked : String} (hname : Rows.IsName name)
    (h : checkName name = .ok checked) : checked = name ∧ IsOutput name := by
  unfold checkName at h
  split at h
  · cases h
  split at h
  · cases h
  · rename_i hmarked hpath
    exact ⟨(Except.ok.inj h).symm, hname, by simpa using hmarked, by simpa using hpath⟩

theorem exists_normal (h : compile config = .ok stage) :
    ∃ name, stage = ⟨"$count", .text name⟩ ∧ IsOutput name := by
  obtain ⟨settings, -, h⟩ := Rows.bind_eq_ok_iff.1 h
  obtain ⟨name, hname, h⟩ := Rows.bind_eq_ok_iff.1 h
  have htotal : Rows.IsName "total" := ⟨by decide, by decide⟩
  obtain ⟨rfl, houtput⟩ :=
    isOutput_of_checkName (Rows.isName_orElse htotal) (Rows.checked_eq_ok_iff.1 hname)
  exact ⟨_, (Except.ok.inj h).symm, houtput⟩

end Tally

namespace Unwind

/-- The entries of an unwind: a path, a flag that is left out if it is not set, and perhaps a field
for the index. -/
def entriesOf (path : String) (preserve : Bool) (index : Option String) : Entries Value :=
  [("path", .text path)] ++
    (if preserve then [("preserveNullAndEmptyArrays", .bool true)] else []) ++
    index.toList.map fun name => ("includeArrayIndex", .text name)

/-- The text is a path: a reference to something. -/
structure IsPath (path : String) : Prop where
  marked : Reference.isMarked path = true
  long : 1 < path.length
  trimmed : Text.trim path = path

/-- The text is the name of a field for the index: no reference. -/
structure IsIndex (name : String) : Prop extends Rows.IsName name where
  marked : Reference.isMarked name = false

/-- The reference to a field is more than a dollar sign if the field is. -/
theorem isPath_ofName (hname : Rows.IsName name) (hsign : name ≠ "$") :
    IsPath (Reference.ofName name) := by
  by_cases hmarked : Reference.isMarked name = true
  · have hself : Reference.ofName name = name := by
      rw [Reference.ofName, hname.trimmed]
      exact if_pos hmarked
    obtain ⟨rest, hchars⟩ := List.head?_eq_some_iff.1 (beq_iff_eq.1 hmarked)
    have hrest : rest ≠ [] := by
      rintro rfl
      exact hsign (String.toList_inj.1 hchars)
    rw [hself]
    refine ⟨hmarked, ?_, hname.trimmed⟩
    rw [← String.length_toList, hchars, List.length_cons]
    exact Nat.succ_lt_succ (List.length_pos_iff.2 hrest)
  · have hchars : (Reference.ofName name).toList = '$' :: name.toList := by
      have hsigned : Reference.ofName name = "$" ++ name := by
        rw [Reference.ofName, hname.trimmed]
        exact if_neg hmarked
      rw [hsigned]
      exact String.toList_append
    have hrest : name.toList ≠ [] := fun hempty => hname.given (String.toList_inj.1 hempty)
    have htrim : Text.trimChars name.toList = name.toList := by
      rw [← Literal.toList_trim, hname.trimmed]
    refine ⟨Reference.isMarked_ofName name, ?_, String.toList_inj.1 ?_⟩
    · rw [← String.length_toList, hchars, List.length_cons]
      exact Nat.succ_lt_succ (List.length_pos_iff.2 hrest)
    · rw [Literal.toList_trim, hchars, ← htrim]
      exact Text.trimChars_cons_trimChars (by decide) _

/-- The entries of an unwind have a flag if one is given, and a field for the index that is no
reference. -/
theorem exists_entriesOf {path : String} {entries : Entries Value}
    (h : params settings path = .ok entries) :
    ∃ preserve index, entries = entriesOf (Reference.ofName path) preserve index ∧
      ∀ name ∈ index, IsIndex name := by
  simp only [params] at h
  split at h
  · cases h
  split at h
  · cases h
  rename_i hmarked
  cases h
  by_cases hindex : Rows.givenText settings "includeArrayIndex" = ""
  · refine ⟨!(Value.field settings "preserveNullAndEmptyArrays").isVoid, none, ?_, by simp⟩
    cases (Value.field settings "preserveNullAndEmptyArrays").isVoid <;> simp [entriesOf, hindex]
  · refine ⟨!(Value.field settings "preserveNullAndEmptyArrays").isVoid,
      some (Rows.givenText settings "includeArrayIndex"), ?_, ?_⟩
    · cases (Value.field settings "preserveNullAndEmptyArrays").isVoid <;> simp [entriesOf, hindex]
    · intro name hname
      obtain rfl := Option.some.inj hname
      exact ⟨Rows.isName_givenText hindex, by simpa using hmarked⟩

theorem exists_normal (h : compile config = .ok stage) :
    ∃ path preserve index, stage = ⟨"$unwind", .object (entriesOf path preserve index)⟩ ∧
      IsPath path ∧ ∀ name ∈ index, IsIndex name := by
  obtain ⟨settings, -, h⟩ := Rows.bind_eq_ok_iff.1 h
  simp only at h
  split at h
  · cases h
  rename_i hpath
  obtain ⟨hgiven, hsign⟩ := not_or.1 hpath
  obtain ⟨entries, hentries, h⟩ := Rows.bind_eq_ok_iff.1 h
  obtain ⟨preserve, index, rfl, hindex⟩ := exists_entriesOf (Rows.checked_eq_ok_iff.1 hentries)
  exact ⟨_, preserve, index, (Except.ok.inj h).symm,
    isPath_ofName (Rows.isName_givenText hgiven) hsign, hindex⟩

end Unwind

namespace Join

/-- The entries of a join. -/
def entriesOf (source localField foreignField output : String) : Entries Value :=
  [("from", .text source), ("localField", .text localField),
    ("foreignField", .text foreignField), ("as", .text output)]

theorem exists_normal (h : compile config = .ok stage) :
    ∃ source localField foreignField output,
      stage = ⟨"$lookup", .object (entriesOf source localField foreignField output)⟩ ∧
        Rows.IsName source ∧ Rows.IsName localField ∧ Rows.IsName foreignField ∧
          Rows.IsName output := by
  obtain ⟨settings, -, h⟩ := Rows.bind_eq_ok_iff.1 h
  simp only at h
  split at h
  · cases h
  split at h
  · cases h
  rename_i hfind
  have hgiven : ∀ key ∈ required, Rows.textOf settings key ≠ "" := by
    intro key hkey
    have hnone := List.find?_eq_none.1 hfind _ (List.mem_map_of_mem hkey)
    simpa using hnone
  have hjoined : Rows.IsName "joined" := ⟨by decide, by decide⟩
  exact ⟨_, _, _, _, (Except.ok.inj h).symm, Rows.isName_textOf (hgiven "from" (by decide)),
    Rows.isName_textOf (hgiven "localField" (by decide)),
    Rows.isName_textOf (hgiven "foreignField" (by decide)), Rows.isName_orElse hjoined⟩

end Join

/-! ## Stages -/

namespace StageKind

/-- The parameters are in the normal form of a kind of stage. -/
inductive IsNormal : StageKind → Value → Prop where
  | filter (params : Entries Value) (h : Rows.AreNormal Filter.IsPredicate params) :
      IsNormal filter (.object params)
  | project (params : Entries Value) (h : Rows.AreNormal Projection.IsExpression params) :
      IsNormal project (.object params)
  | sort (params : Entries Value) (h : Rows.AreNormal Ordering.IsDirection params) :
      IsNormal sort (.object params)
  | limit (n : Int) (hleast : 0 ≤ n) (hmost : n ≤ 2 ^ 63 - 1) : IsNormal limit (.int n)
  | skip (n : Int) (hleast : 0 ≤ n) (hmost : n ≤ 2 ^ 63 - 1) : IsNormal skip (.int n)
  | count (name : String) (h : Tally.IsOutput name) : IsNormal count (.text name)
  | unwind (path : String) (preserve : Bool) (index : Option String) (hpath : Unwind.IsPath path)
      (hindex : ∀ name ∈ index, Unwind.IsIndex name) :
      IsNormal unwind (.object (Unwind.entriesOf path preserve index))
  | lookup (source localField foreignField output : String) (hsource : Rows.IsName source)
      (hlocal : Rows.IsName localField) (hforeign : Rows.IsName foreignField)
      (houtput : Rows.IsName output) :
      IsNormal lookup (.object (Join.entriesOf source localField foreignField output))

/-- Compiled parameters are in normal form, under the operator of their kind. -/
theorem isNormal_of_compile {kind : StageKind} (hgroup : kind ≠ group) (hadd : kind ≠ addFields)
    (h : kind.compile config = .ok stage) :
    stage.operator = kind.definition.type ∧ IsNormal kind stage.params := by
  cases kind with
  | group => exact absurd rfl hgroup
  | addFields => exact absurd rfl hadd
  | filter =>
      obtain ⟨params, rfl, hparams⟩ := Filter.exists_normal h
      exact ⟨rfl, .filter params hparams⟩
  | project =>
      obtain ⟨params, rfl, hparams⟩ := Projection.exists_normal h
      exact ⟨rfl, .project params hparams⟩
  | sort =>
      obtain ⟨params, rfl, hparams⟩ := Ordering.exists_normal h
      exact ⟨rfl, .sort params hparams⟩
  | limit =>
      obtain ⟨n, rfl, hleast, hmost⟩ := Amount.exists_normal h
      exact ⟨rfl, .limit n hleast hmost⟩
  | skip =>
      obtain ⟨n, rfl, hleast, hmost⟩ := Amount.exists_normal h
      exact ⟨rfl, .skip n hleast hmost⟩
  | count =>
      obtain ⟨name, rfl, hname⟩ := Tally.exists_normal h
      exact ⟨rfl, .count name hname⟩
  | unwind =>
      obtain ⟨path, preserve, index, rfl, hpath, hindex⟩ := Unwind.exists_normal h
      exact ⟨rfl, .unwind path preserve index hpath hindex⟩
  | lookup =>
      obtain ⟨source, localField, foreignField, output, rfl, hsource, hlocal, hforeign, houtput⟩ :=
        Join.exists_normal h
      exact ⟨rfl, .lookup source localField foreignField output hsource hlocal hforeign houtput⟩

end StageKind

end StageChain
