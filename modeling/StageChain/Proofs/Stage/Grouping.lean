import StageChain.Proofs.Stage.Rows
import StageChain.Stage.Grouping

/-!
# The key of a group

The parameters of a group start with its key, and each row after that adds an accumulator under an
output field. A row whose output is the key would replace it, so it is to be refused: `Protects`.
A row that counts is not. `protects_iff` says that the key is protected unless the first row that
writes to it counts; then it is replaced by the count.
-/

namespace StageChain.Grouping

variable {config : Value} {settings row : Entries Value} {rows : List (Entries Value)} {index : Nat}

/-! ## Rows -/

/-- The output field of a row. -/
def outputOf (row : Entries Value) : String := Rows.textOf row "field"

/-- The operator of a row, a sum if there is none. -/
def operatorOf (row : Entries Value) : String := Rows.orElse (Rows.textOf row "operator") "sum"

/-- The expression of a row. -/
def expressionOf (row : Entries Value) : Value := Value.field row "expression"

/-- A row gives an output if it has a field for it and, unless it counts, an expression. -/
def IsLive (row : Entries Value) : Prop :=
  outputOf row ≠ "" ∧
    (operatorOf row = "count" ∨ expressionOf row ≠ .null ∧ expressionOf row ≠ .text "")

instance : DecidablePred IsLive := fun _ => inferInstanceAs (Decidable (_ ∧ (_ ∨ _ ∧ _)))

/-- A row with a known operator gives an output under the name of the key. -/
def TakesKey (row : Entries Value) : Prop :=
  operatorOf row ∈ accumulators ∧ IsLive row ∧ outputOf row = "_id"

instance : DecidablePred TakesKey := fun _ => inferInstanceAs (Decidable (_ ∧ _ ∧ _))

/-- The accumulator that counts. -/
def count : Value := .object [("$count", .object [])]

/-- The row asks for an accumulator under its output. -/
inductive Asks (row : Entries Value) : Value → Prop where
  | count (hcounts : operatorOf row = "count") : Asks row count
  | applied (typed : Value) (hcounts : operatorOf row ≠ "count")
      (htyped : argument (expressionOf row) = .ok typed) :
      Asks row (.object [("$" ++ operatorOf row, typed)])

/-- What a row gives, at an index. -/
inductive Gives (index : Nat) (row : Entries Value) :
    Except Refusal (Option (String × Value)) → Prop where
  | nothing (hknown : operatorOf row ∈ accumulators) (hdead : ¬ IsLive row) :
      Gives index row (.ok none)
  | accumulator (value : Value) (hknown : operatorOf row ∈ accumulators) (hlive : IsLive row)
      (hfree : TakesKey row → operatorOf row = "count") (hasks : Asks row value) :
      Gives index row (.ok (some (outputOf row, value)))
  | unknown (hunknown : operatorOf row ∉ accumulators) :
      Gives index row (.error (.invalid (.unknownAccumulator index (operatorOf row))))
  | keyTaken (htakes : TakesKey row) (hcounts : operatorOf row ≠ "count") :
      Gives index row (.error (.invalid (.groupKeyTaken index)))
  | overlong (numeral : Text.OverlongNumeral) (hlive : IsLive row) (hfree : ¬ TakesKey row)
      (hcounts : operatorOf row ≠ "count")
      (hargument : argument (expressionOf row) = .error numeral) :
      Gives index row (.error (.overlong numeral))

theorem isLive_iff (hcounts : operatorOf row ≠ "count") :
    IsLive row ↔ ((outputOf row).isEmpty || (expressionOf row).isBlank) = false := by
  unfold IsLive
  cases expressionOf row <;> simp [Value.isBlank, hcounts]

theorem gives_entry (index : Nat) (row : Entries Value) : Gives index row (entry index row) := by
  have hentry : entry index row =
      if !accumulators.contains (operatorOf row) then
        .error (.invalid (.unknownAccumulator index (operatorOf row)))
      else if operatorOf row = "count" then
        .ok (if (outputOf row).isEmpty then none else some (outputOf row, count))
      else if (outputOf row).isEmpty || (expressionOf row).isBlank then .ok none
      else if outputOf row = "_id" then .error (.invalid (.groupKeyTaken index))
      else (Rows.typed (argument (expressionOf row))).map fun typed =>
        some (outputOf row, .object [("$" ++ operatorOf row, typed)]) := rfl
  rw [hentry]
  split
  · rename_i hunknown
    exact .unknown (by simpa using hunknown)
  rename_i hknown
  have hknown : operatorOf row ∈ accumulators := by simpa using hknown
  split
  · rename_i hcounts
    by_cases hempty : outputOf row = ""
    · rw [hempty]
      exact .nothing hknown fun hlive => hlive.1 hempty
    · rw [if_neg (by simpa using hempty)]
      exact .accumulator _ hknown ⟨hempty, .inl hcounts⟩ (fun _ => hcounts) (.count hcounts)
  rename_i hcounts
  split
  · rename_i hdead
    exact .nothing hknown fun hlive => by simp [(isLive_iff hcounts).1 hlive] at hdead
  rename_i hlive
  have hlive : IsLive row := (isLive_iff hcounts).2 (by simpa using hlive)
  split
  · rename_i hkey
    exact .keyTaken ⟨hknown, hlive, hkey⟩ hcounts
  rename_i hkey
  have hfree : ¬ TakesKey row := fun htakes => hkey htakes.2.2
  cases htyped : argument (expressionOf row) with
  | ok typed =>
      exact .accumulator _ hknown hlive (fun htakes => absurd htakes hfree)
        (.applied typed hcounts htyped)
  | error numeral => exact .overlong numeral hlive hfree hcounts htyped

theorem follows_entry : Rows.Follows entry IsLive outputOf Asks where
  skips := by
    intro index row h
    have hgives := gives_entry index row
    rw [h] at hgives
    cases hgives with
    | nothing _ hdead => exact hdead
  takes := by
    intro index row pair h
    have hgives := gives_entry index row
    rw [h] at hgives
    cases hgives with
    | accumulator value _ hlive _ hasks => exact ⟨hlive, rfl, hasks⟩

/-- A row that is not refused has a known operator, and if it takes the key, it counts. -/
theorem known_of_entry {given : Option (String × Value)} (h : entry index row = .ok given) :
    operatorOf row ∈ accumulators ∧ (TakesKey row → operatorOf row = "count") := by
  have hgives := gives_entry index row
  rw [h] at hgives
  cases hgives with
  | nothing hknown hdead => exact ⟨hknown, fun htakes => absurd htakes.2.1 hdead⟩
  | accumulator _ hknown _ hfree => exact ⟨hknown, hfree⟩

/-- A row that takes the key is refused unless it counts. -/
theorem entry_of_takesKey (index : Nat) (htakes : TakesKey row) (hcounts : operatorOf row ≠ "count") :
    entry index row = .error (.invalid (.groupKeyTaken index)) := by
  have hgives := gives_entry index row
  generalize entry index row = given at hgives ⊢
  cases hgives with
  | keyTaken => rfl
  | nothing _ hdead => exact absurd htakes.2.1 hdead
  | accumulator _ _ _ hfree => exact absurd (hfree htakes) hcounts
  | unknown hunknown => exact absurd htakes.1 hunknown
  | overlong _ _ hfree => exact absurd htakes hfree

/-- What is written under the key is the count. -/
theorem eq_count_of_entry {value : Value} (h : entry index row = .ok (some ("_id", value))) :
    value = count := by
  obtain ⟨hlive, houtput, hasks⟩ := follows_entry.takes h
  obtain ⟨hknown, hfree⟩ := known_of_entry h
  have hcounts := hfree ⟨hknown, hlive, houtput.symm⟩
  cases hasks with
  | count => rfl
  | applied _ hother => exact absurd hcounts hother

/-! ## The key -/

section Reads

variable {pairs : Entries Value}

/-- Something is written under the key exactly if a row takes it. -/
theorem mem_keys_of_reads_iff (h : Rows.Reads entry index rows pairs) :
    "_id" ∈ Entries.keys pairs ↔ ∃ row ∈ rows, TakesKey row := by
  rw [follows_entry.keys_of_reads h, List.mem_map]
  constructor
  · rintro ⟨row, hrow, houtput⟩
    obtain ⟨hmem, hlive⟩ := List.mem_filter.1 hrow
    obtain ⟨index, given, hgiven⟩ := h.exists_given row hmem
    exact ⟨row, hmem, (known_of_entry hgiven).1, by simpa using hlive, houtput⟩
  · rintro ⟨row, hmem, -, hlive, houtput⟩
    exact ⟨row, List.mem_filter.2 ⟨hmem, by simpa using hlive⟩, houtput⟩

/-- What is last written under the key is the count. -/
theorem get?_reverse_of_reads (h : Rows.Reads entry index rows pairs)
    (hmem : "_id" ∈ Entries.keys pairs) : Entries.get? "_id" pairs.reverse = some count := by
  have hlast : "_id" ∈ Entries.keys pairs.reverse := by simpa [Entries.keys] using hmem
  obtain ⟨last, hget⟩ := Entries.exists_get?_of_mem_keys hlast
  have hpair : ("_id", last) ∈ pairs := List.mem_reverse.1 (Entries.mem_of_get? hget)
  obtain ⟨row, -, index, hrow⟩ := h.exists_row _ hpair
  rw [hget, eq_count_of_entry hrow]

/-- The parameters of a group whose rows are read: the key comes first, and it is replaced by the
count if a row takes it. -/
theorem exists_params_of_gather {first : Value} {entries : Entries Value}
    (h : Rows.gather entry 0 rows [("_id", first)] = .ok entries) :
    ∃ value others, entries = ("_id", value) :: others ∧ "_id" ∉ Entries.keys others ∧
      ((∀ row ∈ rows, ¬ TakesKey row) → value = first) ∧
      ((∃ row ∈ rows, TakesKey row) → value = count) := by
  obtain ⟨pairs, hreads, hentries⟩ := Rows.gather_eq_ok_iff.1 h
  have hkeys := Entries.keys_foldl_insert pairs [("_id", first)]
  have hget := Entries.get?_foldl_insert "_id" pairs [("_id", first)]
  rw [← hentries] at hkeys hget
  have hfirst : Entries.get? "_id" [("_id", first)] = some first := rfl
  rw [hfirst] at hget
  cases entries with
  | nil => cases hkeys
  | cons head others =>
      obtain ⟨name, value⟩ := head
      obtain ⟨hname, hothers⟩ : name = "_id" ∧ Entries.keys others =
          ((Entries.keys pairs).removeAll ["_id"]).eraseDups := List.cons.inj hkeys
      subst hname
      have hvalue : Entries.get? "_id" (("_id", value) :: others) = some value := by
        simp [Entries.get?]
      rw [hvalue] at hget
      refine ⟨value, others, rfl, by simp [hothers, List.removeAll], fun hnone => ?_,
        fun htaken => ?_⟩
      · have hnot : "_id" ∉ Entries.keys pairs := by
          rw [mem_keys_of_reads_iff hreads]
          rintro ⟨row, hmem, htakes⟩
          exact hnone row hmem htakes
        have hlast : "_id" ∉ Entries.keys pairs.reverse := by simpa [Entries.keys] using hnot
        rw [Entries.get?_eq_none_of_not_mem hlast] at hget
        exact Option.some.inj hget
      · rw [get?_reverse_of_reads hreads ((mem_keys_of_reads_iff hreads).2 htaken)] at hget
        exact Option.some.inj hget

end Reads

theorem compile_eq (hsettings : Rows.HasSettings config settings)
    (hrows : Rows.HasRows settings "accumulators" rows) :
    compile config = (Rows.gather entry 0 rows [("_id", key (Value.field settings "_id"))]).bind
      fun entries => .ok ⟨"$group", .object entries⟩ :=
  Rows.read_eq hsettings hrows

/-- No row is refused, and none takes the key. -/
def Passes (row : Entries Value) : Prop :=
  operatorOf row ∈ accumulators ∧ ¬ TakesKey row ∧ (IsLive row → ∃ value, Asks row value)

theorem passes_of_entry {given : Option (String × Value)} (h : entry index row = .ok given)
    (hfree : ¬ TakesKey row) : Passes row := by
  refine ⟨(known_of_entry h).1, hfree, fun hlive => ?_⟩
  cases given with
  | none => exact absurd hlive (follows_entry.skips h)
  | some pair => exact ⟨pair.2, (follows_entry.takes h).2.2⟩

theorem exists_entry_of_passes (h : Passes row) (index : Nat) :
    ∃ given, entry index row = .ok given := by
  obtain ⟨hknown, hfree, hasks⟩ := h
  have hgives := gives_entry index row
  generalize entry index row = given at hgives ⊢
  cases hgives with
  | nothing | accumulator => exact ⟨_, rfl⟩
  | unknown hunknown => exact absurd hknown hunknown
  | keyTaken htakes => exact absurd htakes hfree
  | overlong numeral hlive _ hcounts hargument =>
      obtain ⟨value, hvalue⟩ := hasks hlive
      cases hvalue with
      | count hother => exact absurd hother hcounts
      | applied typed _ htyped => cases hargument.symm.trans htyped

/-- What becomes of the key of a group, whatever its rows: it is the first parameter, as it is, and
a row that takes it is refused by its field, if no row before it is refused. -/
structure Protects (settings : Entries Value) (rows : List (Entries Value))
    (result : Except Refusal CompiledStage) : Prop where
  keeps : ∀ stage, result = .ok stage → ∃ others, "_id" ∉ Entries.keys others ∧
    stage = ⟨"$group", .object (("_id", key (Value.field settings "_id")) :: others)⟩
  refuses : ∀ before row after, rows = before ++ row :: after → (∀ other ∈ before, Passes other) →
    TakesKey row → result = .error (.invalid (.groupKeyTaken before.length))

/-- The first row that takes the key counts, and no row before it is refused. -/
def CountsUnderKey (rows : List (Entries Value)) : Prop :=
  ∃ before row after, rows = before ++ row :: after ∧ (∀ other ∈ before, Passes other) ∧
    TakesKey row ∧ operatorOf row = "count"

theorem not_countsUnderKey (h : ∀ row ∈ rows, TakesKey row → operatorOf row ≠ "count") :
    ¬ CountsUnderKey rows := by
  rintro ⟨before, row, after, rfl, -, htakes, hcounts⟩
  exact h row (by simp) htakes hcounts

/-- If a row takes the key, then one is the first to do so. -/
theorem exists_first_takesKey (h : ∃ row ∈ rows, TakesKey row) :
    ∃ before row after, rows = before ++ row :: after ∧ (∀ other ∈ before, ¬ TakesKey other) ∧
      TakesKey row := by
  obtain ⟨row, hrow⟩ : ∃ row, rows.find? (TakesKey ·) = some row := by
    rw [← Option.isSome_iff_exists, List.find?_isSome]
    simpa using h
  obtain ⟨htakes, before, after, hrows, hbefore⟩ := List.find?_eq_some_iff_append.1 hrow
  exact ⟨before, row, after, hrows, by simpa using hbefore, by simpa using htakes⟩

/-- A row before which all rows pass is refused with the group. -/
theorem compile_eq_error_of_entry (hsettings : Rows.HasSettings config settings)
    (hrows : Rows.HasRows settings "accumulators" rows) {before after : List (Entries Value)}
    {refusal : Refusal} (hsplit : rows = before ++ row :: after)
    (hbefore : ∀ other ∈ before, Passes other)
    (hrow : entry before.length row = .error refusal) : compile config = .error refusal := by
  obtain ⟨pairs, hreads⟩ := Rows.exists_reads
    (fun other hother index => exists_entry_of_passes (hbefore other hother) index) 0
  rw [compile_eq hsettings hrows, Rows.gather_eq_error_iff.2
    ⟨before, row, after, pairs, hsplit, hreads, by rwa [Nat.zero_add]⟩]
  rfl

/-- What compiles as a group has rows that are read. -/
theorem exists_gather_of_compile {stage : CompiledStage}
    (hsettings : Rows.HasSettings config settings)
    (hrows : Rows.HasRows settings "accumulators" rows) (h : compile config = .ok stage) :
    ∃ entries, Rows.gather entry 0 rows [("_id", key (Value.field settings "_id"))] = .ok entries ∧
      stage = ⟨"$group", .object entries⟩ := by
  rw [compile_eq hsettings hrows] at h
  obtain ⟨entries, hgather, hstage⟩ := Rows.bind_eq_ok_iff.1 h
  exact ⟨entries, hgather, (Except.ok.inj hstage).symm⟩

theorem protects_compile (hsettings : Rows.HasSettings config settings)
    (hrows : Rows.HasRows settings "accumulators" rows) (hfree : ¬ CountsUnderKey rows) :
    Protects settings rows (compile config) where
  keeps := by
    intro stage hstage
    obtain ⟨entries, hgather, rfl⟩ := exists_gather_of_compile hsettings hrows hstage
    obtain ⟨value, others, rfl, hothers, hkey, -⟩ := exists_params_of_gather hgather
    obtain ⟨pairs, hreads, -⟩ := Rows.gather_eq_ok_iff.1 hgather
    -- the first row that takes the key was not refused, so it counts
    have hnone : ∀ row ∈ rows, ¬ TakesKey row := by
      by_contra htaken
      push Not at htaken
      obtain ⟨before, row, after, hsplit, hbefore, htakes⟩ := exists_first_takesKey htaken
      have hgiven : ∀ other ∈ before ++ row :: after, ∃ index given,
          entry index other = .ok given := hsplit ▸ hreads.exists_given
      obtain ⟨index, given, hrow⟩ := hgiven row (by simp)
      refine hfree ⟨before, row, after, hsplit, fun other hother => ?_, htakes,
        (known_of_entry hrow).2 htakes⟩
      obtain ⟨index, given, hother'⟩ := hgiven other (List.mem_append_left _ hother)
      exact passes_of_entry hother' (hbefore other hother)
    exact ⟨others, hothers, by rw [hkey hnone]⟩
  refuses := by
    intro before row after hsplit hbefore htakes
    have hcounts : operatorOf row ≠ "count" := fun hcounts =>
      hfree ⟨before, row, after, hsplit, hbefore, htakes, hcounts⟩
    exact compile_eq_error_of_entry hsettings hrows hsplit hbefore
      (entry_of_takesKey before.length htakes hcounts)

/-- A row that counts under the key is not refused for it. -/
theorem compile_ne_keyTaken (hsettings : Rows.HasSettings config settings)
    (hrows : Rows.HasRows settings "accumulators" rows) {before after : List (Entries Value)}
    (hsplit : rows = before ++ row :: after) (hcounts : operatorOf row = "count") :
    compile config ≠ .error (.invalid (.groupKeyTaken before.length)) := by
  intro hrefused
  rw [compile_eq hsettings hrows] at hrefused
  cases hgather : Rows.gather entry 0 rows [("_id", key (Value.field settings "_id"))] with
  | ok entries =>
      rw [hgather] at hrefused
      cases hrefused
  | error refusal =>
      rw [hgather] at hrefused
      cases hrefused
      obtain ⟨first, refused, rest, _, hother, -, hrow⟩ := Rows.gather_eq_error_iff.1 hgather
      rw [Nat.zero_add] at hrow
      have hgives := gives_entry first.length refused
      rw [hrow] at hgives
      generalize hindex : first.length = index at hgives
      generalize hlength : before.length = length at hgives
      cases hgives with
      | keyTaken _ hnot =>
          have hrows := hsplit.symm.trans hother
          obtain ⟨-, hrest⟩ := List.append_inj hrows (by rw [hlength, hindex])
          exact hnot ((List.cons.inj hrest).1 ▸ hcounts)

/-- The parameters of every group that compiles start with the key, which is its own key unless a
row takes it; such a row counts, and the key is replaced by the count. So the key is protected
exactly if no row that counts is the first to take it. -/
theorem protects_iff (config : Value) :
    (∀ stage, compile config = .ok stage → ∃ settings rows value others,
      Rows.HasSettings config settings ∧ Rows.HasRows settings "accumulators" rows ∧
      stage = ⟨"$group", .object (("_id", value) :: others)⟩ ∧ "_id" ∉ Entries.keys others ∧
      ((∀ row ∈ rows, ¬ TakesKey row) → value = key (Value.field settings "_id")) ∧
      ((∃ row ∈ rows, TakesKey row) → value = count)) ∧
    (∀ settings rows, Rows.HasSettings config settings →
      Rows.HasRows settings "accumulators" rows →
        (Protects settings rows (compile config) ↔ ¬ CountsUnderKey rows)) ∧
    ∀ index, (StageFault.groupKeyTaken index).field =
      "accumulators[" ++ StageFault.decimal index ++ "].field" := by
  refine ⟨fun stage hstage => ?_, fun settings rows hsettings hrows => ⟨?_, ?_⟩, fun index => ?_⟩
  · obtain ⟨settings, rows, hsettings, hrows, -⟩ := Rows.exists_rows_of_read hstage
    obtain ⟨entries, hgather, rfl⟩ := exists_gather_of_compile hsettings hrows hstage
    obtain ⟨value, others, rfl, hothers, hkey, hcount⟩ := exists_params_of_gather hgather
    exact ⟨settings, rows, value, others, hsettings, hrows, rfl, hothers, hkey, hcount⟩
  · rintro hprotects ⟨before, row, after, hsplit, hbefore, htakes, hcounts⟩
    exact compile_ne_keyTaken hsettings hrows hsplit hcounts
      (hprotects.refuses before row after hsplit hbefore htakes)
  · exact protects_compile hsettings hrows
  · simp [StageFault.field, StageFault.rowName, String.append_assoc]

/-- Settings with a key and rows. -/
def settingsOf (key : String) (rows : List (Entries Value)) : Entries Value :=
  [("_id", .text key), ("accumulators", .list (rows.map .object))]

/-- A row in texts. -/
def rowOf (field operator expression : String) : Entries Value :=
  [("field", .text field), ("operator", .text operator), ("expression", .text expression)]

/-- A sum, a count and a row without an output field. -/
def spending : List (Entries Value) :=
  [rowOf "total" "sum" "$amount", rowOf " n" "count" "", rowOf "" "avg" "$x"]

/-- The rows of `spending`, then an average under the key. -/
def refusedSpending : List (Entries Value) := spending ++ [rowOf "_id" "avg" "$x"]

/-- The rows of `spending` leave the key as it is, and the average under it is refused. -/
theorem protects_spending :
    (∃ others, compile (.object (settingsOf " $$category" spending)) =
      .ok ⟨"$group", .object (("_id", .text "$category") :: others)⟩) ∧
    compile (.object (settingsOf " $$category" refusedSpending)) =
      .error (.invalid (.groupKeyTaken 3)) := by
  have hread : ∀ row ∈ spending, (entry 0 row).isOk = true ∧ ¬ TakesKey row := by decide +kernel
  have hpasses : ∀ row ∈ spending, Passes row := by
    intro row hrow
    obtain ⟨hok, hfree⟩ := hread row hrow
    cases hentry : entry 0 row with
    | ok given => exact passes_of_entry hentry hfree
    | error refusal =>
        rw [hentry] at hok
        cases hok
  constructor
  · obtain ⟨stage, hstage⟩ : ∃ stage,
        compile (.object (settingsOf " $$category" spending)) = .ok stage := ⟨_, rfl⟩
    have hprotects := ((protects_iff (.object (settingsOf " $$category" spending))).2.1 _
      spending (.object _) (.listed _ rfl)).2 (not_countsUnderKey (by decide +kernel))
    obtain ⟨others, -, rfl⟩ := hprotects.keeps stage hstage
    exact ⟨others, hstage⟩
  · have hprotects := ((protects_iff (.object (settingsOf " $$category" refusedSpending))).2.1 _
      refusedSpending (.object _) (.listed _ rfl)).2 (not_countsUnderKey (by decide +kernel))
    exact hprotects.refuses spending _ [] rfl hpasses (by decide +kernel)

/-- One row, which counts under the key. -/
def countUnderKey : List (Entries Value) := [rowOf "_id" "count" ""]

/-- A group with a row that counts under the key compiles, and its key is the count. -/
theorem replaces_countUnderKey :
    compile (.object (settingsOf "category" countUnderKey)) =
        .ok ⟨"$group", .object [("_id", .object [("$count", .object [])])]⟩ ∧
      key (.text "category") = .text "$category" ∧
      ¬ Protects (settingsOf "category" countUnderKey) countUnderKey
        (compile (.object (settingsOf "category" countUnderKey))) := by
  refine ⟨by decide +kernel, by decide +kernel, fun hprotects => ?_⟩
  have hrefused := hprotects.refuses [] (rowOf "_id" "count" "") [] rfl (by simp)
    (by decide +kernel)
  exact absurd hrefused (by decide +kernel)

end StageChain.Grouping
