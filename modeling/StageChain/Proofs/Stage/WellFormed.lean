import StageChain.Proofs.Entries
import StageChain.Stage.Catalog

/-!
# Compiled stages repeat no key

If no object in a configuration repeats a key, then no object in the parameters of its stage does:
`ensures_compileStage`. `Ensures` says of a computation that its result has a property where it
succeeds, and is carried through sequences of computations by `Ensures.bind`.
-/

namespace StageChain

/-- Where a computation succeeds, its result has a property. -/
def Ensures {ε α : Type} (x : Except ε α) (P : α → Prop) : Prop := ∀ a, x = .ok a → P a

namespace Ensures

variable {ε φ α β : Type} {x : Except ε α} {P : α → Prop} {Q : β → Prop}

theorem ok {a : α} (h : P a) : Ensures (.ok a : Except ε α) P := by
  rintro _ ⟨⟩
  exact h

theorem error (fault : ε) : Ensures (.error fault) P := by
  rintro _ ⟨⟩

theorem map {f : α → β} (hx : Ensures x P) (hf : ∀ a, P a → Q (f a)) : Ensures (x.map f) Q := by
  cases x with
  | error fault => exact error fault
  | ok a => exact ok (hf a (hx a rfl))

theorem bind {f : α → Except ε β} (hx : Ensures x P) (hf : ∀ a, P a → Ensures (f a) Q) :
    Ensures (x >>= f) Q := by
  cases x with
  | error fault => exact error fault
  | ok a => exact hf a (hx a rfl)

theorem mapError {f : ε → φ} (hx : Ensures x P) : Ensures (x.mapError f) P := by
  cases x with
  | error fault => exact error (f fault)
  | ok a => exact ok (hx a rfl)

end Ensures

/-! ## Well-formed values -/

namespace Value

variable {value : Value} {entries : Entries Value} {items : List Value} {key : String}

theorem entriesWellFormed_iff :
    EntriesWellFormed entries ↔ ∀ entry ∈ entries, entry.2.WellFormed := by
  induction entries with
  | nil => simp [EntriesWellFormed]
  | cons entry entries ih => simp [EntriesWellFormed, ih]

theorem wellFormed_field (h : EntriesWellFormed entries) (key : String) :
    (field entries key).WellFormed := by
  induction entries with
  | nil => trivial
  | cons entry entries ih =>
      obtain ⟨first, value⟩ := entry
      unfold field Entries.get? at ih ⊢
      rw [List.lookup_cons]
      split
      · exact h.1
      · exact ih h.2

theorem entriesWellFormed_insert (hvalue : value.WellFormed) (h : EntriesWellFormed entries) :
    EntriesWellFormed (Entries.insert key value entries) := by
  induction entries with
  | nil => exact ⟨hvalue, trivial⟩
  | cons entry entries ih =>
      unfold Entries.insert
      split
      · exact ⟨hvalue, h.2⟩
      · exact ⟨h.1, ih h.2⟩

theorem wellFormed_insert (hvalue : value.WellFormed) (h : (object entries).WellFormed) :
    (object (Entries.insert key value entries)).WellFormed :=
  ⟨Entries.nodup_keys_insert h.1, entriesWellFormed_insert hvalue h.2⟩

/-- An object of one entry repeats no key. -/
theorem wellFormed_single (key : String) (hvalue : value.WellFormed) :
    (object [(key, value)]).WellFormed := ⟨List.nodup_singleton key, hvalue, trivial⟩

end Value

open Value

variable {config value : Value} {settings row result : Entries Value} {operator key : String}
  {index : Nat}

/-! ## Rows -/

namespace Rows

theorem ensures_settings (hwf : config.WellFormed) :
    Ensures (Rows.settings config) EntriesWellFormed := by
  unfold Rows.settings
  split
  · exact .ok trivial
  · exact .ok hwf.2
  · exact .error _

theorem ensures_objects {items : List Value} (hwf : ItemsWellFormed items) (index : Nat) :
    Ensures (objects key index items) fun rows => ∀ row ∈ rows, EntriesWellFormed row := by
  induction items generalizing index with
  | nil => exact .ok (by simp)
  | cons item items ih =>
      cases item with
      | object row =>
          exact (ih hwf.2 _).map fun rows hrows => List.forall_mem_cons.2 ⟨hwf.1.2, hrows⟩
      | _ => exact .error _

theorem ensures_rowsOf (hwf : value.WellFormed) :
    Ensures (rowsOf key value) fun rows => ∀ row ∈ rows, EntriesWellFormed row := by
  unfold rowsOf
  split
  · exact .ok (by simp)
  · exact ensures_objects hwf 0
  · exact .error _

theorem ensures_rows (hwf : EntriesWellFormed settings) (key : String) :
    Ensures (rows settings key) fun rows => ∀ row ∈ rows, EntriesWellFormed row :=
  ensures_rowsOf (wellFormed_field hwf key)

/-- What rows give is gathered without repeating a key. -/
theorem ensures_gather {ρ : Type} {entry : Nat → ρ → Except Refusal (Option (String × Value))}
    {rows : List ρ} (hentry : ∀ row ∈ rows, ∀ index,
      Ensures (entry index row) fun given => ∀ pair ∈ given, pair.2.WellFormed)
    (index : Nat) (hresult : (object result).WellFormed) :
    Ensures (gather entry index rows result) fun entries => (object entries).WellFormed := by
  induction rows generalizing index result with
  | nil => exact .ok hresult
  | cons row rows ih =>
      obtain ⟨hrow, hrows⟩ := List.forall_mem_cons.1 hentry
      refine .bind (hrow index) fun given hgiven => ?_
      cases given with
      | none => exact ih hrows _ hresult
      | some pair => exact ih hrows _ (wellFormed_insert (hgiven pair rfl) hresult)

theorem ensures_stageOfEntries (h : (object result).WellFormed) :
    Ensures (stageOfEntries operator result) fun stage => stage.params.WellFormed := by
  unfold stageOfEntries
  split
  · exact .error _
  · exact .ok h

end Rows

/-! ## Typed values -/

namespace Literal

theorem wellFormed_double? {chars : List Char} (h : double? chars = some value) :
    value.WellFormed := by
  obtain ⟨numeral, -, hnumeral⟩ := Option.bind_eq_some_iff.1 h
  simp only at hnumeral
  split at hnumeral
  · cases hnumeral
    trivial
  · cases hnumeral

theorem ensures_number (text : String) :
    Ensures (number text) fun found => ∀ value ∈ found, value.WellFormed := by
  unfold number numberOfChars
  split
  · refine Ensures.map (P := fun _ => True) (fun _ _ => trivial) fun n _ value hvalue => ?_
    split at hvalue
    · cases hvalue
      trivial
    · exact wellFormed_double? hvalue
  · exact .ok fun value hvalue => wellFormed_double? hvalue

/-- The number in a text, or another value for it. -/
theorem ensures_number_getD (text : String) {default : Value} (hdefault : default.WellFormed) :
    Ensures ((number text).map (·.getD default)) WellFormed := by
  refine (ensures_number text).map fun found hfound => ?_
  cases found with
  | none => exact hdefault
  | some value => exact hfound value rfl

theorem wellFormed_wordOf (text : String) : (wordOf text).WellFormed := by
  simp only [wordOf]
  split
  · trivial
  · split <;> trivial

mutual

theorem ensures_coerce : ∀ {value : Value}, value.WellFormed → Ensures (coerce value) WellFormed
  | .text written, _ => ensures_number_getD written (wellFormed_wordOf written)
  | .list _, h => (ensures_coerceItems h).map fun _ hitems => hitems
  | .null, _ | .bool _, _ | .int _, _ | .float _, _ => .ok trivial
  | .object _, h => .ok h

theorem ensures_coerceItems :
    ∀ {items : List Value}, ItemsWellFormed items → Ensures (coerceItems items) ItemsWellFormed
  | [], _ => .ok trivial
  | _ :: _, h => .bind (ensures_coerce h.1) fun _ hfirst =>
      .bind (ensures_coerceItems h.2) fun _ hothers => .ok ⟨hfirst, hothers⟩

end

theorem ensures_expression (h : value.WellFormed) : Ensures (expression value) WellFormed := by
  unfold expression
  split
  · unfold expressionText
    split
    · exact .ok trivial
    split
    · exact .ok trivial
    split
    · exact .ok trivial
    · exact ensures_number_getD _ trivial
  · exact .ok h

end Literal

/-! ## Stages -/

/-- What a row gives repeats no key. -/
def GivesWellFormed (given : Except Refusal (Option (String × Value))) : Prop :=
  Ensures given fun given => ∀ pair ∈ given, pair.2.WellFormed

namespace GivesWellFormed

theorem nothing : GivesWellFormed (.ok none) := .ok nofun

theorem pair (key : String) (hvalue : value.WellFormed) :
    GivesWellFormed (.ok (some (key, value))) := by
  refine .ok ?_
  rintro _ ⟨⟩
  exact hvalue

theorem map {x : Except Refusal Value} {wrap : Value → Value} (key : String)
    (hx : Ensures x WellFormed) (hwrap : ∀ typed, typed.WellFormed → (wrap typed).WellFormed) :
    GivesWellFormed (x.map fun typed => some (key, wrap typed)) := by
  refine Ensures.map hx fun typed htyped => ?_
  rintro _ ⟨⟩
  exact hwrap typed htyped

end GivesWellFormed

theorem Filter.wellFormed_predicate {comparison : String} {predicate : Value → Value}
    (h : Filter.predicate? comparison = some predicate) (hvalue : value.WellFormed) :
    (predicate value).WellFormed := by
  unfold Filter.predicate? at h
  split at h
  · cases h
    exact hvalue
  · obtain ⟨operator, -, rfl⟩ := Option.map_eq_some_iff.1 h
    exact wellFormed_single operator hvalue

theorem Filter.givesWellFormed_entry (hrow : EntriesWellFormed row) :
    GivesWellFormed (Filter.entry index row) := by
  simp only [Filter.entry]
  split
  · exact .nothing
  split
  · rename_i predicate hpredicate
    exact .map _ (Literal.ensures_coerce (wellFormed_field hrow _)).mapError fun typed htyped =>
      wellFormed_predicate hpredicate htyped
  · exact .error _

theorem Filter.ensures_conditions (hwf : config.WellFormed) :
    Ensures (Filter.conditions config) fun rows => ∀ row ∈ rows, EntriesWellFormed row := by
  unfold Filter.conditions
  split
  · exact Rows.ensures_rowsOf hwf
  · exact .bind (Rows.ensures_settings hwf) fun settings hsettings =>
      Rows.ensures_rows hsettings _

theorem Grouping.key_cases (value : Value) :
    Grouping.key value = value ∨ Grouping.key value = .null ∨
      ∃ name, Grouping.key value = .text name := by
  unfold Grouping.key
  split
  · exact .inl rfl
  · exact .inl rfl
  · right
    simp only
    split
    · exact .inl rfl
    · exact .inr ⟨_, rfl⟩

theorem Grouping.wellFormed_key (hwf : value.WellFormed) : (Grouping.key value).WellFormed := by
  rcases Grouping.key_cases value with hkey | hkey | ⟨name, hkey⟩ <;> rw [hkey]
  · exact hwf
  · trivial
  · trivial

theorem Grouping.givesWellFormed_entry (hrow : EntriesWellFormed row) :
    GivesWellFormed (Grouping.entry index row) := by
  have hexpression := wellFormed_field hrow "expression"
  simp only [Grouping.entry]
  split
  · exact .error _
  split
  · split
    · exact .nothing
    · exact .pair _ (wellFormed_single _ ⟨List.nodup_nil, trivial⟩)
  split
  · exact .nothing
  split
  · exact .error _
  · refine .map _ (Ensures.mapError ?_) fun typed htyped => wellFormed_single _ htyped
    unfold Grouping.argument
    split
    · split
      · exact .ok hexpression
      · exact Literal.ensures_coerce hexpression
    · exact Literal.ensures_coerce hexpression

theorem Ordering.givesWellFormed_entry : GivesWellFormed (Ordering.entry index row) := by
  simp only [Ordering.entry]
  split
  · exact .nothing
  · refine Ensures.map (P := fun _ => True) (fun _ _ => trivial) fun direction _ => ?_
    rintro _ ⟨⟩
    trivial

theorem Projection.givesWellFormed_entry (hrow : EntriesWellFormed row) :
    GivesWellFormed (Projection.entry index row) := by
  simp only [Projection.entry]
  split
  · exact .nothing
  split
  · exact .pair _ trivial
  split
  · exact .pair _ trivial
  split
  · split
    · exact .error _
    · exact .map _ (Literal.ensures_expression (wellFormed_field hrow _)).mapError fun _ h => h
  · exact .error _

theorem Addition.givesWellFormed_entry {pair : String × Value} (hpair : pair.2.WellFormed) :
    GivesWellFormed (Addition.entry pair) := by
  unfold Addition.entry
  split
  · exact .nothing
  split
  · exact .error _
  split
  · exact .nothing
  · exact .map _ (Literal.ensures_expression hpair).mapError fun _ h => h

theorem Addition.ensures_pairs (hsettings : EntriesWellFormed settings) :
    Ensures (Addition.pairs settings) fun pairs => ∀ pair ∈ pairs, pair.2.WellFormed := by
  have hfields := wellFormed_field hsettings "fields"
  unfold Addition.pairs
  split
  · rename_i entries hentries
    rw [hentries] at hfields
    refine .ok fun pair hpair => ?_
    obtain ⟨entry, hentry, rfl⟩ := List.mem_map.1 hpair
    exact entriesWellFormed_iff.1 hfields.2 entry hentry
  · refine (Rows.ensures_rowsOf hfields).map fun rows hrows pair hpair => ?_
    obtain ⟨row, hrow, rfl⟩ := List.mem_map.1 hpair
    exact wellFormed_field (hrows row hrow) _

theorem Unwind.ensures_params {path : String} :
    Ensures (Unwind.params settings path) fun entries => (object entries).WellFormed := by
  simp only [Unwind.params]
  split
  · exact .error _
  split
  · exact .error _
  · refine .ok ?_
    split <;> split <;> simp [Entries.keys, EntriesWellFormed, WellFormed]

/-- A stage of each kind repeats no key, if its configuration repeats none. -/
theorem StageKind.ensures_compile (kind : StageKind) (hwf : config.WellFormed) :
    Ensures (kind.compile config) fun stage => stage.params.WellFormed := by
  have hempty : (object []).WellFormed := ⟨List.nodup_nil, trivial⟩
  have hsettings := (Rows.ensures_settings hwf).mapError (f := Refusal.invalid)
  cases kind with
  | filter =>
      refine .bind (Filter.ensures_conditions hwf).mapError fun rows hrows => ?_
      refine .bind (Rows.ensures_gather (fun row hrow _ =>
        Filter.givesWellFormed_entry (hrows row hrow)) 0 hempty) fun entries hentries => ?_
      exact Rows.ensures_stageOfEntries hentries
  | group =>
      refine .bind hsettings fun settings hsettings => ?_
      refine .bind (Rows.ensures_rows hsettings _).mapError fun rows hrows => ?_
      have hid := Grouping.wellFormed_key (wellFormed_field hsettings "_id")
      have hkey := wellFormed_single "_id" hid
      refine .bind (Rows.ensures_gather (fun row hrow _ =>
        Grouping.givesWellFormed_entry (hrows row hrow)) 0 hkey) fun entries hentries => ?_
      exact .ok hentries
  | project =>
      refine .bind hsettings fun settings hsettings => ?_
      refine .bind (Rows.ensures_rows hsettings _).mapError fun rows hrows => ?_
      refine .bind (Rows.ensures_gather (fun row hrow _ =>
        Projection.givesWellFormed_entry (hrows row hrow)) 0 hempty) fun entries hentries => ?_
      refine .ok ?_
      unfold Projection.complete
      split
      · exact wellFormed_single _ trivial
      · exact hentries
  | sort =>
      refine .bind hsettings fun settings hsettings => ?_
      refine .bind (Rows.ensures_rows hsettings _).mapError fun rows _ => ?_
      refine .bind (Rows.ensures_gather (fun _ _ _ => Ordering.givesWellFormed_entry) 0 hempty)
        fun entries hentries => ?_
      exact Rows.ensures_stageOfEntries hentries
  | limit | skip =>
      refine .bind hsettings fun settings _ => ?_
      refine .bind (P := fun _ => True) (fun _ _ => trivial) fun n _ => ?_
      exact .bind (P := fun _ => True) (fun _ _ => trivial) fun amount _ => .ok trivial
  | unwind =>
      refine .bind hsettings fun settings _ => ?_
      simp only
      split
      · exact .error _
      · exact .bind Unwind.ensures_params.mapError fun entries hentries => .ok hentries
  | lookup =>
      refine .bind hsettings fun settings _ => ?_
      simp only
      split
      · exact .error _
      split
      · exact .error _
      · refine .ok ?_
        simp [Join.required, Entries.mapValues, Entries.keys, EntriesWellFormed, WellFormed]
  | addFields =>
      refine .bind hsettings fun settings hsettings => ?_
      refine .bind (Addition.ensures_pairs hsettings).mapError fun pairs hpairs => ?_
      refine .bind (Rows.ensures_gather (fun pair hpair _ =>
        Addition.givesWellFormed_entry (hpairs pair hpair)) 0 hempty) fun entries hentries => ?_
      exact Rows.ensures_stageOfEntries hentries
  | count =>
      refine .bind hsettings fun settings _ => ?_
      exact .bind (P := fun _ => True) (fun _ _ => trivial) fun name _ => .ok trivial

/-- Compiled stages repeat no key, if their configurations repeat none. -/
theorem ensures_compileStage (type : String) (hwf : config.WellFormed) :
    Ensures (compileStage type config) fun stage => stage.params.WellFormed := by
  unfold compileStage
  split
  · exact StageKind.ensures_compile _ hwf
  · exact .error _

end StageChain
