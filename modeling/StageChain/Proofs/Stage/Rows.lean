import StageChain.Proofs.Entries
import StageChain.Stage.Rows

/-!
# Runs over rows

`HasSettings` and `HasRows` say which rows a configuration has, whether its values are there or not;
what is made of a configuration is made of these: `read_eq` and `exists_rows_of_read`.

`Rows.gather` goes over rows, each of which gives an entry, gives nothing, or ends the run. `Reads`
says what rows give one after another, and a run that is ended has read all rows before the one that
ends it: `gather_eq_ok_iff` and `gather_eq_error_iff`.

Where rows that count ask for a value under a name, and the others give nothing, the result is
`Gathered`: it has each name in the place in which it comes first, with what the last row of that
name asks for.
-/

namespace StageChain.Rows

/-! ## The rows of a configuration -/

section Shape

variable {key : String} {value : Value} {rows : List (Entries Value)}

theorem objects_eq_ok_iff {index : Nat} {items : List Value} :
    objects key index items = .ok rows ↔ items = rows.map .object := by
  induction items generalizing index rows with
  | nil => simp [objects, eq_comm]
  | cons item items ih =>
      cases item with
      | object row =>
          show (objects key (index + 1) items).map (row :: ·) = .ok rows ↔ _
          cases hrest : objects key (index + 1) items with
          | error fault =>
              refine iff_of_false (by simp [Except.map]) fun hitems => ?_
              obtain ⟨_, others, rfl, -, hothers⟩ := List.map_eq_cons_iff.1 hitems.symm
              rw [ih.2 hothers.symm] at hrest
              cases hrest
          | ok others =>
              have hitems := ih.1 hrest
              rw [hitems]
              cases rows with
              | nil => simp [Except.map]
              | cons first rows =>
                  have hinj : Function.Injective (List.map Value.object) :=
                    List.map_injective_iff.2 fun _ _ hsame => Value.object.inj hsame
                  simp [Except.map, hinj.eq_iff]
      | _ =>
          refine iff_of_false (by simp [objects]) fun hitems => ?_
          obtain ⟨row, _, -, hrow, -⟩ := List.map_eq_cons_iff.1 hitems.symm
          cases hrow

/-- The value at the index is no object, and all those before it are. -/
inductive IsFirstStray : List Value → Nat → Prop where
  | here (item : Value) (items : List Value) (h : ∀ row, item ≠ .object row) :
      IsFirstStray (item :: items) 0
  | later (row : Entries Value) (items : List Value) (offset : Nat)
      (h : IsFirstStray items offset) : IsFirstStray (.object row :: items) (offset + 1)

/-- The first value that is no object is named by its index. -/
theorem objects_eq_error_iff {index : Nat} {items : List Value} {fault : StageFault} :
    objects key index items = .error fault ↔
      ∃ offset, IsFirstStray items offset ∧ fault = .rowNotObject key (index + offset) := by
  induction items generalizing index with
  | nil => exact iff_of_false nofun fun ⟨_, hstray, _⟩ => nomatch hstray
  | cons item items ih =>
      by_cases hobject : ∃ row, item = .object row
      · obtain ⟨row, rfl⟩ := hobject
        have hrest : objects key index (.object row :: items) = .error fault ↔
            objects key (index + 1) items = .error fault := by
          show (objects key (index + 1) items).map (row :: ·) = .error fault ↔ _
          cases objects key (index + 1) items <;> simp [Except.map]
        rw [hrest, ih]
        constructor
        · rintro ⟨offset, hstray, rfl⟩
          exact ⟨offset + 1, .later row items offset hstray,
            by rw [Nat.add_right_comm, Nat.add_assoc]⟩
        · rintro ⟨_, hstray, rfl⟩
          cases hstray with
          | here _ _ hitem => exact absurd rfl (hitem row)
          | later _ _ offset hstray =>
              exact ⟨offset, hstray, by rw [Nat.add_right_comm, Nat.add_assoc]⟩
      · have hitem : ∀ row, item ≠ .object row := not_exists.1 hobject
        have hstop : objects key index (item :: items) = .error (.rowNotObject key index) := by
          cases item with
          | object row => exact absurd rfl (hitem row)
          | _ => rfl
        rw [hstop]
        constructor
        · rintro ⟨⟩
          exact ⟨0, .here item items hitem, rfl⟩
        · rintro ⟨_, hstray, rfl⟩
          cases hstray with
          | here => rfl
          | later row => exact absurd rfl (hitem row)

/-- The rows of a value are objects in a list, or null stands for none. -/
theorem rowsOf_eq_ok_iff :
    rowsOf key value = .ok rows ↔
      value = .list (rows.map .object) ∨ value = .null ∧ rows = [] := by
  cases value with
  | null => simp [rowsOf, eq_comm]
  | list items => simp [rowsOf, objects_eq_ok_iff]
  | _ => simp [rowsOf]

/-- The entries of a configuration: those of an object, and null stands for none. -/
inductive HasSettings : Value → Entries Value → Prop where
  | object (entries : Entries Value) : HasSettings (.object entries) entries
  | untouched : HasSettings .null []

/-- The rows under a key: objects in a list, or null or nothing at all for none. -/
inductive HasRows (entries : Entries Value) (key : String) : List (Entries Value) → Prop where
  | listed (rows : List (Entries Value))
      (h : Value.field entries key = .list (rows.map .object)) : HasRows entries key rows
  | absent (h : Value.field entries key = .null) : HasRows entries key []

theorem settings_eq_ok_iff {entries : Entries Value} :
    settings value = .ok entries ↔ HasSettings value entries := by
  constructor
  · intro h
    cases value with
    | object own =>
        cases h
        exact .object _
    | null =>
        cases h
        exact .untouched
    | _ => cases h
  · rintro (_ | _) <;> rfl

theorem rows_eq_ok_iff {entries : Entries Value} :
    Rows.rows entries key = .ok rows ↔ HasRows entries key rows := by
  rw [Rows.rows, rowsOf_eq_ok_iff]
  constructor
  · rintro (hlisted | ⟨habsent, rfl⟩)
    · exact .listed rows hlisted
    · exact .absent habsent
  · rintro (⟨_, hlisted⟩ | habsent)
    · exact .inl hlisted
    · exact .inr ⟨habsent, rfl⟩

theorem HasSettings.unique {entries others : Entries Value} (h : HasSettings value entries)
    (hothers : HasSettings value others) : entries = others :=
  Except.ok.inj ((settings_eq_ok_iff.2 h).symm.trans (settings_eq_ok_iff.2 hothers))

theorem HasRows.unique {entries : Entries Value} {others : List (Entries Value)}
    (h : HasRows entries key rows) (hothers : HasRows entries key others) : rows = others :=
  Except.ok.inj ((rows_eq_ok_iff.2 h).symm.trans (rows_eq_ok_iff.2 hothers))

section Read

variable {α : Type} {a : α} {entries : Entries Value}
  {read : Entries Value → List (Entries Value) → Except Refusal α}

theorem bind_eq_ok_iff {β : Type} {x : Except Refusal β} {f : β → Except Refusal α} :
    x.bind f = .ok a ↔ ∃ b, x = .ok b ∧ f b = .ok a := by
  cases x with
  | error refusal => simp [Except.bind]
  | ok b => simp [Except.bind]

theorem checked_eq_ok_iff {x : Except StageFault α} : checked x = .ok a ↔ x = .ok a := by
  cases x with
  | error fault => simp [checked, Except.mapError]
  | ok b => simp [checked, Except.mapError]

/-- What is made of the rows of a configuration. -/
theorem read_eq (hsettings : HasSettings value entries) (hrows : HasRows entries key rows) :
    (do
      let entries ← checked (settings value)
      let rows ← checked (Rows.rows entries key)
      read entries rows) = read entries rows := by
  rw [settings_eq_ok_iff.2 hsettings]
  show (checked (Rows.rows entries key)).bind (read entries) = read entries rows
  rw [rows_eq_ok_iff.2 hrows]
  rfl

/-- Where something is made of the rows of a configuration, it has rows. -/
theorem exists_rows_of_read
    (h : (do
      let entries ← checked (settings value)
      let rows ← checked (Rows.rows entries key)
      read entries rows) = .ok a) :
    ∃ entries rows, HasSettings value entries ∧ HasRows entries key rows ∧
      read entries rows = .ok a := by
  obtain ⟨entries, hsettings, h⟩ := bind_eq_ok_iff.1 h
  obtain ⟨rows, hrows, h⟩ := bind_eq_ok_iff.1 h
  exact ⟨entries, rows, settings_eq_ok_iff.1 (checked_eq_ok_iff.1 hsettings),
    rows_eq_ok_iff.1 (checked_eq_ok_iff.1 hrows), h⟩

end Read

end Shape

/-! ## What a run reads -/

variable {ρ : Type} {entry : Nat → ρ → Except Refusal (Option (String × Value))}
  {index : Nat} {row : ρ} {rows before after : List ρ} {pairs result entries : Entries Value}

/-- Rows that are counted from an index give entries one after another. -/
inductive Reads (entry : Nat → ρ → Except Refusal (Option (String × Value))) :
    (index : Nat) → List ρ → Entries Value → Prop where
  | done (index : Nat) : Reads entry index [] []
  | skipped (index : Nat) (row : ρ) (rows : List ρ) (pairs : Entries Value)
      (hrow : entry index row = .ok none) (hrest : Reads entry (index + 1) rows pairs) :
      Reads entry index (row :: rows) pairs
  | taken (index : Nat) (row : ρ) (rows : List ρ) (pair : String × Value) (pairs : Entries Value)
      (hrow : entry index row = .ok (some pair)) (hrest : Reads entry (index + 1) rows pairs) :
      Reads entry index (row :: rows) (pair :: pairs)

theorem add_length_cons (index : Nat) (row : ρ) (rows : List ρ) :
    index + (row :: rows).length = index + 1 + rows.length := by
  rw [List.length_cons]
  omega

/-- What rows give is cut where the rows are. -/
theorem Reads.split (h : Reads entry index (before ++ after) pairs) :
    ∃ first second, pairs = first ++ second ∧ Reads entry index before first ∧
      Reads entry (index + before.length) after second := by
  induction before generalizing index pairs with
  | nil => exact ⟨[], pairs, rfl, .done index, h⟩
  | cons row before ih =>
      have hnext := add_length_cons index row before
      cases h with
      | skipped _ _ _ _ hrow hrest =>
          obtain ⟨first, second, hpairs, hfirst, hsecond⟩ := ih hrest
          exact ⟨first, second, hpairs, .skipped _ _ _ _ hrow hfirst, hnext ▸ hsecond⟩
      | taken _ _ _ pair _ hrow hrest =>
          obtain ⟨first, second, hpairs, hfirst, hsecond⟩ := ih hrest
          exact ⟨pair :: first, second, by rw [hpairs]; rfl, .taken _ _ _ _ _ hrow hfirst,
            hnext ▸ hsecond⟩

/-- No row that is read refuses. -/
theorem Reads.exists_given (h : Reads entry index rows pairs) :
    ∀ row ∈ rows, ∃ index given, entry index row = .ok given := by
  induction h with
  | done => simp
  | skipped index row _ _ hrow _ ih => exact List.forall_mem_cons.2 ⟨⟨index, _, hrow⟩, ih⟩
  | taken index row _ _ _ hrow _ ih => exact List.forall_mem_cons.2 ⟨⟨index, _, hrow⟩, ih⟩

/-- What is read is given by a row. -/
theorem Reads.exists_row (h : Reads entry index rows pairs) :
    ∀ pair ∈ pairs, ∃ row ∈ rows, ∃ index, entry index row = .ok (some pair) := by
  induction h with
  | done => simp
  | skipped _ row _ _ _ _ ih =>
      intro pair hpair
      obtain ⟨source, hmem, hsource⟩ := ih pair hpair
      exact ⟨source, List.mem_cons_of_mem row hmem, hsource⟩
  | taken index row rows first _ hrow _ ih =>
      intro pair hpair
      rcases List.mem_cons.1 hpair with rfl | hrest
      · exact ⟨row, List.mem_cons_self, index, hrow⟩
      · obtain ⟨source, hmem, hsource⟩ := ih pair hrest
        exact ⟨source, List.mem_cons_of_mem row hmem, hsource⟩

/-- Rows of which none refuses are read. -/
theorem exists_reads (h : ∀ row ∈ rows, ∀ index, ∃ given, entry index row = .ok given)
    (index : Nat) : ∃ pairs, Reads entry index rows pairs := by
  induction rows generalizing index with
  | nil => exact ⟨[], .done index⟩
  | cons row rows ih =>
      obtain ⟨hfirst, hothers⟩ := List.forall_mem_cons.1 h
      obtain ⟨pairs, hrest⟩ := ih hothers (index + 1)
      obtain ⟨given, hrow⟩ := hfirst index
      cases given with
      | none => exact ⟨pairs, .skipped _ _ _ _ hrow hrest⟩
      | some pair => exact ⟨pair :: pairs, .taken _ _ _ _ _ hrow hrest⟩

/-- One row of a run. -/
theorem gather_cons (index : Nat) (row : ρ) (rows : List ρ) (result : Entries Value) :
    gather entry index (row :: rows) result =
      match entry index row with
      | .error refusal => .error refusal
      | .ok none => gather entry (index + 1) rows result
      | .ok (some pair) => gather entry (index + 1) rows (Entries.insert pair.1 pair.2 result) := by
  rw [gather]
  cases entry index row with
  | error refusal => rfl
  | ok given => cases given <;> rfl

/-- A run that is not ended inserts what the rows give. -/
theorem gather_eq_ok_iff :
    gather entry index rows result = .ok entries ↔ ∃ pairs, Reads entry index rows pairs ∧
      entries = pairs.foldl (fun entries pair => Entries.insert pair.1 pair.2 entries) result := by
  induction rows generalizing index result with
  | nil =>
      constructor
      · intro h
        exact ⟨[], .done index, (Except.ok.inj h).symm⟩
      · rintro ⟨pairs, hreads, rfl⟩
        cases hreads
        rfl
  | cons row rows ih =>
      rw [gather_cons]
      constructor
      · intro h
        split at h
        · cases h
        · rename_i hrow
          obtain ⟨pairs, hreads, rfl⟩ := ih.1 h
          exact ⟨pairs, .skipped _ _ _ _ hrow hreads, rfl⟩
        · rename_i pair hrow
          obtain ⟨pairs, hreads, rfl⟩ := ih.1 h
          exact ⟨pair :: pairs, .taken _ _ _ _ _ hrow hreads, rfl⟩
      · rintro ⟨pairs, hreads, rfl⟩
        cases hreads with
        | skipped _ _ _ _ hrow hrest =>
            rw [hrow]
            exact ih.2 ⟨pairs, hrest, rfl⟩
        | taken _ _ _ pair pairs hrow hrest =>
            rw [hrow]
            exact ih.2 ⟨pairs, hrest, rfl⟩

/-- A run is ended by the first row that refuses. -/
theorem gather_eq_error_iff {refusal : Refusal} :
    gather entry index rows result = .error refusal ↔
      ∃ before row after pairs, rows = before ++ row :: after ∧ Reads entry index before pairs ∧
        entry (index + before.length) row = .error refusal := by
  induction rows generalizing index result with
  | nil => simp [gather]
  | cons row rows ih =>
      have hnext := add_length_cons index row
      rw [gather_cons]
      constructor
      · intro h
        split at h
        · rename_i hrow
          cases h
          exact ⟨[], row, rows, [], rfl, .done index, hrow⟩
        · rename_i hrow
          obtain ⟨before, stop, after, pairs, rfl, hreads, hstop⟩ := ih.1 h
          exact ⟨row :: before, stop, after, pairs, rfl, .skipped _ _ _ _ hrow hreads,
            hnext before ▸ hstop⟩
        · rename_i pair hrow
          obtain ⟨before, stop, after, pairs, rfl, hreads, hstop⟩ := ih.1 h
          exact ⟨row :: before, stop, after, pair :: pairs, rfl, .taken _ _ _ _ _ hrow hreads,
            hnext before ▸ hstop⟩
      · rintro ⟨before, stop, after, pairs, hrows, hreads, hstop⟩
        cases hreads with
        | done =>
            cases hrows
            have hrow : entry index row = .error refusal := hstop
            rw [hrow]
        | skipped _ _ before _ hrow hrest =>
            cases hrows
            rw [hrow]
            exact ih.2 ⟨before, stop, after, pairs, rfl, hrest, hnext before ▸ hstop⟩
        | taken _ _ before pair pairs hrow hrest =>
            cases hrows
            rw [hrow]
            exact ih.2 ⟨before, stop, after, pairs, rfl, hrest, hnext before ▸ hstop⟩

/-! ## Rows that ask for values under names -/

variable {live : ρ → Prop} {name : ρ → String} {asks : ρ → Value → Prop}

/-- What is read of a row: a row that counts gives what it asks for under its name, and any other
row gives nothing. -/
structure Follows (entry : Nat → ρ → Except Refusal (Option (String × Value))) (live : ρ → Prop)
    (name : ρ → String) (asks : ρ → Value → Prop) : Prop where
  skips : ∀ {index row}, entry index row = .ok none → ¬ live row
  takes : ∀ {index row pair}, entry index row = .ok (some pair) →
    live row ∧ pair.1 = name row ∧ asks row pair.2

/-- The row counts, and no row after it that counts has its name. -/
def IsLast (live : ρ → Prop) (name : ρ → String) (rows : List ρ) (row : ρ) : Prop :=
  live row ∧ ∃ before after, rows = before ++ row :: after ∧
    ∀ later ∈ after, live later → name later ≠ name row

/-- Of the rows that count and have a name, one is the last. -/
theorem exists_isLast {key : String} (h : ∃ row ∈ rows, live row ∧ name row = key) :
    ∃ last, IsLast live name rows last ∧ name last = key := by
  induction rows with
  | nil => simp at h
  | cons first rest ih =>
      by_cases hlater : ∃ row ∈ rest, live row ∧ name row = key
      · obtain ⟨last, ⟨hlive, before, after, rfl, hafter⟩, hname⟩ := ih hlater
        exact ⟨last, ⟨hlive, first :: before, after, rfl, hafter⟩, hname⟩
      · obtain ⟨row, hmem, hlive, hname⟩ := h
        have hfirst : row = first :=
          (List.mem_cons.1 hmem).resolve_right fun hrest => hlater ⟨row, hrest, hlive, hname⟩
        subst hfirst
        refine ⟨row, ⟨hlive, [], rest, rfl, fun later hin hcounts hsame => ?_⟩, hname⟩
        exact hlater ⟨later, hin, hcounts, hsame.trans hname⟩

/-- Every row that counts and is read asks for something. -/
theorem Follows.asks_of_reads (h : Follows entry live name asks)
    (hreads : Reads entry index rows pairs) :
    ∀ row ∈ rows, live row → ∃ value, asks row value := by
  induction hreads with
  | done => simp
  | skipped _ _ _ _ hrow _ ih =>
      exact List.forall_mem_cons.2 ⟨fun hlive => absurd hlive (h.skips hrow), ih⟩
  | taken _ _ _ pair _ hrow _ ih =>
      exact List.forall_mem_cons.2 ⟨fun _ => ⟨pair.2, (h.takes hrow).2.2⟩, ih⟩

variable [DecidablePred live]

/-- The names of the rows that count, each in the place in which it comes first, with what the last
row of the name asks for. -/
structure Gathered (live : ρ → Prop) [DecidablePred live] (name : ρ → String)
    (asks : ρ → Value → Prop) (rows : List ρ) (entries : Entries Value) : Prop where
  names : Entries.keys entries = ((rows.filter (live ·)).map name).eraseDups
  last : ∀ row, IsLast live name rows row →
    ∃ value, asks row value ∧ Entries.get? (name row) entries = some value

namespace Follows

theorem keys_of_reads (h : Follows entry live name asks) (hreads : Reads entry index rows pairs) :
    Entries.keys pairs = (rows.filter (live ·)).map name := by
  induction hreads with
  | done => rfl
  | skipped _ _ _ _ hrow _ ih =>
      rw [List.filter_cons_of_neg (by simpa using h.skips hrow), ih]
  | taken _ _ _ pair _ hrow _ ih =>
      obtain ⟨hlive, hname, -⟩ := h.takes hrow
      rw [List.filter_cons_of_pos (by simpa using hlive), List.map_cons, ← ih, ← hname]
      rfl

/-- Rows that ask for values under their names are gathered. -/
theorem gathered (h : Follows entry live name asks) (hreads : Reads entry index rows pairs) :
    Gathered live name asks rows (Entries.collect pairs) where
  names := by rw [Entries.keys_collect, h.keys_of_reads hreads]
  last := by
    rintro row ⟨hlive, before, after, rfl, hlater⟩
    obtain ⟨first, second, rfl, -, hsecond⟩ := hreads.split
    cases hsecond with
    | skipped _ _ _ _ hrow => exact absurd hlive (h.skips hrow)
    | taken _ _ _ pair rest hrow hrest =>
        obtain ⟨-, hname, hasks⟩ := h.takes hrow
        have hnew : name row ∉ Entries.keys rest := by
          rw [h.keys_of_reads hrest, List.mem_map]
          rintro ⟨later, hmem, hsame⟩
          obtain ⟨hin, hcounts⟩ := List.mem_filter.1 hmem
          exact hlater later hin (by simpa using hcounts) hsame
        obtain ⟨key, value⟩ := pair
        obtain rfl : key = name row := hname
        exact ⟨value, hasks, Entries.get?_collect_append hnew⟩

end Follows

/-- Nothing is gathered exactly if no row counts. -/
theorem Gathered.eq_nil_iff (h : Gathered live name asks rows entries) :
    entries = [] ↔ ∀ row ∈ rows, ¬ live row := by
  have hnil : entries = [] ↔ Entries.keys entries = [] := List.map_eq_nil_iff.symm
  rw [hnil, h.names, List.eq_nil_iff_forall_not_mem]
  simp only [List.mem_eraseDups, List.mem_map, List.mem_filter, decide_eq_true_eq]
  constructor
  · intro hnone row hrow hlive
    exact hnone (name row) ⟨row, ⟨hrow, hlive⟩, rfl⟩
  · rintro hnone key ⟨row, ⟨hrow, hlive⟩, -⟩
    exact hnone row hrow hlive

end StageChain.Rows
