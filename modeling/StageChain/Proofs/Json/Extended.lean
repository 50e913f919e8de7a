import StageChain.Proofs.Json.RoundTrip

/-!
# Objects for doubles that are not finite

`IsExtended value other` says that `other` is `value` with an object of one key in the place of
every double that is not finite, at any depth, and otherwise the same. `extended` computes it:
`isExtended_iff`. What is computed has no such double left, and it is the value itself exactly if
that had none.
-/

namespace StageChain.Json

variable {value other : Value} {items others : List Value}
  {entries replaced : List (String × Value)} {key : String}

/-- The object for a double that has a name only. -/
def namedDouble (name : String) : Value := .object [("$numberDouble", .text name)]

mutual

/-- One value is another with objects for the doubles that are not finite. -/
inductive IsExtended : Value → Value → Prop where
  | null : IsExtended .null .null
  | bool (b : Bool) : IsExtended (.bool b) (.bool b)
  | int (n : Int) : IsExtended (.int n) (.int n)
  | text (s : String) : IsExtended (.text s) (.text s)
  | finite (negative : Bool) (m : Magnitude) :
      IsExtended (.float (.finite negative m)) (.float (.finite negative m))
  | nan : IsExtended (.float .nan) (namedDouble "NaN")
  | infinity : IsExtended (.float (.infinite false)) (namedDouble "Infinity")
  | minusInfinity : IsExtended (.float (.infinite true)) (namedDouble "-Infinity")
  | list {items others : List Value} :
      AreExtended items others → IsExtended (.list items) (.list others)
  | object {entries replaced : List (String × Value)} :
      EntriesExtended entries replaced → IsExtended (.object entries) (.object replaced)

/-- The values of one list are those of another with objects for doubles, one by one. -/
inductive AreExtended : List Value → List Value → Prop where
  | nil : AreExtended [] []
  | cons {value other : Value} {items others : List Value} :
      IsExtended value other → AreExtended items others →
        AreExtended (value :: items) (other :: others)

/-- Entries have the same keys in the same order, and the values of the ones are those of the others
with objects for doubles. -/
inductive EntriesExtended : List (String × Value) → List (String × Value) → Prop where
  | nil : EntriesExtended [] []
  | cons (key : String) {value other : Value} {entries replaced : List (String × Value)} :
      IsExtended value other → EntriesExtended entries replaced →
        EntriesExtended ((key, value) :: entries) ((key, other) :: replaced)

end

/-! ## What is computed -/

mutual

theorem isExtended_extended : ∀ value : Value, IsExtended value (extended value)
  | .null => .null
  | .bool b => .bool b
  | .int n => .int n
  | .text s => .text s
  | .float .nan => .nan
  | .float (.infinite false) => .infinity
  | .float (.infinite true) => .minusInfinity
  | .float (.finite negative m) => .finite negative m
  | .list items => .list (areExtended_extendedItems items)
  | .object entries => .object (entriesExtended_extendedEntries entries)

theorem areExtended_extendedItems : ∀ items : List Value, AreExtended items (extendedItems items)
  | [] => .nil
  | value :: items => .cons (isExtended_extended value) (areExtended_extendedItems items)

theorem entriesExtended_extendedEntries :
    ∀ entries : List (String × Value), EntriesExtended entries (extendedEntries entries)
  | [] => .nil
  | (key, value) :: entries =>
      .cons key (isExtended_extended value) (entriesExtended_extendedEntries entries)

end

mutual

theorem IsExtended.eq_extended {value other : Value} (h : IsExtended value other) :
    other = extended value := by
  cases h with
  | list hitems => rw [extended, hitems.eq_extendedItems]
  | object hentries => rw [extended, hentries.eq_extendedEntries]
  | _ => rfl

theorem AreExtended.eq_extendedItems {items others : List Value} (h : AreExtended items others) :
    others = extendedItems items := by
  cases h with
  | nil => rfl
  | cons hvalue hitems => rw [extendedItems, ← hvalue.eq_extended, ← hitems.eq_extendedItems]

theorem EntriesExtended.eq_extendedEntries {entries replaced : List (String × Value)}
    (h : EntriesExtended entries replaced) : replaced = extendedEntries entries := by
  cases h with
  | nil => rfl
  | cons key hvalue hentries =>
      rw [extendedEntries, ← hvalue.eq_extended, ← hentries.eq_extendedEntries]

end

/-- The relation has one result for each value, and that is computed. -/
theorem isExtended_iff : IsExtended value other ↔ other = extended value :=
  ⟨IsExtended.eq_extended, fun h => h ▸ isExtended_extended value⟩

/-! ## What is left -/

mutual

/-- No double that is not finite is left, however deep. -/
theorem isFinite_extended : ∀ value : Value, (extended value).IsFinite
  | .null | .bool _ | .int _ | .text _ => by simp [Value.IsFinite, extended, Value.leaves]
  | .float .nan | .float (.infinite _) => by
    simp [Value.IsFinite, extended, extendedDouble, Value.leaves, Value.entryLeaves]
  | .float (.finite _ _) => Value.isFinite_float.2 rfl
  | .list items => isFinite_extendedItems items
  | .object entries => isFinite_extendedEntries entries

theorem isFinite_extendedItems :
    ∀ items : List Value, (Value.list (extendedItems items)).IsFinite
  | [] => nofun
  | value :: items =>
    Value.isFinite_cons.2 ⟨isFinite_extended value, isFinite_extendedItems items⟩

theorem isFinite_extendedEntries :
    ∀ entries : List (String × Value), (Value.object (extendedEntries entries)).IsFinite
  | [] => nofun
  | (key, value) :: entries =>
    (Value.isFinite_entry key).2 ⟨isFinite_extended value, isFinite_extendedEntries entries⟩

end

/-! ## What stays -/

mutual

theorem extended_of_isFinite : ∀ {value : Value}, value.IsFinite → extended value = value
  | .null, _ | .bool _, _ | .int _, _ | .text _, _ => rfl
  | .float .nan, h | .float (.infinite _), h => nomatch Value.isFinite_float.1 h
  | .float (.finite _ _), _ => rfl
  | .list items, h => by rw [extended, extendedItems_of_isFinite h]
  | .object entries, h => by rw [extended, extendedEntries_of_isFinite h]

theorem extendedItems_of_isFinite :
    ∀ {items : List Value}, (Value.list items).IsFinite → extendedItems items = items
  | [], _ => rfl
  | value :: items, h => by
    obtain ⟨hvalue, hitems⟩ := Value.isFinite_cons.1 h
    rw [extendedItems, extended_of_isFinite hvalue, extendedItems_of_isFinite hitems]

theorem extendedEntries_of_isFinite :
    ∀ {entries : List (String × Value)}, (Value.object entries).IsFinite →
      extendedEntries entries = entries
  | [], _ => rfl
  | (key, value) :: entries, h => by
    obtain ⟨hvalue, hentries⟩ := (Value.isFinite_entry key).1 h
    rw [extendedEntries, extended_of_isFinite hvalue, extendedEntries_of_isFinite hentries]

end

/-- A value stays as it is exactly if all its doubles are finite. -/
theorem extended_eq_self_iff (value : Value) : extended value = value ↔ value.IsFinite := by
  refine ⟨fun h => ?_, extended_of_isFinite⟩
  rw [← h]
  exact isFinite_extended value

mutual

/-- The integers stay. -/
theorem int_mem_leaves_extended (n : Int) :
    ∀ value : Value, .int n ∈ (extended value).leaves ↔ .int n ∈ value.leaves
  | .null | .bool _ | .int _ | .text _ => Iff.rfl
  | .float .nan | .float (.infinite _) => by
    simp [extended, extendedDouble, Value.leaves, Value.entryLeaves]
  | .float (.finite _ _) => Iff.rfl
  | .list items => int_mem_leaves_extendedItems n items
  | .object entries => int_mem_leaves_extendedEntries n entries

theorem int_mem_leaves_extendedItems (n : Int) :
    ∀ items : List Value,
      .int n ∈ Value.itemLeaves (extendedItems items) ↔ .int n ∈ Value.itemLeaves items
  | [] => Iff.rfl
  | value :: items => by
    simp only [extendedItems, Value.itemLeaves, List.mem_append, int_mem_leaves_extended n value,
      int_mem_leaves_extendedItems n items]

theorem int_mem_leaves_extendedEntries (n : Int) :
    ∀ entries : List (String × Value),
      .int n ∈ Value.entryLeaves (extendedEntries entries) ↔ .int n ∈ Value.entryLeaves entries
  | [] => Iff.rfl
  | (_, value) :: entries => by
    simp only [extendedEntries, Value.entryLeaves, List.mem_append,
      int_mem_leaves_extended n value, int_mem_leaves_extendedEntries n entries]

end

theorem isWritable_extended_iff : (extended value).IsWritable ↔ value.IsWritable := by
  simp only [Value.IsWritable, int_mem_leaves_extended]

theorem keys_extendedEntries (entries : List (String × Value)) :
    Entries.keys (extendedEntries entries) = Entries.keys entries := by
  induction entries with
  | nil => rfl
  | cons entry entries ih => exact congrArg (entry.1 :: ·) ih

theorem wellFormed_namedDouble (name : String) : (namedDouble name).WellFormed :=
  ⟨List.nodup_singleton _, trivial, trivial⟩

mutual

theorem wellFormed_extended : ∀ {value : Value}, value.WellFormed → (extended value).WellFormed
  | .null, _ | .bool _, _ | .int _, _ | .text _, _ => trivial
  | .float .nan, _ => wellFormed_namedDouble _
  | .float (.infinite _), _ => wellFormed_namedDouble _
  | .float (.finite _ _), _ => trivial
  | .list _, h => itemsWellFormed_extendedItems h
  | .object entries, h =>
      ⟨(keys_extendedEntries entries).symm ▸ h.1, entriesWellFormed_extendedEntries h.2⟩

theorem itemsWellFormed_extendedItems :
    ∀ {items : List Value}, Value.ItemsWellFormed items →
      Value.ItemsWellFormed (extendedItems items)
  | [], _ => trivial
  | _ :: _, h => ⟨wellFormed_extended h.1, itemsWellFormed_extendedItems h.2⟩

theorem entriesWellFormed_extendedEntries :
    ∀ {entries : List (String × Value)}, Value.EntriesWellFormed entries →
      Value.EntriesWellFormed (extendedEntries entries)
  | [], _ => trivial
  | (_, _) :: _, h => ⟨wellFormed_extended h.1, entriesWellFormed_extendedEntries h.2⟩

end

/-! ## Strict texts -/

/-- With objects for the doubles that are not finite, a value whose integers can be written has a
strict text, and that is read as the value with the objects. -/
theorem exists_writeWithin_extended (style : Style) (hwf : value.WellFormed)
    (hwritable : value.IsWritable) :
    ∃ text, writeWithin true style (extended value) = .ok text ∧
      read .strict text = .ok (extended value) := by
  have hfinite := isFinite_extended value
  refine ⟨write style (extended value), ?_, ?_⟩
  · exact writeWithin_of_isWritable style (isWritable_extended_iff.2 hwritable) fun _ => hfinite
  · exact read_write rfl style (wellFormed_extended hwf) fun _ => hfinite

end StageChain.Json
