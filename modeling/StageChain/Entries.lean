/-!
# Keyed entries in order

`Entries α` is a list of keyed values in the order in which the keys first came. `Entries.insert`
replaces the value of a key in its place or adds the key at the end. `OrderedMap α` is a list of
entries without repeated keys; its operations keep the order in the same way.
-/

namespace StageChain

/-- Keyed values, in order. -/
abbrev Entries (α : Type) := List (String × α)

namespace Entries

variable {α β : Type}

/-- The keys, in order. -/
def keys (entries : Entries α) : List String := entries.map Prod.fst

/-- The value of the first entry with a key. -/
def get? (key : String) (entries : Entries α) : Option α := entries.lookup key

/-- Gives a key a new value: in its place if it is there, else at the end. -/
def insert (key : String) (value : α) : Entries α → Entries α
  | [] => [(key, value)]
  | (k, v) :: rest => if k = key then (k, value) :: rest else (k, v) :: insert key value rest

/-- Removes the entries with a key. -/
def erase (key : String) (entries : Entries α) : Entries α :=
  entries.filter fun entry => entry.1 ≠ key

/-- Applies a function to every value. -/
def mapValues (f : α → β) (entries : Entries α) : Entries β :=
  entries.map fun entry => (entry.1, f entry.2)

/-- Inserts pairs one after another, so that a repeated key keeps its first place and its last
value. -/
def collect (pairs : List (String × α)) : Entries α :=
  pairs.foldl (fun entries pair => insert pair.1 pair.2 entries) []

theorem mem_keys_insert {key other : String} {value : α} {entries : Entries α} :
    other ∈ keys (insert key value entries) ↔ other = key ∨ other ∈ keys entries := by
  induction entries with
  | nil => simp [insert, keys]
  | cons entry rest ih =>
    obtain ⟨k, v⟩ := entry
    by_cases h : k = key
    · subst h
      simp [insert, keys]
    · simp only [keys] at ih
      simp [insert, keys, h, ih, or_left_comm]

/-- Inserting a key that is there leaves the keys as they are. -/
theorem keys_insert_of_mem {key : String} {value : α} {entries : Entries α}
    (h : key ∈ keys entries) : keys (insert key value entries) = keys entries := by
  induction entries with
  | nil => simp [keys] at h
  | cons entry rest ih =>
    obtain ⟨k, v⟩ := entry
    by_cases hk : k = key
    · simp [insert, keys, hk]
    · have hrest : key ∈ keys rest := by
        simp only [keys, List.map_cons, List.mem_cons] at h
        exact h.resolve_left fun h => hk h.symm
      simpa [insert, keys, hk] using ih hrest

/-- Inserting a new key adds it at the end. -/
theorem insert_of_not_mem {key : String} {value : α} {entries : Entries α}
    (h : key ∉ keys entries) : insert key value entries = entries ++ [(key, value)] := by
  induction entries with
  | nil => rfl
  | cons entry rest ih =>
    obtain ⟨k, v⟩ := entry
    simp only [keys, List.map_cons, List.mem_cons, not_or] at h
    simp [insert, Ne.symm h.1, ih h.2]

theorem nodup_keys_insert {key : String} {value : α} {entries : Entries α}
    (h : (keys entries).Nodup) : (keys (insert key value entries)).Nodup := by
  by_cases hmem : key ∈ keys entries
  · rwa [keys_insert_of_mem hmem]
  · rw [insert_of_not_mem hmem]
    simp only [keys, List.map_append, List.map_cons, List.map_nil]
    exact List.nodup_append.2
      ⟨h, by simp, fun a ha b hb hab => hmem (by simp at hb; exact hb ▸ hab ▸ ha)⟩

theorem nodup_keys_erase {key : String} {entries : Entries α} (h : (keys entries).Nodup) :
    (keys (erase key entries)).Nodup :=
  List.Nodup.sublist (List.Sublist.map _ List.filter_sublist) h

/-- The value of a key after an insertion. -/
theorem get?_insert {key other : String} {value : α} {entries : Entries α} :
    get? other (insert key value entries) =
      if other = key then some value else get? other entries := by
  induction entries with
  | nil =>
    by_cases h : other = key
    · simp [insert, get?, h]
    · simp [insert, get?, List.lookup_cons, beq_false_of_ne h, h]
  | cons entry rest ih =>
    obtain ⟨k, v⟩ := entry
    simp only [get?] at ih
    by_cases hk : k = key
    · by_cases ho : other = key
      · simp [insert, get?, hk, ho]
      · simp [insert, get?, hk, ho, List.lookup_cons, beq_false_of_ne ho]
    · by_cases hok : other = k
      · simp [insert, get?, hk, hok]
      · simp [insert, get?, hk, ih, List.lookup_cons, beq_false_of_ne hok]

theorem keys_mapValues (f : α → β) (entries : Entries α) :
    keys (mapValues f entries) = keys entries := by
  simp [keys, mapValues, Function.comp_def]

theorem get?_mapValues (f : α → β) (key : String) (entries : Entries α) :
    get? key (mapValues f entries) = (get? key entries).map f := by
  induction entries with
  | nil => rfl
  | cons entry rest ih =>
    obtain ⟨k, v⟩ := entry
    simp only [get?, mapValues] at ih
    by_cases hk : key = k
    · simp [get?, mapValues, hk]
    · simp [get?, mapValues, List.lookup_cons, beq_false_of_ne hk, ih]

theorem mem_keys_of_get? {key : String} {value : α} {entries : Entries α}
    (h : get? key entries = some value) : key ∈ keys entries := by
  induction entries with
  | nil => simp [get?] at h
  | cons entry rest ih =>
    obtain ⟨k, v⟩ := entry
    by_cases hk : key = k
    · simp [keys, hk]
    · simp only [get?, List.lookup_cons, beq_false_of_ne hk] at h
      exact List.mem_cons_of_mem _ (ih h)

theorem get?_erase (key other : String) (entries : Entries α) :
    get? other (erase key entries) = if other = key then none else get? other entries := by
  induction entries with
  | nil => simp [erase, get?]
  | cons entry rest ih =>
    obtain ⟨k, v⟩ := entry
    by_cases hk : k = key
    · have herase : erase key ((k, v) :: rest) = erase key rest := by simp [erase, hk]
      rw [herase, ih]
      by_cases ho : other = key
      · rw [if_pos ho, if_pos ho]
      · simp [get?, hk, ho, List.lookup_cons, beq_false_of_ne ho]
    · have herase : erase key ((k, v) :: rest) = (k, v) :: erase key rest := by simp [erase, hk]
      rw [herase]
      by_cases hok : other = k
      · simp [get?, hok, hk]
      · simpa [get?, List.lookup_cons, beq_false_of_ne hok] using ih

/-- Every key has a value. -/
theorem exists_get?_of_mem_keys {key : String} {entries : Entries α} (h : key ∈ keys entries) :
    ∃ value, get? key entries = some value := by
  induction entries with
  | nil => simp [keys] at h
  | cons entry rest ih =>
    obtain ⟨k, v⟩ := entry
    by_cases hk : key = k
    · exact ⟨v, by simp [get?, hk]⟩
    · have hrest : key ∈ keys rest := by
        simp only [keys, List.map_cons, List.mem_cons] at h
        exact h.resolve_left hk
      obtain ⟨value, hvalue⟩ := ih hrest
      exact ⟨value, by simpa [get?, List.lookup_cons, beq_false_of_ne hk] using hvalue⟩

/-- Where every key occurs once, the entries are the keys with their values. -/
theorem mem_iff_get? {key : String} {value : α} {entries : Entries α} (h : (keys entries).Nodup) :
    (key, value) ∈ entries ↔ get? key entries = some value := by
  induction entries with
  | nil => simp [get?]
  | cons entry rest ih =>
    obtain ⟨k, v⟩ := entry
    obtain ⟨hk, hrest⟩ := List.nodup_cons.1 h
    by_cases hkey : key = k
    · have hnot : (k, value) ∉ rest := fun hmem => hk (List.mem_map.2 ⟨_, hmem, rfl⟩)
      simp [get?, hkey, hnot, eq_comm]
    · simpa [get?, hkey, List.lookup_cons, beq_false_of_ne hkey] using ih hrest

end Entries

/-- Entries in which every key occurs once. -/
structure OrderedMap (α : Type) where
  entries : Entries α
  nodup : (Entries.keys entries).Nodup

namespace OrderedMap

variable {α : Type}

/-- The map without entries. -/
def empty : OrderedMap α := ⟨[], .nil⟩

instance : Inhabited (OrderedMap α) := ⟨empty⟩

/-- The keys, in order. -/
def keys (map : OrderedMap α) : List String := Entries.keys map.entries

/-- The values, in the order of their keys. -/
def values (map : OrderedMap α) : List α := map.entries.map Prod.snd

/-- The value of a key. -/
def get? (map : OrderedMap α) (key : String) : Option α := Entries.get? key map.entries

/-- Whether a key is there. -/
def contains (map : OrderedMap α) (key : String) : Bool := map.keys.contains key

/-- Gives a key a new value: in its place if it is there, else at the end. -/
def insert (map : OrderedMap α) (key : String) (value : α) : OrderedMap α :=
  ⟨Entries.insert key value map.entries, Entries.nodup_keys_insert map.nodup⟩

/-- Removes a key. -/
def erase (map : OrderedMap α) (key : String) : OrderedMap α :=
  ⟨Entries.erase key map.entries, Entries.nodup_keys_erase map.nodup⟩

/-- Applies a function to every value. -/
def mapValues (map : OrderedMap α) (f : α → α) : OrderedMap α :=
  ⟨Entries.mapValues f map.entries, by
    have h := map.nodup
    simpa [Entries.keys, Entries.mapValues, List.map_map, Function.comp_def] using h⟩

/-- Applies a function to the value of a key, if it is there. -/
def modify (map : OrderedMap α) (key : String) (f : α → α) : OrderedMap α :=
  match map.get? key with
  | some value => map.insert key (f value)
  | none => map

variable {map : OrderedMap α} {key other : String} {value : α}

theorem mem_entries_iff : (key, value) ∈ map.entries ↔ map.get? key = some value :=
  Entries.mem_iff_get? map.nodup

theorem get?_insert :
    (map.insert key value).get? other = if other = key then some value else map.get? other :=
  Entries.get?_insert

/-- A key that has a value stays in its place when it is given another. -/
theorem keys_insert {old : α} (h : map.get? key = some old) :
    (map.insert key value).keys = map.keys :=
  Entries.keys_insert_of_mem (Entries.mem_keys_of_get? h)

theorem get?_erase :
    (map.erase key).get? other = if other = key then none else map.get? other :=
  Entries.get?_erase key other map.entries

theorem keys_mapValues (f : α → α) : (map.mapValues f).keys = map.keys :=
  Entries.keys_mapValues f map.entries

theorem get?_mapValues (f : α → α) : (map.mapValues f).get? key = (map.get? key).map f :=
  Entries.get?_mapValues f key map.entries

theorem keys_modify (f : α → α) : (map.modify key f).keys = map.keys := by
  unfold modify
  cases hget : map.get? key with
  | none => rfl
  | some old => exact keys_insert hget

theorem get?_modify (f : α → α) :
    (map.modify key f).get? other =
      if other = key then (map.get? other).map f else map.get? other := by
  unfold modify
  by_cases h : other = key
  · subst h
    cases hget : map.get? other with
    | none => simp [hget]
    | some old => simp [get?_insert]
  · cases map.get? key with
    | none => simp [h]
    | some old => simp [get?_insert, h]

end OrderedMap

end StageChain
