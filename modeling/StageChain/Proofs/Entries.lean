import Mathlib.Data.List.Find
import Mathlib.Data.List.Nodup
import StageChain.Entries

/-!
# Repeated insertion

Pairs that are inserted one after another are kept as they are exactly if no key comes twice:
`Entries.length_collect_iff`. In any case each key keeps its first place, `Entries.keys_collect`,
and its last value, `Entries.get?_collect`.

Maps with the same keys in the same order and the same values are equal, `OrderedMap.eq_of_get?`, so
that values can be replaced one after another: `OrderedMap.foldl_modify_keys`.
-/

namespace StageChain

namespace Entries

variable {α β : Type} {key : String} {value : α} {entries pairs : Entries α}

theorem length_insert_of_mem (h : key ∈ keys entries) :
    (insert key value entries).length = entries.length := by
  have hkeys : keys (insert key value entries) = keys entries := keys_insert_of_mem h
  simpa [keys] using congrArg List.length hkeys

theorem length_foldl_insert_le (pairs entries : Entries α) :
    (pairs.foldl (fun entries pair => insert pair.1 pair.2 entries) entries).length ≤
      entries.length + pairs.length := by
  induction pairs generalizing entries with
  | nil => exact Nat.le_refl _
  | cons pair rest ih =>
      have hrest := ih (insert pair.1 pair.2 entries)
      have hinsert : (insert pair.1 pair.2 entries).length ≤ entries.length + 1 := by
        by_cases hmem : pair.1 ∈ keys entries
        · rw [length_insert_of_mem hmem]
          exact Nat.le_succ _
        · simp [insert_of_not_mem hmem]
      rw [List.foldl_cons, List.length_cons]
      omega

/-- Pairs with new keys are all added at the end. -/
theorem foldl_insert_of_nodup (h : (keys entries ++ keys pairs).Nodup) :
    pairs.foldl (fun entries pair => insert pair.1 pair.2 entries) entries = entries ++ pairs := by
  induction pairs generalizing entries with
  | nil => simp
  | cons pair rest ih =>
      have hnew : pair.1 ∉ keys entries := by
        intro hmem
        exact List.disjoint_of_nodup_append h hmem (by simp [keys])
      have hrest : (keys (entries ++ [pair]) ++ keys rest).Nodup := by
        simpa [keys] using h
      rw [List.foldl_cons, insert_of_not_mem hnew, ih hrest, List.append_assoc]
      rfl

/-- If every pair makes the entries longer, then all keys are different. -/
theorem nodup_of_length_foldl_insert (hentries : (keys entries).Nodup)
    (h : (pairs.foldl (fun entries pair => insert pair.1 pair.2 entries) entries).length =
      entries.length + pairs.length) : (keys entries ++ keys pairs).Nodup := by
  induction pairs generalizing entries with
  | nil => simpa [keys] using hentries
  | cons pair rest ih =>
      rw [List.foldl_cons, List.length_cons] at h
      by_cases hmem : pair.1 ∈ keys entries
      · -- a repeated key leaves room for too few entries
        have hle := length_foldl_insert_le rest (insert pair.1 pair.2 entries)
        rw [length_insert_of_mem hmem] at hle
        omega
      · have hnodup : (keys (insert pair.1 pair.2 entries)).Nodup := nodup_keys_insert hentries
        rw [insert_of_not_mem hmem] at h hnodup
        have hrest := ih hnodup (by rw [h, List.length_append, List.length_singleton]; omega)
        simpa [keys] using hrest

theorem collect_of_nodup (h : (keys pairs).Nodup) : collect pairs = pairs := by
  have hkeys : (keys ([] : Entries α) ++ keys pairs).Nodup := by simpa [keys] using h
  rw [collect, foldl_insert_of_nodup hkeys, List.nil_append]

/-- Collecting loses nothing exactly if no key is repeated. -/
theorem length_collect_iff : (collect pairs).length = pairs.length ↔ (keys pairs).Nodup := by
  constructor
  · intro h
    have hnodup : (keys ([] : Entries α) ++ keys pairs).Nodup :=
      nodup_of_length_foldl_insert (by simp [keys]) (by simpa [collect] using h)
    simpa [keys] using hnodup
  · intro h
    rw [collect_of_nodup h]

/-- Each new key is added once, in the place in which it comes first. -/
theorem keys_foldl_insert (pairs entries : Entries α) :
    keys (pairs.foldl (fun entries pair => insert pair.1 pair.2 entries) entries) =
      keys entries ++ ((keys pairs).removeAll (keys entries)).eraseDups := by
  induction pairs generalizing entries with
  | nil =>
      show keys entries = keys entries ++ (([] : List String).removeAll (keys entries)).eraseDups
      simp
  | cons pair rest ih =>
      have hcons : keys (pair :: rest) = pair.1 :: keys rest := rfl
      rw [List.foldl_cons, ih, hcons]
      by_cases hmem : pair.1 ∈ keys entries
      · rw [keys_insert_of_mem hmem, List.cons_removeAll, if_neg (by simpa using hmem)]
      · have hkeys : keys (insert pair.1 pair.2 entries) = keys entries ++ [pair.1] := by
          rw [insert_of_not_mem hmem]
          simp [keys]
        have hremove : (keys rest).removeAll (keys entries ++ [pair.1]) =
            ((keys rest).removeAll (keys entries)).filter fun key => !(key == pair.1) := by
          simp only [List.removeAll, List.filter_filter]
          refine List.filter_congr fun key _ => ?_
          by_cases hkey : key = pair.1 <;> simp [hkey]
        rw [hkeys, hremove, List.cons_removeAll, if_pos (by simpa using hmem), List.eraseDups_cons,
          List.append_assoc]
        rfl

/-- The keys that are collected, each in the place in which it comes first. -/
theorem keys_collect (pairs : Entries α) : keys (collect pairs) = (keys pairs).eraseDups := by
  rw [collect, keys_foldl_insert]
  simp [List.removeAll, keys]

theorem get?_append (key : String) (before after : Entries α) :
    get? key (before ++ after) = (get? key before).or (get? key after) := List.lookup_append

theorem get?_eq_none_of_not_mem (h : key ∉ keys entries) : get? key entries = none := by
  cases hget : get? key entries with
  | none => rfl
  | some value => exact absurd (mem_keys_of_get? hget) h

theorem mem_of_get? (h : get? key entries = some value) : (key, value) ∈ entries := by
  obtain ⟨before, after, rfl, -⟩ := List.lookup_eq_some_iff.1 h
  exact List.mem_append_right before List.mem_cons_self

/-- Of the values that are inserted under a key the last one is kept, and without any the one that
is there already. -/
theorem get?_foldl_insert (key : String) (pairs entries : Entries α) :
    get? key (pairs.foldl (fun entries pair => insert pair.1 pair.2 entries) entries) =
      (get? key pairs.reverse).or (get? key entries) := by
  induction pairs generalizing entries with
  | nil => rfl
  | cons pair rest ih =>
      obtain ⟨k, value⟩ := pair
      rw [List.foldl_cons, ih, List.reverse_cons, get?_append, Option.or_assoc, get?_insert]
      by_cases hkey : key = k
      · simp [get?, hkey]
      · simp [get?, List.lookup_cons, beq_false_of_ne hkey, hkey]

/-- The last value of a key is kept. -/
theorem get?_collect (key : String) (pairs : Entries α) :
    get? key (collect pairs) = get? key pairs.reverse := by
  rw [collect, get?_foldl_insert]
  exact Option.or_none

/-- A value is the last one of its key if the key does not come after it. -/
theorem get?_collect_append {before after : Entries α} (h : key ∉ keys after) :
    get? key (collect (before ++ (key, value) :: after)) = some value := by
  have hafter : get? key after.reverse = none :=
    get?_eq_none_of_not_mem fun hmem => h (by simpa [keys] using hmem)
  rw [get?_collect, List.reverse_append, get?_append, List.reverse_cons, get?_append, hafter]
  simp [get?]

theorem nodup_keys_foldl_insert (pairs : Entries α) (h : (keys entries).Nodup) :
    (keys (pairs.foldl (fun entries pair => insert pair.1 pair.2 entries) entries)).Nodup := by
  induction pairs generalizing entries with
  | nil => exact h
  | cons pair rest ih => exact ih (nodup_keys_insert h)

theorem nodup_keys_collect (pairs : Entries α) : (keys (collect pairs)).Nodup :=
  nodup_keys_foldl_insert pairs List.nodup_nil

/-- What is collected is there before. -/
theorem mem_of_mem_collect {pair : String × α} (h : pair ∈ collect pairs) : pair ∈ pairs := by
  have hget := (mem_iff_get? (nodup_keys_collect pairs)).1 h
  rw [get?_collect] at hget
  exact List.mem_reverse.1 (mem_of_get? hget)

theorem mapValues_injective {f : α → β} (hf : Function.Injective f) :
    Function.Injective (mapValues f) := by
  refine List.map_injective_iff.2 fun first second h => ?_
  obtain ⟨hkey, hvalue⟩ := Prod.mk.inj h
  exact Prod.ext hkey (hf hvalue)

theorem insert_mapValues (f : α → β) (key : String) (value : α) (entries : Entries α) :
    insert key (f value) (mapValues f entries) = mapValues f (insert key value entries) := by
  induction entries with
  | nil => rfl
  | cons entry rest ih =>
      obtain ⟨k, v⟩ := entry
      by_cases hk : k = key
      · simp [insert, mapValues, hk]
      · simpa [insert, mapValues, hk] using ih

theorem foldl_insert_mapValues (f : α → β) (pairs entries : Entries α) :
    (mapValues f pairs).foldl (fun entries pair => insert pair.1 pair.2 entries)
        (mapValues f entries) =
      mapValues f (pairs.foldl (fun entries pair => insert pair.1 pair.2 entries) entries) := by
  induction pairs generalizing entries with
  | nil => rfl
  | cons pair rest ih =>
      rw [List.foldl_cons, ← ih, ← insert_mapValues]
      rfl

theorem collect_mapValues (f : α → β) (pairs : Entries α) :
    collect (mapValues f pairs) = mapValues f (collect pairs) := foldl_insert_mapValues f pairs []

/-- The first key that passes a test is the same without the repeated keys. -/
theorem find?_eraseDups (test : String → Bool) :
    (names : List String) → names.eraseDups.find? test = names.find? test
  | [] => rfl
  | name :: rest => by
    rw [List.eraseDups_cons, List.find?_cons, List.find?_cons]
    cases htest : test name with
    | true => rfl
    | false =>
        -- what is left out of the rest is the name alone, and it does not pass
        show List.find? test (List.eraseDups (rest.filter fun other => !other == name)) = _
        rw [find?_eraseDups, List.find?_filter]
        refine List.find?_congr fun other _ => ?_
        by_cases hother : other = name
        · simp [hother, htest]
        · simp [hother]
termination_by names => names.length
decreasing_by exact Nat.lt_succ_of_le (List.length_filter_le _ _)

/-- Entries with the same keys in the same order, each once, and with the same values are the
same. -/
theorem eq_of_get? {other : Entries α} (hnodup : (keys entries).Nodup)
    (hkeys : keys other = keys entries)
    (hget : ∀ key ∈ keys entries, get? key other = get? key entries) : other = entries := by
  induction entries generalizing other with
  | nil => exact List.map_eq_nil_iff.1 hkeys
  | cons entry rest ih =>
      obtain ⟨key, value⟩ := entry
      cases other with
      | nil => cases hkeys
      | cons twin others =>
          obtain ⟨twinKey, twinValue⟩ := twin
          obtain ⟨rfl, hrest⟩ : twinKey = key ∧ keys others = keys rest := List.cons.inj hkeys
          obtain ⟨hnew, hnodup⟩ := List.nodup_cons.1 hnodup
          have hvalue : twinValue = value := by
            simpa [get?] using hget twinKey List.mem_cons_self
          have hothers : others = rest := by
            refine ih hnodup hrest fun other hother => ?_
            have hne : other ≠ twinKey := ne_of_mem_of_not_mem hother hnew
            simpa [get?, List.lookup_cons, beq_false_of_ne hne] using
              hget other (List.mem_cons_of_mem _ hother)
          rw [hvalue, hothers]

end Entries

namespace OrderedMap

variable {α : Type} {map : OrderedMap α} {key other : String} {value : α}

theorem contains_iff : map.contains key = true ↔ key ∈ map.keys := by
  rw [contains, List.contains_iff_mem]

theorem contains_eq_false_iff : map.contains key = false ↔ key ∉ map.keys := by
  rw [← contains_iff, Bool.not_eq_true]

theorem mem_keys_iff : key ∈ map.keys ↔ ∃ value, map.get? key = some value :=
  ⟨Entries.exists_get?_of_mem_keys, fun ⟨_, h⟩ => Entries.mem_keys_of_get? h⟩

theorem mem_values_iff : value ∈ map.values ↔ ∃ key, map.get? key = some value := by
  rw [values, List.mem_map]
  constructor
  · rintro ⟨⟨key, value⟩, hmem, rfl⟩
    exact ⟨key, mem_entries_iff.1 hmem⟩
  · rintro ⟨key, hget⟩
    exact ⟨(key, value), mem_entries_iff.2 hget, rfl⟩

/-- A new key comes last. -/
theorem entries_insert_of_not_mem (h : key ∉ map.keys) :
    (map.insert key value).entries = map.entries ++ [(key, value)] :=
  Entries.insert_of_not_mem h

theorem keys_insert_of_not_mem (h : key ∉ map.keys) :
    (map.insert key value).keys = map.keys ++ [key] := by
  simp [keys, Entries.keys, entries_insert_of_not_mem h]

theorem mem_keys_insert_iff :
    other ∈ (map.insert key value).keys ↔ other = key ∨ other ∈ map.keys :=
  Entries.mem_keys_insert

theorem mem_keys_erase_iff : other ∈ (map.erase key).keys ↔ other ≠ key ∧ other ∈ map.keys := by
  simp only [mem_keys_iff, get?_erase]
  split <;> simp_all

theorem eq_of_get? {other : OrderedMap α} (hkeys : other.keys = map.keys)
    (hget : ∀ key, other.get? key = map.get? key) : other = map := by
  have hentries : other.entries = map.entries :=
    Entries.eq_of_get? map.nodup hkeys fun key _ => hget key
  cases other
  cases map
  congr

theorem keys_foldl_modify (f : α → α) (ids : List String) (map : OrderedMap α) :
    (ids.foldl (fun map id => map.modify id f) map).keys = map.keys := by
  induction ids generalizing map with
  | nil => rfl
  | cons id rest ih => rw [List.foldl_cons, ih, keys_modify]

theorem get?_foldl_modify {ids : List String} (hnodup : ids.Nodup) (f : α → α) (map : OrderedMap α)
    (key : String) :
    (ids.foldl (fun map id => map.modify id f) map).get? key =
      if key ∈ ids then (map.get? key).map f else map.get? key := by
  induction ids generalizing map with
  | nil => simp
  | cons id rest ih =>
      obtain ⟨hid, hrest⟩ := List.nodup_cons.1 hnodup
      rw [List.foldl_cons, ih hrest, get?_modify]
      by_cases hkey : key = id
      · subst hkey
        simp [hid]
      · simp [hkey]

/-- To modify the values one after another is to map them. -/
theorem foldl_modify_keys (f : α → α) (map : OrderedMap α) :
    map.keys.foldl (fun map id => map.modify id f) map = map.mapValues f := by
  refine eq_of_get? ?_ fun key => ?_
  · rw [keys_foldl_modify, keys_mapValues]
  · have hnodup : map.keys.Nodup := map.nodup
    rw [get?_foldl_modify hnodup, get?_mapValues]
    split
    · rfl
    · rename_i hkey
      cases hget : map.get? key with
      | none => rfl
      | some value => exact absurd (Entries.mem_keys_of_get? hget) hkey

theorem modify_of_get? (h : map.get? key = some value) (f : α → α) :
    map.modify key f = map.insert key (f value) := by
  rw [modify, h]

/-- To modify a value twice is to modify it once. -/
theorem modify_modify (key : String) (f g : α → α) (map : OrderedMap α) :
    (map.modify key f).modify key g = map.modify key (g ∘ f) := by
  refine eq_of_get? ?_ fun other => ?_
  · simp only [keys_modify]
  · simp only [get?_modify]
    split
    · rw [Option.map_map]
    · rfl

end OrderedMap

end StageChain
