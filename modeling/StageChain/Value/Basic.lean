import StageChain.Double.Basic
import StageChain.Entries

/-!
# Dynamic values

`Value` is JSON data in which whole numbers and doubles are different things. Stage configurations,
compiled stages, documents and serialized graphs are such values. `Value.WellFormed` says that no
object in a value repeats a key, and `Value.isVoid` which values count as nothing given.

Values are nested to any depth. What goes through them does so to the end: that a stack can run out
on the way is not part of the model.
-/

namespace StageChain

/-- JSON data: null, booleans, whole numbers of any size, doubles, texts, lists and objects whose
entries are in order. -/
inductive Value where
  | null
  | bool (b : Bool)
  | int (n : Int)
  | float (x : Double)
  | text (s : String)
  | list (items : List Value)
  | object (entries : List (String × Value))
deriving Inhabited

namespace Value

mutual

/-- Whether two values are the same data; the order of entries counts. -/
def same : Value → Value → Bool
  | null, null => true
  | bool a, bool b => a == b
  | int a, int b => a == b
  | float a, float b => a == b
  | text a, text b => a == b
  | list a, list b => sameItems a b
  | object a, object b => sameEntries a b
  | _, _ => false

/-- Whether two lists of values are the same data. -/
def sameItems : List Value → List Value → Bool
  | [], [] => true
  | a :: as, b :: bs => same a b && sameItems as bs
  | _, _ => false

/-- Whether two lists of entries are the same data. -/
def sameEntries : List (String × Value) → List (String × Value) → Bool
  | [], [] => true
  | (k, a) :: as, (l, b) :: bs => k == l && same a b && sameEntries as bs
  | _, _ => false

end

mutual

theorem eq_of_same : ∀ {a b : Value}, same a b = true → a = b
  | null, b, h => by cases b <;> simp_all [same]
  | bool _, b, h => by cases b <;> simp_all [same]
  | int _, b, h => by cases b <;> simp_all [same]
  | float _, b, h => by cases b <;> simp_all [same]
  | text _, b, h => by cases b <;> simp_all [same]
  | list a, b, h => by
    cases b <;> simp only [same, Bool.false_eq_true] at h
    rw [eq_of_sameItems h]
  | object a, b, h => by
    cases b <;> simp only [same, Bool.false_eq_true] at h
    rw [eq_of_sameEntries h]

theorem eq_of_sameItems : ∀ {a b : List Value}, sameItems a b = true → a = b
  | [], b, h => by cases b <;> simp_all [sameItems]
  | a :: as, b, h => by
    cases b with
    | nil => simp [sameItems] at h
    | cons b bs =>
      simp only [sameItems, Bool.and_eq_true] at h
      rw [eq_of_same h.1, eq_of_sameItems h.2]

theorem eq_of_sameEntries : ∀ {a b : List (String × Value)}, sameEntries a b = true → a = b
  | [], b, h => by cases b <;> simp_all [sameEntries]
  | (k, a) :: as, b, h => by
    cases b with
    | nil => simp [sameEntries] at h
    | cons entry bs =>
      obtain ⟨l, b⟩ := entry
      simp only [sameEntries, Bool.and_eq_true, beq_iff_eq] at h
      rw [h.1.1, eq_of_same h.1.2, eq_of_sameEntries h.2]

end

mutual

theorem same_self : ∀ a : Value, same a a = true
  | null => rfl
  | bool _ => by simp [same]
  | int _ => by simp [same]
  | float _ => by simp [same]
  | text _ => by simp [same]
  | list a => by simp [same, sameItems_self a]
  | object a => by simp [same, sameEntries_self a]

theorem sameItems_self : ∀ a : List Value, sameItems a a = true
  | [] => rfl
  | a :: as => by simp [sameItems, same_self a, sameItems_self as]

theorem sameEntries_self : ∀ a : List (String × Value), sameEntries a a = true
  | [] => rfl
  | (_, a) :: as => by simp [sameEntries, same_self a, sameEntries_self as]

end

instance : DecidableEq Value := fun a b =>
  if h : same a b = true then isTrue (eq_of_same h)
  else isFalse fun heq => h (heq ▸ same_self a)

mutual

/-- No object inside the value repeats a key. -/
def WellFormed : Value → Prop
  | list items => ItemsWellFormed items
  | object entries => (Entries.keys entries).Nodup ∧ EntriesWellFormed entries
  | _ => True

/-- Every value of a list is well formed. -/
def ItemsWellFormed : List Value → Prop
  | [] => True
  | item :: rest => item.WellFormed ∧ ItemsWellFormed rest

/-- Every value of an entry is well formed. -/
def EntriesWellFormed : List (String × Value) → Prop
  | [] => True
  | (_, value) :: rest => value.WellFormed ∧ EntriesWellFormed rest

end

mutual

/-- The values in a value that are neither lists nor objects, in order. -/
def leaves : Value → List Value
  | list items => itemLeaves items
  | object entries => entryLeaves entries
  | leaf => [leaf]

/-- The leaves of the values of a list, in order. -/
def itemLeaves : List Value → List Value
  | [] => []
  | item :: rest => item.leaves ++ itemLeaves rest

/-- The leaves of the values of entries, in order. -/
def entryLeaves : List (String × Value) → List Value
  | [] => []
  | (_, value) :: rest => value.leaves ++ entryLeaves rest

end

/-- Whether a value counts as nothing given: null, false, zero, or something empty. -/
def isVoid : Value → Bool
  | null => true
  | bool b => !b
  | int n => n == 0
  | float x => x.isZero
  | text s => s.isEmpty
  | list items => items.isEmpty
  | object entries => entries.isEmpty

/-- Whether a value is null or the empty text. -/
def isBlank : Value → Bool
  | null => true
  | text s => s.isEmpty
  | _ => false

/-- The value, unless it counts as nothing given. -/
def given? (value : Value) : Option Value := if value.isVoid then none else some value

/-- The entry of a key among the entries of an object, null if there is none. -/
def field (entries : Entries Value) (key : String) : Value :=
  (Entries.get? key entries).getD null

/-- The position at the origin. -/
def origin : Entries Value := [("x", float .zero), ("y", float .zero)]

/-- A list of texts. -/
def texts (items : List String) : Value := list (items.map text)

/-- A text, or null for none. -/
def textOrNull : Option String → Value
  | some s => text s
  | none => null

end Value

end StageChain
