import StageChain.Proofs.Json.RoundTrip

/-!
# JSON texts as JavaScript expressions

`JavaScript.readValue` reads the JavaScript expressions that JSON texts are: literals, the names
`NaN` and `Infinity`, arrays and objects with texts for keys. It differs from JSON in two ways. All
numbers are doubles, and a numeral without a point and an exponent denotes the double nearest to it.
And `__proto__` is no key: what it is given becomes the prototype of the object. The order in which
the properties of an object are enumerated is left out, and so is the error of an object that is
given its prototype twice.

`Evaluates value other` says that `other` is what JavaScript makes of `value`. Every text that is
read as a value in JSON, with words for doubles, is read in JavaScript as what it is evaluated to:
`readValue_of_json`.
-/

namespace StageChain.JavaScript

open Json (skipSpace)

/-! ## Expressions and what they denote -/

/-- The key that gives an object its prototype. -/
def prototypeKey : String := "__proto__"

/-- The properties of an object that is written with pairs of keys and values. -/
def properties (pairs : List (String × Value)) : Entries Value :=
  Entries.erase prototypeKey (Entries.collect pairs)

/-- Reads a decimal literal. -/
def readUnsigned (negative : Bool) (chars : List Char) : Option (Value × List Char) := do
  let (whole, afterWhole) ← Json.readWhole chars
  let (places, afterPlaces) := (Json.readFraction afterWhole).getD ([], afterWhole)
  let (power, rest) := (Json.readExponent afterPlaces).getD (0, afterPlaces)
  let x := Double.ofDecimal negative (Text.digitsValue (whole ++ places)) (power - places.length)
  some (.float x, rest)

/-- Reads a decimal literal with an optional minus. -/
def readNumber : List Char → Option (Value × List Char)
  | '-' :: rest => readUnsigned true rest
  | chars => readUnsigned false chars

mutual

/-- Reads an expression at the front of the characters. -/
def readValue : (fuel : Nat) → List Char → Option (Value × List Char)
  | 0, _ => none
  | fuel + 1, chars =>
    match Json.readWord? Json.Dialect.extended.words chars with
    | some found => some found
    | none =>
      match chars with
      | '"' :: rest => (Json.readText rest).map fun (s, rest) => (.text s, rest)
      | '[' :: rest =>
        match skipSpace rest with
        | ']' :: rest => some (.list [], rest)
        | rest => (readItems fuel rest).map fun (items, rest) => (.list items, rest)
      | '\x7b' :: rest =>
        match skipSpace rest with
        | '\x7d' :: rest => some (.object [], rest)
        | rest =>
          (readEntries fuel rest).map fun (pairs, rest) => (.object (properties pairs), rest)
      | chars => readNumber chars

/-- Reads the items of an array that is not empty, up to the closing bracket. -/
def readItems : (fuel : Nat) → List Char → Option (List Value × List Char)
  | 0, _ => none
  | fuel + 1, chars => do
    let (item, rest) ← readValue fuel chars
    match skipSpace rest with
    | ',' :: rest =>
      (readItems fuel (skipSpace rest)).map fun (items, rest) => (item :: items, rest)
    | ']' :: rest => some ([item], rest)
    | _ => none

/-- Reads the entries of an object that is not empty, up to the closing brace. -/
def readEntries : (fuel : Nat) → List Char → Option (List (String × Value) × List Char)
  | 0, _ => none
  | fuel + 1, chars =>
    match chars with
    | '"' :: rest => do
      let (key, rest) ← Json.readText rest
      match skipSpace rest with
      | ':' :: rest => do
        let (value, rest) ← readValue fuel (skipSpace rest)
        match skipSpace rest with
        | ',' :: rest =>
          (readEntries fuel (skipSpace rest)).map fun (pairs, rest) => ((key, value) :: pairs, rest)
        | '\x7d' :: rest => some ([(key, value)], rest)
        | _ => none
      | _ => none
    | _ => none

end

/-- The value of the constant with a name that code declares first. -/
def constant? (name : String) (code : String) : Option Value := do
  let chars ← ("const " ++ name ++ " = ").toList.isPrefixOf? code.toList
  let (value, rest) ← readValue (2 * chars.length + 2) (skipSpace chars)
  match skipSpace rest with
  | ';' :: _ => some value
  | _ => none

variable {value other : Value} {items others : List Value}
  {entries replaced pairs : List (String × Value)} {key text : String}
  {chars after more rest : List Char} {negative : Bool} {fuel : Nat}

/-! ## Each form of an expression -/

theorem readNumber_of_unsigned (h : ∀ after, chars ≠ '-' :: after) :
    readNumber chars = readUnsigned false chars := by
  unfold readNumber
  split
  · exact absurd rfl (h _)
  · rfl

theorem readValue_of_readWord?
    (h : Json.readWord? Json.Dialect.extended.words chars = some (value, rest)) :
    readValue (fuel + 1) chars = some (value, rest) := by
  rw [readValue.eq_def]
  simp only [h]

theorem readValue_text (h : Json.readText after = some (text, rest)) :
    readValue (fuel + 1) ('"' :: after) = some (.text text, rest) := by
  rw [readValue.eq_def]
  simp only [Json.readWord?_of_not_mem (c := '"') (by decide), h, Option.map_some]

theorem readValue_nil (h : skipSpace after = ']' :: rest) :
    readValue (fuel + 1) ('[' :: after) = some (.list [], rest) := by
  rw [readValue.eq_def]
  simp only [Json.readWord?_of_not_mem (c := '[') (by decide), h]

theorem readValue_list (hbracket : ∀ rest, skipSpace after ≠ ']' :: rest)
    (h : readItems fuel (skipSpace after) = some (items, rest)) :
    readValue (fuel + 1) ('[' :: after) = some (.list items, rest) := by
  rw [readValue.eq_def]
  simp only [Json.readWord?_of_not_mem (c := '[') (by decide), h, Option.map_some]

theorem readValue_empty (h : skipSpace after = '\x7d' :: rest) :
    readValue (fuel + 1) ('\x7b' :: after) = some (.object [], rest) := by
  rw [readValue.eq_def]
  simp only [Json.readWord?_of_not_mem (c := '\x7b') (by decide), h]

theorem readValue_object (hbrace : ∀ rest, skipSpace after ≠ '\x7d' :: rest)
    (h : readEntries fuel (skipSpace after) = some (pairs, rest)) :
    readValue (fuel + 1) ('\x7b' :: after) = some (.object (properties pairs), rest) := by
  rw [readValue.eq_def]
  simp only [Json.readWord?_of_not_mem (c := '\x7b') (by decide), h, Option.map_some]

theorem readValue_number (hword : Json.readWord? Json.Dialect.extended.words chars = none)
    (hquote : ∀ after, chars ≠ '"' :: after) (hbracket : ∀ after, chars ≠ '[' :: after)
    (hbrace : ∀ after, chars ≠ '\x7b' :: after) :
    readValue (fuel + 1) chars = readNumber chars := by
  rw [readValue.eq_def]
  simp only [hword]

theorem readItems_last (hitem : readValue fuel chars = some (value, after))
    (hend : skipSpace after = ']' :: rest) :
    readItems (fuel + 1) chars = some ([value], rest) := by
  rw [readItems.eq_def]
  simp only [hitem, Option.bind_eq_bind, Option.bind_some, hend]

theorem readItems_more (hitem : readValue fuel chars = some (value, after))
    (hcomma : skipSpace after = ',' :: more)
    (hitems : readItems fuel (skipSpace more) = some (items, rest)) :
    readItems (fuel + 1) chars = some (value :: items, rest) := by
  rw [readItems.eq_def]
  simp only [hitem, Option.bind_eq_bind, Option.bind_some, hcomma, hitems, Option.map_some]

section Entries

variable {afterKey afterColon : List Char} (hkey : Json.readText chars = some (key, afterKey))
  (hcolon : skipSpace afterKey = ':' :: afterColon)
  (hvalue : readValue fuel (skipSpace afterColon) = some (value, after))

include hkey hcolon hvalue

theorem readEntries_last (hend : skipSpace after = '\x7d' :: rest) :
    readEntries (fuel + 1) ('"' :: chars) = some ([(key, value)], rest) := by
  rw [readEntries.eq_def]
  simp only [hkey, hcolon, hvalue, Option.bind_eq_bind, Option.bind_some, hend]

theorem readEntries_more (hcomma : skipSpace after = ',' :: more)
    (hentries : readEntries fuel (skipSpace more) = some (pairs, rest)) :
    readEntries (fuel + 1) ('"' :: chars) = some ((key, value) :: pairs, rest) := by
  rw [readEntries.eq_def]
  simp only [hkey, hcolon, hvalue, Option.bind_eq_bind, Option.bind_some, hcomma, hentries,
    Option.map_some]

end Entries

/-! ## What JavaScript makes of a value -/

mutual

/-- One value is what JavaScript makes of another: integers are rounded to doubles, and no object
has a property named like the prototype. -/
inductive Evaluates : Value → Value → Prop where
  | null : Evaluates .null .null
  | bool (b : Bool) : Evaluates (.bool b) (.bool b)
  | int (negative : Bool) (size : Nat) :
      Evaluates (.int (Text.signed negative size)) (.float (Double.ofDecimal negative size 0))
  | float (x : Double) : Evaluates (.float x) (.float x)
  | text (s : String) : Evaluates (.text s) (.text s)
  | list {items others : List Value} :
      AreEvaluated items others → Evaluates (.list items) (.list others)
  | object {entries others : List (String × Value)} :
      EntriesEvaluate entries others →
        Evaluates (.object entries) (.object (Entries.erase prototypeKey others))

/-- The values of one list are what JavaScript makes of those of another, one by one. -/
inductive AreEvaluated : List Value → List Value → Prop where
  | nil : AreEvaluated [] []
  | cons {value other : Value} {items others : List Value} :
      Evaluates value other → AreEvaluated items others →
        AreEvaluated (value :: items) (other :: others)

/-- Entries have the same keys in the same order, and the values of the ones are what JavaScript
makes of those of the others. -/
inductive EntriesEvaluate : List (String × Value) → List (String × Value) → Prop where
  | nil : EntriesEvaluate [] []
  | cons (key : String) {value other : Value} {entries others : List (String × Value)} :
      Evaluates value other → EntriesEvaluate entries others →
        EntriesEvaluate ((key, value) :: entries) ((key, other) :: others)

end

theorem EntriesEvaluate.insert (key : String) (hvalue : Evaluates value other)
    (h : EntriesEvaluate entries replaced) :
    EntriesEvaluate (Entries.insert key value entries) (Entries.insert key other replaced) := by
  induction entries generalizing replaced with
  | nil =>
      cases h
      exact .cons key hvalue .nil
  | cons entry entries ih =>
      cases h with
      | cons first hfirst hrest =>
          by_cases hkey : first = key
          · simp only [Entries.insert, if_pos hkey]
            exact .cons first hvalue hrest
          · simp only [Entries.insert, if_neg hkey]
            exact .cons first hfirst (ih hrest)

theorem EntriesEvaluate.foldl_insert {collected others : List (String × Value)}
    (h : EntriesEvaluate entries replaced) (hcollected : EntriesEvaluate collected others) :
    EntriesEvaluate
      (entries.foldl (fun collected pair => Entries.insert pair.1 pair.2 collected) collected)
      (replaced.foldl (fun collected pair => Entries.insert pair.1 pair.2 collected) others) := by
  induction entries generalizing replaced collected others with
  | nil =>
      cases h
      exact hcollected
  | cons entry entries ih =>
      cases h with
      | cons key hvalue hrest =>
          rw [List.foldl_cons, List.foldl_cons]
          exact ih hrest (hcollected.insert key hvalue)

/-- Of the values of a repeated key the last one counts on both sides. -/
theorem EntriesEvaluate.collect (h : EntriesEvaluate entries replaced) :
    EntriesEvaluate (Entries.collect entries) (Entries.collect replaced) := h.foldl_insert .nil

/-! ## JSON is read in JavaScript -/

/-- Words have no numbers that JavaScript rounds. -/
theorem evaluates_of_readWord?
    (h : Json.readWord? Json.Dialect.extended.words chars = some (value, rest)) :
    Evaluates value value := by
  obtain ⟨⟨word, found⟩, hmem, hfound⟩ := List.exists_of_findSome?_eq_some h
  obtain ⟨_, -, hpair⟩ := Option.map_eq_some_iff.1 hfound
  obtain rfl : found = value := congrArg Prod.fst hpair
  simp only [Json.Dialect.words, Json.Dialect.extended, if_true, List.mem_append, List.mem_cons,
    Prod.mk.injEq, List.not_mem_nil, or_false] at hmem
  rcases hmem with (⟨-, rfl⟩ | ⟨-, rfl⟩ | ⟨-, rfl⟩) | ⟨-, rfl⟩ | ⟨-, rfl⟩ | ⟨-, rfl⟩
  · exact .null
  · exact .bool true
  · exact .bool false
  · exact .float .nan
  · exact .float (.infinite false)
  · exact .float (.infinite true)

/-- A numeral is read as a double; that of an integer as the double nearest to it. -/
theorem readUnsigned_of_json
    (h : Json.readUnsigned .extended negative chars = .ok (value, rest)) :
    ∃ other, readUnsigned negative chars = some (other, rest) ∧ Evaluates value other := by
  cases hwhole : Json.readWhole chars with
  | none =>
      rw [Json.readUnsigned, hwhole] at h
      cases h
  | some found =>
      obtain ⟨whole, afterWhole⟩ := found
      rw [Json.readUnsigned_eq hwhole] at h
      simp only [readUnsigned, hwhole, Option.bind_eq_bind, Option.bind_some]
      cases hfraction : Json.readFraction afterWhole with
      | none =>
          rw [hfraction] at h
          simp only [Option.getD_none] at h ⊢
          cases hexponent : Json.readExponent afterWhole with
          | none =>
              rw [hexponent] at h
              cases h
              refine ⟨_, rfl, ?_⟩
              rw [List.append_nil]
              exact .int negative _
          | some found =>
              rw [hexponent] at h
              cases h
              exact ⟨_, rfl, .float _⟩
      | some found =>
          obtain ⟨places, afterPlaces⟩ := found
          rw [hfraction] at h
          cases h
          exact ⟨_, rfl, .float _⟩

theorem readNumber_of_json (h : Json.readNumber .extended chars = .ok (value, rest)) :
    ∃ other, readNumber chars = some (other, rest) ∧ Evaluates value other := by
  unfold Json.readNumber at h
  split at h
  · exact readUnsigned_of_json h
  · rename_i hminus
    rw [readNumber_of_unsigned fun after hafter => hminus after hafter]
    exact readUnsigned_of_json h

theorem eq_some_of_expect {α : Type} {x : Option α} {a : α} (h : Json.expect x = .ok a) :
    x = some a := by
  cases x with
  | none => cases h
  | some found =>
      cases h
      rfl

theorem exists_of_map_eq_ok {α β : Type} {x : Except Json.Fault (α × List Char)} {f : α → β}
    {b : β} (h : x.map (fun part => (f part.1, part.2)) = .ok (b, rest)) :
    ∃ a, x = .ok (a, rest) ∧ f a = b := by
  cases x with
  | error fault => cases h
  | ok part =>
      cases h
      exact ⟨_, rfl, rfl⟩

theorem exists_of_bind_eq_ok {α β : Type} {x : Except Json.Fault α} {f : α → Except Json.Fault β}
    {b : β} (h : x >>= f = .ok b) : ∃ a, x = .ok a ∧ f a = .ok b := by
  cases x with
  | error fault => cases h
  | ok a => exact ⟨a, rfl, h⟩

mutual

-- Both readers go through the text in the same way, so the induction is on their fuel.

/-- What is read as a value in JSON is read in JavaScript as what it is evaluated to. -/
theorem readValue_of_json : ∀ {fuel : Nat} {chars rest : List Char} {value : Value},
    Json.readValue .extended fuel chars = .ok (value, rest) →
      ∃ other, readValue fuel chars = some (other, rest) ∧ Evaluates value other
  | 0, _, _, _, h => nomatch h
  | fuel + 1, chars, rest, value, h => by
      rw [Json.readValue.eq_def] at h
      simp only at h
      split at h
      case h_1 hword =>
        cases h
        exact ⟨value, readValue_of_readWord? hword, evaluates_of_readWord? hword⟩
      case h_2 hword =>
        split at h
        case h_1 =>
          obtain ⟨text, htext, rfl⟩ := exists_of_map_eq_ok h
          exact ⟨_, readValue_text (eq_some_of_expect htext), .text text⟩
        case h_2 =>
          split at h
          case h_1 hbracket =>
            cases h
            exact ⟨_, readValue_nil hbracket, .list .nil⟩
          case h_2 hbracket =>
            obtain ⟨items, hitems, rfl⟩ := exists_of_map_eq_ok h
            obtain ⟨others, hothers, hevaluated⟩ := readItems_of_json hitems
            exact ⟨_, readValue_list hbracket hothers, .list hevaluated⟩
        case h_3 =>
          split at h
          case h_1 hbrace =>
            cases h
            exact ⟨_, readValue_empty hbrace, .object .nil⟩
          case h_2 hbrace =>
            obtain ⟨pairs, hpairs, rfl⟩ :=
              exists_of_map_eq_ok (f := fun pairs => Value.object (Entries.collect pairs)) h
            obtain ⟨others, hothers, hevaluated⟩ := readEntries_of_json hpairs
            exact ⟨_, readValue_object hbrace hothers, .object hevaluated.collect⟩
        case h_4 hquote hbracket hbrace =>
          rw [readValue_number hword hquote hbracket hbrace]
          exact readNumber_of_json h

theorem readItems_of_json : ∀ {fuel : Nat} {chars rest : List Char} {items : List Value},
    Json.readItems .extended fuel chars = .ok (items, rest) →
      ∃ others, readItems fuel chars = some (others, rest) ∧ AreEvaluated items others
  | 0, _, _, _, h => nomatch h
  | fuel + 1, chars, rest, items, h => by
      obtain ⟨⟨item, after⟩, hitem, hafter⟩ := exists_of_bind_eq_ok h
      obtain ⟨other, hother, hevaluated⟩ := readValue_of_json hitem
      simp only at hafter
      split at hafter
      case h_1 hcomma =>
        obtain ⟨more, hmore, rfl⟩ := exists_of_map_eq_ok hafter
        obtain ⟨others, hothers, hrest⟩ := readItems_of_json hmore
        exact ⟨_, readItems_more hother hcomma hothers, .cons hevaluated hrest⟩
      case h_2 hend =>
        cases hafter
        exact ⟨_, readItems_last hother hend, .cons hevaluated .nil⟩
      case h_3 => cases hafter

theorem readEntries_of_json :
    ∀ {fuel : Nat} {chars rest : List Char} {entries : List (String × Value)},
      Json.readEntries .extended fuel chars = .ok (entries, rest) →
        ∃ others, readEntries fuel chars = some (others, rest) ∧ EntriesEvaluate entries others
  | 0, _, _, _, h => nomatch h
  | fuel + 1, chars, rest, entries, h => by
      rw [Json.readEntries.eq_def] at h
      simp only at h
      split at h
      case h_2 => cases h
      case h_1 =>
        obtain ⟨⟨key, afterKey⟩, hkey, hentry⟩ := exists_of_bind_eq_ok h
        simp only at hentry
        split at hentry
        case h_2 => cases hentry
        case h_1 hcolon =>
          obtain ⟨⟨value, after⟩, hvalue, hafter⟩ := exists_of_bind_eq_ok hentry
          obtain ⟨other, hother, hevaluated⟩ := readValue_of_json hvalue
          have htext := eq_some_of_expect hkey
          simp only at hafter
          split at hafter
          case h_1 hcomma =>
            obtain ⟨more, hmore, rfl⟩ := exists_of_map_eq_ok hafter
            obtain ⟨others, hothers, hrest⟩ := readEntries_of_json hmore
            have hentries := readEntries_more htext hcolon hother hcomma hothers
            exact ⟨_, hentries, .cons key hevaluated hrest⟩
          case h_2 hend =>
            cases hafter
            have hentries := readEntries_last htext hcolon hother hend
            exact ⟨_, hentries, .cons key hevaluated .nil⟩
          case h_3 => cases hafter

end

end StageChain.JavaScript
