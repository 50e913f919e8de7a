import StageChain.Proofs.Json.Texts

/-!
# Text literals in Python

`PythonLiteral.readText` reads a text literal between single or double quotes by the rules of
Python. What is denoted is a list of code points: unlike in JSON, escapes for the halves of a
surrogate pair are not joined, and halves are not part of any text. The literals that are written
without escapes beyond ASCII are read back: `readText_writeText`.
-/

namespace StageChain.PythonLiteral

open Text

/-! ## Literals and what they denote -/

/-- The code point that an escape of one letter stands for. -/
def escapedUnit? (letter : Char) : Option Nat :=
  match letter with
  | '\\' => some 92
  | '\'' => some 39
  | '"' => some 34
  | 'a' => some 7
  | 'b' => some 8
  | 't' => some 9
  | 'n' => some 10
  | 'v' => some 11
  | 'f' => some 12
  | 'r' => some 13
  | _ => none

/-- How many hexadecimal digits an escape takes. -/
def hexWidth? (letter : Char) : Option Nat :=
  match letter with
  | 'x' => some 2
  | 'u' => some 4
  | 'U' => some 8
  | _ => none

/-- The number that hexadecimal digits write. -/
def hexNumber? (digits : List Char) : Option Nat :=
  digits.foldlM (fun value c => (hexValue? c).map (16 * value + ·)) 0

/-- Whether a character is an octal digit. -/
def isOctalDigit (c : Char) : Bool := 48 ≤ c.toNat && c.toNat ≤ 55

/-- The number that octal digits write. -/
def octalNumber (digits : List Char) : Nat :=
  digits.foldl (fun value c => 8 * value + (c.toNat - 48)) 0

/-- Whether a character ends a line or cannot stand in a program. -/
def isBreak (c : Char) : Bool := c == '\n' || c == '\r' || c == '\x00'

/-- Reads an escape after its backslash, as the code points that it stands for. An escape of a line
feed stands for nothing and one that is not known for itself; names of characters are not read. -/
def readEscape : List Char → Option (List Nat × List Char)
  | [] => none
  | letter :: rest =>
    match escapedUnit? letter, hexWidth? letter with
    | some unit, _ => some ([unit], rest)
    | none, some width => do
      let unit ← if rest.length < width then none else hexNumber? (rest.take width)
      if 0x10FFFF < unit then none else some ([unit], rest.drop width)
    | none, none =>
      if letter = '\n' then some ([], rest)
      else if letter = 'N' || isBreak letter then none
      else if isOctalDigit letter then
        let digits := (letter :: rest.take 2).takeWhile isOctalDigit
        some ([octalNumber digits], (letter :: rest).drop digits.length)
      else some ([92, letter.toNat], rest)

/-- Reads up to the closing quote, as code points. -/
def readUnits (quote : Char) : (fuel : Nat) → List Char → Option (List Nat × List Char)
  | 0, _ => none
  | _ + 1, [] => none
  | fuel + 1, c :: rest =>
    if c = quote then some ([], rest)
    else if c = '\\' then do
      let (units, rest) ← readEscape rest
      let (more, rest) ← readUnits quote fuel rest
      some (units ++ more, rest)
    else if isBreak c then none
    else do
      let (more, rest) ← readUnits quote fuel rest
      some (c.toNat :: more, rest)

/-- The text of code points, none of which is half of a surrogate pair. -/
def textOf? (units : List Nat) : Option String :=
  if ∀ unit ∈ units, unit.isValidChar then some (String.ofList (units.map Char.ofNat)) else none

/-- Reads the code points of a literal. Three quotes open a literal of another kind, which is not
read. -/
def readLiteral : List Char → Option (List Nat × List Char)
  | quote :: rest =>
    if (quote = '"' ∨ quote = '\'') ∧ ¬ [quote, quote] <+: rest then
      readUnits quote (rest.length + 1) rest
    else none
  | [] => none

/-- Reads a text literal. -/
def readText (chars : List Char) : Option (String × List Char) := do
  let (units, rest) ← readLiteral chars
  let text ← textOf? units
  some (text, rest)

/-! ## Characters of a literal -/

variable {ascii : Bool} {c : Char} {chars rest : List Char} {units : List Nat} {fuel : Nat}

theorem readUnits_escape (h : readEscape chars = some (units, rest)) :
    readUnits '"' (fuel + 1) ('\\' :: chars) =
      (readUnits '"' fuel rest).map fun (more, rest) => (units ++ more, rest) := by
  rw [readUnits, if_neg (by decide), if_pos rfl, h]
  simp only [Option.bind_eq_bind, Option.bind_some]
  cases readUnits '"' fuel rest <;> rfl

theorem isBreak_of_le (h : 32 ≤ c.toNat) : isBreak c = false := by
  simp only [isBreak, Bool.or_eq_false_iff, beq_eq_false_iff_ne]
  refine ⟨⟨?_, ?_⟩, ?_⟩ <;> rintro rfl <;> exact absurd h (by decide)

/-- A character that needs no escape is read as itself. -/
theorem readUnits_plain (hquote : c ≠ '"') (hslash : c ≠ '\\') (hlarge : 32 ≤ c.toNat) :
    readUnits '"' (fuel + 1) (c :: rest) =
      (readUnits '"' fuel rest).map fun (more, rest) => (c.toNat :: more, rest) := by
  rw [readUnits, if_neg hquote, if_neg hslash, isBreak_of_le hlarge]
  cases readUnits '"' fuel rest <;> rfl

theorem hexNumber?_hexFixed {unit : Nat} (h : unit < 0x10000) :
    hexNumber? (hexFixed 4 unit) = some unit := by
  have hdigit : ∀ n, hexValue? (hexDigit (n % 16)) = some (n % 16) := fun n =>
    hexValue?_hexDigit _ (Nat.mod_lt _ (by decide))
  simp [hexNumber?, hexFixed, hdigit]
  omega

theorem readEscape_hexFixed {unit : Nat} (h : unit < 0x10000) (rest : List Char) :
    readEscape ('u' :: (hexFixed 4 unit ++ rest)) = some ([unit], rest) := by
  have hlength : (hexFixed 4 unit).length = 4 := rfl
  simp [readEscape, escapedUnit?, hexWidth?, hlength, hexNumber?_hexFixed h]
  omega

/-- Escapes of units are read one by one. -/
theorem readUnits_escapeUnits (h : ∀ unit ∈ units, unit < 0x10000) :
    readUnits '"' (fuel + units.length) (units.flatMap Json.escapeUnit ++ rest) =
      (readUnits '"' fuel rest).map fun (more, rest) => (units ++ more, rest) := by
  induction units with
  | nil => simp
  | cons unit units ih =>
      obtain ⟨hunit, hunits⟩ := List.forall_mem_cons.1 h
      rw [List.flatMap_cons, List.append_assoc, List.length_cons, ← Nat.add_assoc]
      refine (readUnits_escape (readEscape_hexFixed hunit _)).trans ?_
      rw [ih hunits, Option.map_map]
      rfl

theorem readUnits_writeChar (ascii : Bool) (c : Char) :
    readUnits '"' (fuel + (Json.unitsOf ascii c).length) (Json.writeChar ascii c ++ rest) =
      (readUnits '"' fuel rest).map fun (more, rest) => (Json.unitsOf ascii c ++ more, rest) := by
  have hform := Json.charForm_writeChar ascii c
  generalize Json.writeChar ascii c = chars at hform ⊢
  cases hform with
  | @letter mark hmark =>
      have hletters : ∀ entry ∈ Json.escapeLetters,
          escapedUnit? entry.1 = some entry.2.toNat := by decide
      have hescape : readEscape (mark :: rest) = some ([c.toNat], rest) := by
        simp only [readEscape, hletters _ hmark]
      rw [Json.unitsOf_of_mem hmark]
      exact readUnits_escape hescape
  | units hunits => exact readUnits_escapeUnits hunits
  | plain hquote hslash hlarge hunits =>
      rw [hunits]
      exact readUnits_plain hquote hslash hlarge

/-! ## Whole literals -/

/-- What is written for a character does not start with a quote. -/
theorem exists_writeChar_eq (ascii : Bool) (c : Char) :
    ∃ first more, Json.writeChar ascii c = first :: more ∧ first ≠ '"' := by
  have hform := Json.charForm_writeChar ascii c
  generalize Json.writeChar ascii c = chars at hform ⊢
  cases hform with
  | letter hmark => exact ⟨_, _, rfl, by decide⟩
  | units hunits =>
      unfold Json.unitsOf
      split <;> exact ⟨_, _, rfl, by decide⟩
  | plain hquote => exact ⟨_, _, rfl, hquote⟩

/-- No character has more units than characters that are written for it. -/
theorem length_unitsOf_le (ascii : Bool) (c : Char) :
    (Json.unitsOf ascii c).length ≤ (Json.writeChar ascii c).length := by
  have hform := Json.charForm_writeChar ascii c
  generalize Json.writeChar ascii c = chars at hform ⊢
  cases hform with
  | letter hmark => simp [Json.unitsOf_of_mem hmark]
  | units hunits =>
      unfold Json.unitsOf
      split <;> simp [Json.escapeUnit]
  | plain hquote hslash hlarge hunits => simp [hunits]

theorem readUnits_flatMap (ascii : Bool) (chars rest : List Char)
    (hfuel : (chars.flatMap (Json.writeChar ascii)).length < fuel) :
    readUnits '"' fuel (chars.flatMap (Json.writeChar ascii) ++ '"' :: rest) =
      some (chars.flatMap (Json.unitsOf ascii), rest) := by
  induction chars generalizing fuel with
  | nil =>
      obtain ⟨fuel, rfl⟩ : ∃ less, fuel = less + 1 := ⟨fuel - 1, by omega⟩
      rfl
  | cons c chars ih =>
      have hlength := length_unitsOf_le ascii c
      rw [List.flatMap_cons, List.length_append] at hfuel
      obtain ⟨less, rfl⟩ : ∃ less, fuel = less + (Json.unitsOf ascii c).length :=
        ⟨fuel - (Json.unitsOf ascii c).length, by omega⟩
      rw [List.flatMap_cons, List.append_assoc, readUnits_writeChar, ih (by omega)]
      rfl

/-- The code points of a literal are the units of the text, whatever follows other than a quote. -/
theorem readLiteral_writeText (ascii : Bool) (text : String) (hrest : rest.head? ≠ some '"') :
    readLiteral (Json.writeText ascii text ++ rest) =
      some (text.toList.flatMap (Json.unitsOf ascii), rest) := by
  have hopen : ¬ ['"', '"'] <+: text.toList.flatMap (Json.writeChar ascii) ++ '"' :: rest := by
    cases text.toList with
    | nil =>
        rintro ⟨after, hafter⟩
        simp only [List.cons_append, List.nil_append, List.flatMap_nil, List.cons.injEq] at hafter
        exact hrest (by rw [← hafter.2]; rfl)
    | cons c chars =>
        obtain ⟨first, more, hfirst, hne⟩ := exists_writeChar_eq ascii c
        rintro ⟨after, hafter⟩
        simp only [List.cons_append, List.flatMap_cons, hfirst, List.cons.injEq] at hafter
        exact hne hafter.1.symm
  rw [Json.writeText_append, readLiteral, if_pos ⟨.inl rfl, hopen⟩]
  refine readUnits_flatMap ascii text.toList rest ?_
  rw [List.length_append]
  omega

theorem textOf?_map_toNat (chars : List Char) :
    textOf? (chars.map Char.toNat) = some (String.ofList chars) := by
  have hvalid : ∀ unit ∈ chars.map Char.toNat, unit.isValidChar := by
    intro unit hunit
    obtain ⟨c, -, rfl⟩ := List.mem_map.1 hunit
    exact c.valid
  rw [textOf?, if_pos hvalid, List.map_map]
  congr 2
  exact List.map_id'' Char.ofNat_toNat chars

/-- A literal without escapes beyond ASCII is read back, whatever follows other than a quote. -/
theorem readText_writeText (text : String) (hrest : rest.head? ≠ some '"') :
    readText (Json.writeText false text ++ rest) = some (text, rest) := by
  have hunits : text.toList.flatMap (Json.unitsOf false) = text.toList.map Char.toNat :=
    List.map_eq_flatMap.symm
  simp only [readText, readLiteral_writeText false text hrest, Option.bind_eq_bind,
    Option.bind_some, hunits, textOf?_map_toNat, String.ofList_toList]

end StageChain.PythonLiteral
