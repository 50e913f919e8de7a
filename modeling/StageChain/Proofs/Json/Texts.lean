import StageChain.Json.Reader
import StageChain.Json.Writer

/-!
# Text literals are read back

Every character of a text is written as itself or as an escape, and beyond the basic plane, where
only ASCII is written, as two escapes. Whichever it is, the text is read back: `readText_literal`.
-/

namespace StageChain.Json

variable {ascii : Bool} {c : Char} {chars rest : List Char}

/-! ## Characters and units -/

/-- The code units that are written for a character: its code point, or the halves of a surrogate
pair. -/
def unitsOf (ascii : Bool) (c : Char) : List Nat :=
  if ascii && 0x10000 ≤ c.toNat then
    [0xD800 + (c.toNat - 0x10000) / 0x400, 0xDC00 + (c.toNat - 0x10000) % 0x400]
  else [c.toNat]

/-- A character is no surrogate. -/
theorem toNat_lt_or_gt (c : Char) : c.toNat < 0xD800 ∨ 0xDFFF < c.toNat ∧ c.toNat < 0x110000 :=
  c.valid

theorem joinPairs_cons (c : Char) (units : List Nat) :
    joinPairs (c.toNat :: units) = c :: joinPairs units := by
  have hvalid := toNat_lt_or_gt c
  have hunit : charOfUnit c.toNat = c := by
    rw [charOfUnit, if_neg (by omega), Char.ofNat_toNat]
  cases units with
  | nil => simp only [joinPairs, hunit]
  | cons low units =>
      have hpair : isPair c.toNat low = false := by
        simp only [isPair, Bool.and_eq_false_iff, decide_eq_false_iff_not]
        omega
      rw [joinPairs, hpair, hunit]
      rfl

theorem joinPairs_pair (hlarge : 0x10000 ≤ c.toNat) (units : List Nat) :
    joinPairs ((0xD800 + (c.toNat - 0x10000) / 0x400) ::
      (0xDC00 + (c.toNat - 0x10000) % 0x400) :: units) = c :: joinPairs units := by
  have hvalid := toNat_lt_or_gt c
  have hpair : isPair (0xD800 + (c.toNat - 0x10000) / 0x400)
      (0xDC00 + (c.toNat - 0x10000) % 0x400) = true := by
    simp only [isPair, Bool.and_eq_true, decide_eq_true_eq]
    omega
  have hpoint : 0x10000 + (0xD800 + (c.toNat - 0x10000) / 0x400 - 0xD800) * 0x400 +
      (0xDC00 + (c.toNat - 0x10000) % 0x400 - 0xDC00) = c.toNat := by
    omega
  rw [joinPairs, if_pos hpair, hpoint, Char.ofNat_toNat]

/-- The units of characters are joined to the characters. -/
theorem joinPairs_flatMap (ascii : Bool) (chars : List Char) :
    joinPairs (chars.flatMap (unitsOf ascii)) = chars := by
  induction chars with
  | nil => rfl
  | cons c chars ih =>
      rw [List.flatMap_cons, unitsOf]
      split
      · rename_i hpair
        simp only [Bool.and_eq_true, decide_eq_true_eq] at hpair
        simp only [List.cons_append, List.nil_append]
        rw [joinPairs_pair hpair.2, ih]
      · rw [List.singleton_append, joinPairs_cons, ih]

/-! ## What is written for a character -/

/-- The letters of escapes and the characters that they stand for. -/
def escapeLetters : List (Char × Char) :=
  [('"', '"'), ('\\', '\\'), ('n', '\n'), ('r', '\r'), ('t', '\t'), ('b', '\x08'), ('f', '\x0c')]

/-- A character is written as an escape with a letter, as escapes of its units, or as itself. -/
inductive CharForm (ascii : Bool) (c : Char) : List Char → Prop where
  | letter {mark : Char} : (mark, c) ∈ escapeLetters → CharForm ascii c ['\\', mark]
  | units : (∀ unit ∈ unitsOf ascii c, unit < 0x10000) →
      CharForm ascii c ((unitsOf ascii c).flatMap escapeUnit)
  | plain : c ≠ '"' → c ≠ '\\' → 32 ≤ c.toNat → unitsOf ascii c = [c.toNat] → CharForm ascii c [c]

theorem unitsOf_of_lt (h : c.toNat < 0x10000) : unitsOf ascii c = [c.toNat] := by
  simp [unitsOf, Nat.not_le.2 h]

/-- The character of a letter is in the basic plane. -/
theorem unitsOf_of_mem {mark : Char} (h : (mark, c) ∈ escapeLetters) :
    unitsOf ascii c = [c.toNat] := by
  have hbasic : ∀ entry ∈ escapeLetters, entry.2.toNat < 0x10000 := by decide
  exact unitsOf_of_lt (hbasic _ h)

theorem escapeCodePoint_eq (c : Char) :
    escapeCodePoint c.toNat = (unitsOf true c).flatMap escapeUnit := by
  simp only [escapeCodePoint, unitsOf, Bool.true_and, decide_eq_true_eq]
  split
  · rw [if_neg (by omega), List.flatMap_singleton]
  · rw [if_pos (by omega)]
    simp

theorem lt_of_mem_unitsOf {unit : Nat} (h : unit ∈ unitsOf true c) : unit < 0x10000 := by
  have hvalid := toNat_lt_or_gt c
  simp only [unitsOf, Bool.true_and, decide_eq_true_eq] at h
  split at h <;> simp at h <;> omega

theorem charForm_writeChar (ascii : Bool) (c : Char) : CharForm ascii c (writeChar ascii c) := by
  unfold writeChar
  split
  · rename_i hmarked
    exact .letter (by rcases hmarked with rfl | rfl <;> decide)
  split
  · rename_i heq
    exact .letter (by subst heq; decide)
  split
  · rename_i heq
    exact .letter (by subst heq; decide)
  split
  · rename_i heq
    exact .letter (by subst heq; decide)
  split
  · rename_i heq
    exact .letter (by subst heq; decide)
  split
  · rename_i heq
    exact .letter (by subst heq; decide)
  rename_i hmarked _ _ _ _ _
  split
  · rename_i hcontrol
    have hunits : unitsOf ascii c = [c.toNat] := unitsOf_of_lt (by omega)
    have hform : CharForm ascii c ((unitsOf ascii c).flatMap escapeUnit) :=
      .units (by simp [hunits]; omega)
    rwa [hunits, List.flatMap_singleton] at hform
  rename_i hcontrol
  split
  · rename_i hescaped
    simp only [Bool.and_eq_true, decide_eq_true_eq] at hescaped
    rw [escapeCodePoint_eq, hescaped.1]
    exact .units fun unit => lt_of_mem_unitsOf
  · rename_i hplain
    rw [not_or] at hmarked
    refine .plain hmarked.1 hmarked.2 (by omega) ?_
    simp only [Bool.and_eq_true, decide_eq_true_eq] at hplain
    simp only [unitsOf, Bool.and_eq_true, decide_eq_true_eq]
    rw [if_neg fun hpair => hplain ⟨hpair.1, by omega⟩]

/-! ## Escapes -/

theorem hexUnit?_hexFixed {unit : Nat} (h : unit < 0x10000) :
    ∃ a b c d, Text.hexFixed 4 unit = [a, b, c, d] ∧ hexUnit? a b c d = some unit := by
  refine ⟨_, _, _, _, rfl, ?_⟩
  have hdigit : ∀ n, Text.hexValue? (Text.hexDigit (n % 16)) = some (n % 16) := fun n =>
    Text.hexValue?_hexDigit _ (Nat.mod_lt _ (by decide))
  simp only [hexUnit?, hdigit, Option.bind_eq_bind, Option.bind_some]
  congr 1
  omega

theorem hexUnit?_lt {a b d e : Char} {unit : Nat} (h : hexUnit? a b d e = some unit) :
    unit < 0x10000 := by
  have hdigit : ∀ {c : Char} {n : Nat}, Text.hexValue? c = some n → n < 16 := by
    intro c n hc
    simp only [Text.hexValue?] at hc
    repeat' split at hc
    all_goals cases hc <;> omega
  simp only [hexUnit?, Option.bind_eq_bind, Option.bind_eq_some_iff, Option.some.injEq] at h
  obtain ⟨first, ha, second, hb, third, hd, fourth, he, rfl⟩ := h
  have := hdigit ha
  have := hdigit hb
  have := hdigit hd
  have := hdigit he
  omega

theorem readUnits_escapeUnit {unit : Nat} (h : unit < 0x10000) (rest : List Char) :
    readUnits (escapeUnit unit ++ rest) =
      (readUnits rest).map fun (units, rest) => (unit :: units, rest) := by
  obtain ⟨a, b, c, d, hdigits, hunit⟩ := hexUnit?_hexFixed h
  rw [escapeUnit, hdigits]
  simp only [List.cons_append, List.nil_append, readUnits, hunit, Option.bind_eq_bind,
    Option.bind_some]
  cases readUnits rest <;> rfl

/-- Escapes of units are read as the units. -/
theorem readUnits_escapeUnits {units : List Nat} (h : ∀ unit ∈ units, unit < 0x10000)
    (rest : List Char) :
    readUnits (units.flatMap escapeUnit ++ rest) =
      (readUnits rest).map fun (more, rest) => (units ++ more, rest) := by
  induction units with
  | nil => simp
  | cons unit units ih =>
      obtain ⟨hunit, hunits⟩ := List.forall_mem_cons.1 h
      rw [List.flatMap_cons, List.append_assoc, readUnits_escapeUnit hunit, ih hunits,
        Option.map_map]
      rfl

/-- An escape of one letter is read as its character. -/
theorem readUnits_escaped {mark : Char} (hmark : (mark, c) ∈ escapeLetters) (rest : List Char) :
    readUnits ('\\' :: mark :: rest) =
      (readUnits rest).map fun (units, rest) => (c.toNat :: units, rest) := by
  have hletters : ∀ entry ∈ escapeLetters, escaped? entry.1 = some entry.2 ∧ entry.1 ≠ 'u' := by
    decide
  obtain ⟨hletter, hne⟩ := hletters _ hmark
  rw [readUnits.eq_def]
  split
  · rename_i heq
    cases heq
  · rename_i heq
    cases heq
  · rename_i heq
    cases heq
    exact absurd rfl hne
  · rename_i heq
    cases heq
    simp only [hletter, Option.bind_eq_bind, Option.bind_some]
    cases readUnits rest <;> rfl
  · rename_i hother heq
    cases heq
    exact absurd rfl (hother _ _ rfl)

/-- A character that needs no escape is read as itself. -/
theorem readUnits_plain (hquote : c ≠ '"') (hslash : c ≠ '\\') (hlarge : 32 ≤ c.toNat)
    (rest : List Char) :
    readUnits (c :: rest) = (readUnits rest).map fun (units, rest) => (c.toNat :: units, rest) := by
  rw [readUnits.eq_def]
  split
  · rename_i heq
    cases heq
  · rename_i heq
    cases heq
    exact absurd rfl hquote
  · rename_i heq
    cases heq
    exact absurd rfl hslash
  · rename_i heq
    cases heq
    exact absurd rfl hslash
  · rename_i heq
    cases heq
    rw [if_neg (by omega)]

theorem readUnits_writeChar (ascii : Bool) (c : Char) (rest : List Char) :
    readUnits (writeChar ascii c ++ rest) =
      (readUnits rest).map fun (units, rest) => (unitsOf ascii c ++ units, rest) := by
  have hform := charForm_writeChar ascii c
  generalize writeChar ascii c = chars at hform ⊢
  cases hform with
  | letter hmark =>
      rw [unitsOf_of_mem hmark]
      exact readUnits_escaped hmark rest
  | units hunits => exact readUnits_escapeUnits hunits rest
  | plain hquote hslash hlarge hunits =>
      rw [hunits]
      exact readUnits_plain hquote hslash hlarge rest

/-- A text literal starts with a quote and ends with one. -/
theorem writeText_append (ascii : Bool) (text : String) (rest : List Char) :
    writeText ascii text ++ rest =
      '"' :: (text.toList.flatMap (writeChar ascii) ++ '"' :: rest) := by
  simp [writeText]

/-- What is written for characters is read as their units. -/
theorem readUnits_flatMap (ascii : Bool) (chars rest : List Char) :
    readUnits (chars.flatMap (writeChar ascii) ++ '"' :: rest) =
      some (chars.flatMap (unitsOf ascii), rest) := by
  induction chars with
  | nil => rfl
  | cons c chars ih =>
      rw [List.flatMap_cons, List.append_assoc, readUnits_writeChar, ih, List.flatMap_cons]
      rfl

/-- A text literal is read up to its closing quote. -/
theorem readText_literal (ascii : Bool) (text : String) (rest : List Char) :
    readText (text.toList.flatMap (writeChar ascii) ++ '"' :: rest) = some (text, rest) := by
  simp only [readText, readUnits_flatMap, Option.map_some, joinPairs_flatMap, String.ofList_toList]

end StageChain.Json
