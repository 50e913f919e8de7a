import StageChain.Proofs.Json.Texts

/-!
# Text literals in JavaScript

`JavaScript.readString` reads a text literal between single or double quotes by the rules of
JavaScript. What is denoted is a list of UTF-16 code units, so that a character beyond the basic
plane is the same as two escapes for the halves of its surrogate pair. Escapes with octal digits are
not read.

Every text literal of JSON is a literal of JavaScript and denotes the same code units:
`readUnits_of_json`. So the literals that are written denote the texts that they are written for:
`readString_writeText`.
-/

namespace StageChain.JavaScript

/-! ## Literals and what they denote -/

/-- The code units of a code point: itself, or the halves of a surrogate pair. -/
def utf16 (n : Nat) : List Nat :=
  if n < 0x10000 then [n] else [0xD800 + (n - 0x10000) / 0x400, 0xDC00 + (n - 0x10000) % 0x400]

/-- The code units of a text. -/
def units (text : String) : List Nat := text.toList.flatMap fun c => utf16 c.toNat

/-- The code unit that an escape of one letter stands for. -/
def escapedUnit? (letter : Char) : Option Nat :=
  match letter with
  | '\'' => some 39
  | '"' => some 34
  | '\\' => some 92
  | 'b' => some 8
  | 't' => some 9
  | 'n' => some 10
  | 'v' => some 11
  | 'f' => some 12
  | 'r' => some 13
  | _ => none

/-- Whether a character ends a line. -/
def isLineEnd (c : Char) : Bool :=
  c == '\n' || c == '\r' || c.toNat == 0x2028 || c.toNat == 0x2029

/-- The code point that hexadecimal digits write. -/
def codePoint? (digits : List Char) : Option Nat := do
  let n ← digits.foldlM (fun value c => (Text.hexValue? c).map (16 * value + ·)) 0
  if digits ≠ [] ∧ n ≤ 0x10FFFF then some n else none

/-- Reads an escape after its backslash, as the code units that it stands for. An escape of a line
break stands for nothing, and one of a character without a meaning of its own for the character. -/
def readEscape : List Char → Option (List Nat × List Char)
  | [] => none
  | 'x' :: rest =>
    match rest with
    | a :: b :: rest => (codePoint? [a, b]).map fun unit => ([unit], rest)
    | _ => none
  | 'u' :: rest =>
    match rest with
    | '\x7b' :: rest =>
      match rest.dropWhile (· != '\x7d') with
      | _ :: after => (codePoint? (rest.takeWhile (· != '\x7d'))).map fun n => (utf16 n, after)
      | [] => none
    | a :: b :: c :: d :: rest => (Json.hexUnit? a b c d).map fun unit => ([unit], rest)
    | _ => none
  | '\r' :: '\n' :: rest => some ([], rest)
  | letter :: rest =>
    match escapedUnit? letter with
    | some unit => some ([unit], rest)
    | none =>
      if letter = '0' ∧ ¬ (rest.head?.any Text.isAsciiDigit) then some ([0], rest)
      else if Text.isAsciiDigit letter then none
      else if isLineEnd letter then some ([], rest)
      else some (utf16 letter.toNat, rest)

/-- Reads up to the closing quote, as code units. -/
def readUnits (quote : Char) : (fuel : Nat) → List Char → Option (List Nat × List Char)
  | 0, _ => none
  | _ + 1, [] => none
  | fuel + 1, c :: rest =>
    if c = quote then some ([], rest)
    else if c = '\\' then do
      let (units, rest) ← readEscape rest
      let (more, rest) ← readUnits quote fuel rest
      some (units ++ more, rest)
    else if c = '\n' ∨ c = '\r' then none
    else do
      let (more, rest) ← readUnits quote fuel rest
      some (utf16 c.toNat ++ more, rest)

/-- Reads a text literal. -/
def readString : List Char → Option (List Nat × List Char)
  | [] => none
  | quote :: rest =>
    if quote = '"' ∨ quote = '\'' then readUnits quote (rest.length + 1) rest else none

/-! ## Code units of texts -/

variable {ascii : Bool} {c : Char} {chars rest after : List Char} {points found more : List Nat}
  {fuel : Nat}

theorem unitsOf_eq_utf16 (c : Char) : Json.unitsOf true c = utf16 c.toNat := by
  simp only [Json.unitsOf, utf16, Bool.true_and, decide_eq_true_eq]
  split
  · rw [if_neg (by omega)]
  · rw [if_pos (by omega)]

/-- Texts with the same code units are the same. -/
theorem units_injective : Function.Injective units := by
  intro text other hsame
  simp only [units, ← unitsOf_eq_utf16] at hsame
  have hjoined := congrArg Json.joinPairs hsame
  rw [Json.joinPairs_flatMap, Json.joinPairs_flatMap] at hjoined
  exact String.toList_injective hjoined

/-- Whether a character is written as two escapes or as itself, its code units are the same. -/
theorem flatMap_utf16_unitsOf (ascii : Bool) (c : Char) :
    (Json.unitsOf ascii c).flatMap utf16 = utf16 c.toNat := by
  have hvalid := Json.toNat_lt_or_gt c
  cases ascii with
  | false => simp [Json.unitsOf]
  | true =>
      rw [unitsOf_eq_utf16]
      unfold utf16
      split
      · rename_i hbasic
        simp [hbasic]
      · have hhigh : 0xD800 + (c.toNat - 0x10000) / 0x400 < 0x10000 := by omega
        have hlow : 0xDC00 + (c.toNat - 0x10000) % 0x400 < 0x10000 := by omega
        simp [hhigh, hlow]

/-! ## Literals of JSON -/

theorem readUnits_escape (h : readEscape chars = some (found, rest))
    (hrest : readUnits '"' fuel rest = some (more, after)) :
    readUnits '"' (fuel + 1) ('\\' :: chars) = some (found ++ more, after) := by
  rw [readUnits, if_neg (by decide), if_pos rfl, h]
  simp only [Option.bind_eq_bind, Option.bind_some, hrest]

theorem readUnits_plain (hquote : c ≠ '"') (hslash : c ≠ '\\') (hlarge : 32 ≤ c.toNat)
    (hrest : readUnits '"' fuel rest = some (more, after)) :
    readUnits '"' (fuel + 1) (c :: rest) = some (utf16 c.toNat ++ more, after) := by
  have hline : ¬ (c = '\n' ∨ c = '\r') := by
    rintro (rfl | rfl) <;> exact absurd hlarge (by decide)
  rw [readUnits, if_neg hquote, if_neg hslash, if_neg hline, hrest]
  rfl

theorem readEscape_letter {letter : Char} (h : Json.escaped? letter = some c) (rest : List Char) :
    readEscape (letter :: rest) = some (utf16 c.toNat, rest) := by
  unfold Json.escaped? at h
  split at h <;> cases h <;> rfl

theorem readEscape_unit {a b d e : Char} {unit : Nat} (h : Json.hexUnit? a b d e = some unit)
    (rest : List Char) :
    readEscape ('u' :: a :: b :: d :: e :: rest) = some (utf16 unit, rest) := by
  have hbrace : a ≠ '\x7b' := by
    rintro rfl
    cases h
  have hbasic : utf16 unit = [unit] := if_pos (Json.hexUnit?_lt h)
  rw [readEscape]
  · simp only [h, Option.map_some, hbasic]
  · exact hbrace

/-- A text literal of JSON is one of JavaScript. -/
theorem readUnits_of_json (h : Json.readUnits chars = some (points, rest))
    (hfuel : chars.length < fuel) :
    readUnits '"' fuel chars = some (points.flatMap utf16, rest) := by
  fun_induction Json.readUnits chars generalizing points fuel with
  | case1 => cases h
  | case2 left =>
      cases h
      obtain ⟨fuel, rfl⟩ := Nat.exists_eq_add_of_lt hfuel
      rfl
  | case3 a b d e left ih =>
      simp only [Option.bind_eq_bind, Option.bind_eq_some_iff, Option.some.injEq,
        Prod.mk.injEq] at h
      obtain ⟨unit, hunit, ⟨more, _⟩, hmore, rfl, rfl⟩ := h
      obtain ⟨fuel, rfl⟩ := Nat.exists_eq_add_of_lt hfuel
      refine readUnits_escape (readEscape_unit hunit left) (ih hmore ?_)
      simp only [List.length_cons]
      omega
  | case4 letter left hunicode ih =>
      simp only [Option.bind_eq_bind, Option.bind_eq_some_iff, Option.some.injEq,
        Prod.mk.injEq] at h
      obtain ⟨c, hletter, ⟨more, _⟩, hmore, rfl, rfl⟩ := h
      obtain ⟨fuel, rfl⟩ := Nat.exists_eq_add_of_lt hfuel
      refine readUnits_escape (readEscape_letter hletter left) (ih hmore ?_)
      simp only [List.length_cons]
      omega
  | case5 => cases h
  | case6 c left hquote hunicode hletter hlarge ih =>
      simp only [Option.map_eq_some_iff, Prod.exists, Prod.mk.injEq] at h
      obtain ⟨more, _, hmore, rfl, rfl⟩ := h
      -- A backslash is not read as itself: at the end it is refused, else it starts an escape.
      have hslash : c ≠ '\\' := by
        rintro rfl
        cases left with
        | nil => cases hmore
        | cons letter left => exact hletter letter left rfl rfl
      obtain ⟨fuel, rfl⟩ := Nat.exists_eq_add_of_lt hfuel
      refine readUnits_plain hquote hslash (Nat.le_of_not_lt hlarge) (ih hmore ?_)
      simp only [List.length_cons]
      omega

/-- The literal that is written for a text denotes the text. -/
theorem readString_writeText (ascii : Bool) (text : String) (rest : List Char) :
    readString (Json.writeText ascii text ++ rest) = some (units text, rest) := by
  have hfuel := Nat.lt_succ_self
    (text.toList.flatMap (Json.writeChar ascii) ++ '"' :: rest).length
  have hread := readUnits_of_json (Json.readUnits_flatMap ascii text.toList rest) hfuel
  simp only [List.flatMap_assoc, flatMap_utf16_unitsOf] at hread
  rw [Json.writeText_append, readString, if_pos (.inl rfl)]
  exact hread

end StageChain.JavaScript
