import StageChain.Proofs.Entries
import StageChain.Proofs.Json.Numbers
import StageChain.Proofs.Snippet.PythonTexts
import StageChain.Snippet.Format

/-!
# Python expressions are read back

`PythonLiteral.read` reads a Python expression made of `None`, `True` and `False`, decimal numbers,
text literals, calls of `float` with a text, lists, and dictionaries with texts for keys. The
expression that is written for a value is read as that value: `read_write`.
-/

namespace StageChain.PythonLiteral

open Text

/-! ## Expressions and what they denote -/

/-- The blanks allowed between tokens inside brackets. -/
def isSpace (c : Char) : Bool := c == ' ' || c == '\t' || c == '\n' || c == '\r' || c == '\x0c'

/-- Drops the blanks in front. -/
def skipSpace (chars : List Char) : List Char := chars.dropWhile isSpace

/-- Whether a character can stand in a name. -/
def isNamePart (c : Char) : Bool := isAsciiDigit c || c.isAlpha || c == '_' || 128 ≤ c.toNat

/-- Reads the argument of a call of `float`, a text that denotes a double. -/
def readCall (chars : List Char) : Option (Value × List Char) :=
  match chars with
  | '(' :: rest => do
    let (text, rest) ← readText (skipSpace rest)
    let x ← Double.ofText? text
    match skipSpace rest with
    | ')' :: rest => some (.float x, rest)
    | _ => none
  | _ => none

/-- Reads a constant by its name, or a call of `float`. -/
def readName (chars : List Char) : Option (Value × List Char) :=
  let name := chars.takeWhile isNamePart
  let rest := chars.dropWhile isNamePart
  if name = "None".toList then some (.null, rest)
  else if name = "True".toList then some (.bool true, rest)
  else if name = "False".toList then some (.bool false, rest)
  else if name = "float".toList then readCall rest
  else none

/-- Reads a decimal number with an optional minus, in the forms that JSON has too. What follows must
not go on with a number or a name. -/
def readNumber (chars : List Char) : Option (Value × List Char) :=
  match Json.readNumber .strict chars with
  | .ok (number, rest) =>
    if rest.head?.any fun c => isNamePart c || c == '.' then none else some (number, rest)
  | .error _ => none

mutual

/-- Reads an expression at the front of the characters. -/
def readValue : (fuel : Nat) → List Char → Option (Value × List Char)
  | 0, _ => none
  | _ + 1, [] => none
  | fuel + 1, c :: rest =>
    if c = '[' then
      (readItems fuel (skipSpace rest)).map fun (items, rest) => (.list items, rest)
    else if c = '\x7b' then
      (readEntries fuel (skipSpace rest)).map fun (pairs, rest) =>
        (.object (Entries.collect pairs), rest)
    else if c = '"' ∨ c = '\'' then
      (readText (c :: rest)).map fun (text, rest) => (.text text, rest)
    else if c = '-' ∨ isAsciiDigit c then readNumber (c :: rest)
    else readName (c :: rest)

/-- Reads the items of a list up to the closing bracket, which may follow a comma. -/
def readItems : (fuel : Nat) → List Char → Option (List Value × List Char)
  | 0, _ => none
  | _ + 1, ']' :: rest => some ([], rest)
  | fuel + 1, chars => do
    let (item, rest) ← readValue fuel chars
    match skipSpace rest with
    | ',' :: rest =>
      (readItems fuel (skipSpace rest)).map fun (items, rest) => (item :: items, rest)
    | ']' :: rest => some ([item], rest)
    | _ => none

/-- Reads the entries of a dictionary up to the closing brace, which may follow a comma. -/
def readEntries : (fuel : Nat) → List Char → Option (List (String × Value) × List Char)
  | 0, _ => none
  | _ + 1, '\x7d' :: rest => some ([], rest)
  | fuel + 1, chars => do
    let (key, rest) ← readText chars
    match skipSpace rest with
    | ':' :: rest => do
      let (value, rest) ← readValue fuel (skipSpace rest)
      match skipSpace rest with
      | ',' :: rest =>
        (readEntries fuel (skipSpace rest)).map fun (pairs, rest) => ((key, value) :: pairs, rest)
      | '\x7d' :: rest => some ([(key, value)], rest)
      | _ => none
    | _ => none

end

/-- Reads a whole expression. -/
def read (text : String) : Option Value := do
  let chars := text.toList
  let (value, rest) ← readValue (2 * chars.length + 2) chars
  if rest.isEmpty then some value else none

/-! ## What follows a value -/

variable {c : Char} {chars rest : List Char} {fuel : Nat} {value item : Value}

/-- What follows goes on with no number, name or text. -/
def EndsToken (rest : List Char) : Prop :=
  ∀ c, rest.head? = some c → isNamePart c = false ∧ c ≠ '.' ∧ c ≠ '"'

theorem EndsToken.nil : EndsToken [] := by simp [EndsToken]

theorem EndsToken.cons (h : isNamePart c = false ∧ c ≠ '.' ∧ c ≠ '"') : EndsToken (c :: rest) := by
  intro other hother
  obtain rfl : c = other := Option.some.inj hother
  exact h

theorem EndsToken.endsNumber (h : EndsToken rest) : Json.EndsNumber rest := by
  intro c hc
  obtain ⟨hname, hpoint, -⟩ := h c hc
  refine ⟨?_, hpoint, ?_, ?_⟩
  · simp only [isNamePart, Bool.or_eq_false_iff] at hname
    exact hname.1.1.1
  · rintro rfl
    exact absurd hname (by decide)
  · rintro rfl
    exact absurd hname (by decide)

/-! ## Blanks -/

theorem skipSpace_cons (h : isSpace c = false) : skipSpace (c :: rest) = c :: rest := by
  simp [skipSpace, h]

theorem skipSpace_margin (depth : Nat) (rest : List Char) :
    skipSpace (margin depth ++ rest) = skipSpace rest := by
  have hblank : ∀ c ∈ margin depth, isSpace c = true := by
    intro c hc
    rw [(List.mem_replicate.1 hc).2]
    rfl
  rw [skipSpace, List.dropWhile_append_of_pos hblank, skipSpace]

theorem skipSpace_lineFeed (rest : List Char) : skipSpace ('\n' :: rest) = skipSpace rest := rfl

theorem skipSpace_blank (rest : List Char) : skipSpace (' ' :: rest) = skipSpace rest := rfl

theorem skipSpace_writeText (text : String) (rest : List Char) :
    skipSpace (Json.writeText false text ++ rest) = Json.writeText false text ++ rest := by
  rw [Json.writeText_append]
  exact skipSpace_cons rfl

/-! ## Names and numbers -/

theorem readName_append {name : List Char} (hname : name.all isNamePart = true)
    (hrest : ∀ c, rest.head? = some c → isNamePart c = false) :
    readName (name ++ rest) =
      if name = "None".toList then some (.null, rest)
      else if name = "True".toList then some (.bool true, rest)
      else if name = "False".toList then some (.bool false, rest)
      else if name = "float".toList then readCall rest
      else none := by
  have hparts := List.all_eq_true.1 hname
  simp only [readName, takeWhile_append_of_head hparts hrest, dropWhile_append_of_head hparts hrest]

theorem readValue_of_startsNumber (h : Json.StartsNumber chars) :
    readValue (fuel + 1) chars = readNumber chars := by
  cases h with
  | @digit c rest hdigit =>
      have hne : ∀ mark : Char, isAsciiDigit mark = false → c ≠ mark := by
        rintro mark hmark rfl
        exact absurd (hdigit.symm.trans hmark) (by decide)
      rw [readValue, if_neg (hne _ (by decide)), if_neg (hne _ (by decide)),
        if_neg (not_or.2 ⟨hne _ (by decide), hne _ (by decide)⟩), if_pos (.inr hdigit)]
  | minus rest hdigit => rfl

/-- A number is read as in JSON if a token ends after it. -/
theorem readNumber_of_ok {number : Value} (h : Json.readNumber .strict chars = .ok (number, rest))
    (hrest : EndsToken rest) : readNumber chars = some (number, rest) := by
  have hends : (rest.head?.any fun c => isNamePart c || c == '.') = false := by
    cases hhead : rest.head? with
    | none => rfl
    | some c =>
        obtain ⟨hname, hpoint, -⟩ := hrest c hhead
        simp [hname, hpoint]
  simp [readNumber, h, hends]

theorem readCall_writeText {text : String} {x : Double} (hx : Double.ofText? text = some x)
    (rest : List Char) :
    readCall ('(' :: (Json.writeText false text ++ ')' :: rest)) = some (.float x, rest) := by
  have hclose : isSpace ')' = false := rfl
  have hquote : (')' :: rest).head? ≠ some '"' := by simp
  simp only [readCall, skipSpace_writeText, readText_writeText text hquote,
    Option.bind_eq_bind, Option.bind_some, hx, skipSpace_cons hclose]

/-- A double that is not finite is read from a call. -/
theorem readValue_call {x : Double} (hx : x.isFinite = false) :
    readValue (fuel + 1) (writeDouble x ++ rest) = some (.float x, rest) := by
  have hliteral : Json.writeText false x.text = '"' :: (x.chars ++ ['"']) := by
    cases x with
    | nan => rfl
    | infinite negative => cases negative <;> rfl
    | finite => cases hx
  have htext : Double.ofText? x.text = some x := by
    cases x with
    | nan => decide +kernel
    | infinite negative => cases negative <;> decide +kernel
    | finite => cases hx
  have hchars : writeDouble x ++ rest =
      "float".toList ++ '(' :: (Json.writeText false x.text ++ ')' :: rest) := by
    rw [hliteral, writeDouble, if_neg (by simp [hx])]
    simp
  have hname : readValue (fuel + 1) (writeDouble x ++ rest) = readName (writeDouble x ++ rest) := by
    rw [hchars]
    rfl
  rw [hname, hchars, readName_append rfl (by simp [isNamePart, isAsciiDigit])]
  exact readCall_writeText htext rest

/-- A finite double is read from its text. -/
theorem readValue_chars (negative : Bool) (m : Magnitude) (hrest : EndsToken rest) :
    readValue (fuel + 1) ((Double.finite negative m).chars ++ rest) =
      some (.float (.finite negative m), rest) := by
  rw [readValue_of_startsNumber ((Json.startsNumber_chars negative m).append rest)]
  exact readNumber_of_ok (Json.readNumber_chars negative m hrest.endsNumber) hrest

theorem readValue_integerChars (n : Int) (hrest : EndsToken rest) :
    readValue (fuel + 1) (integerChars n ++ rest) = some (.int n, rest) := by
  rw [readValue_of_startsNumber ((Json.startsNumber_integerChars n).append rest)]
  exact readNumber_of_ok (Json.readNumber_integerChars rfl n hrest.endsNumber) hrest

theorem readValue_writeText (text : String) (hrest : EndsToken rest) :
    readValue (fuel + 1) (Json.writeText false text ++ rest) = some (.text text, rest) := by
  have hquote : rest.head? ≠ some '"' := fun hhead => (hrest _ hhead).2.2 rfl
  have hread := readText_writeText text hquote
  rw [Json.writeText_append] at hread ⊢
  rw [readValue, if_neg (by decide), if_neg (by decide), if_pos (.inl rfl), hread]
  rfl

/-! ## Lists and dictionaries -/

/-- No value starts with a blank or a closing bracket. -/
theorem readValue_eq_none (h : isSpace c = true ∨ c = ']') :
    readValue fuel (c :: rest) = none := by
  cases fuel with
  | zero => rfl
  | succ fuel =>
      simp only [isSpace, Bool.or_eq_true, beq_iff_eq] at h
      rcases h with ((((rfl | rfl) | rfl) | rfl) | rfl) | rfl <;> rfl

/-- No blank is skipped before a value. -/
theorem skipSpace_of_readValue (h : readValue fuel chars = some (value, rest)) :
    skipSpace chars = chars := by
  cases chars with
  | nil => rfl
  | cons c after =>
      refine skipSpace_cons (Bool.eq_false_iff.2 fun hspace => ?_)
      rw [readValue_eq_none (.inl hspace)] at h
      cases h

theorem readItems_more {items : List Value} {after more : List Char}
    (hitem : readValue fuel chars = some (item, ',' :: more))
    (hmore : readItems fuel (skipSpace more) = some (items, after)) :
    readItems (fuel + 1) chars = some (item :: items, after) := by
  have hopen : ∀ rest, chars = ']' :: rest → False := by
    rintro rest rfl
    rw [readValue_eq_none (.inr rfl)] at hitem
    cases hitem
  have hcomma : isSpace ',' = false := rfl
  rw [readItems]
  · simp only [hitem, Option.bind_eq_bind, Option.bind_some, skipSpace_cons hcomma, hmore,
      Option.map_some]
  · exact hopen

theorem readEntries_more {entries : List (String × Value)} {after more : List Char} (key : String)
    (hvalue : readValue fuel (skipSpace chars) = some (value, ',' :: more))
    (hmore : readEntries fuel (skipSpace more) = some (entries, after)) :
    readEntries (fuel + 1) (Json.writeText false key ++ ':' :: chars) =
      some ((key, value) :: entries, after) := by
  have hquote : (':' :: chars).head? ≠ some '"' := by simp
  have hkey := readText_writeText key hquote
  have hcolon : isSpace ':' = false := rfl
  have hcomma : isSpace ',' = false := rfl
  rw [Json.writeText_append] at hkey ⊢
  rw [readEntries]
  · simp only [hkey, Option.bind_eq_bind, Option.bind_some, skipSpace_cons hcolon, hvalue,
      skipSpace_cons hcomma, hmore, Option.map_some]
  · simp

/-! ## Values -/

theorem endsToken_comma (rest : List Char) : EndsToken (',' :: rest) := .cons (by decide)

-- As in JSON, the induction is on the value and the fuel exceeds the length of what is written. A
-- comma follows every item, so a closing bracket is met where another item could start.

mutual

/-- What is written for a value is read as the value. -/
theorem readValue_writeAt (value : Value) (hwf : value.WellFormed) {depth fuel : Nat}
    (hfuel : (writeAt depth value).length < fuel) {rest : List Char} (hrest : EndsToken rest) :
    readValue fuel (writeAt depth value ++ rest) = some (value, rest) := by
  have hname : ∀ c, rest.head? = some c → isNamePart c = false := fun c hc => (hrest c hc).1
  obtain ⟨fuel, rfl⟩ : ∃ less, fuel = less + 1 := ⟨fuel - 1, by omega⟩
  cases value with
  | null =>
      have hletters : "None".toList.all isNamePart = true := rfl
      exact readName_append hletters hname
  | bool b =>
      have hletters : (if b then "True" else "False").toList.all isNamePart = true := by
        cases b <;> rfl
      cases b <;> exact readName_append hletters hname
  | int n => exact readValue_integerChars n hrest
  | float x =>
      cases x with
      | finite negative m => exact readValue_chars negative m hrest
      | _ => exact readValue_call rfl
  | text s => exact readValue_writeText s hrest
  | list items =>
      cases items with
      | nil =>
          have hlength : (writeAt depth (.list [])).length = 2 := rfl
          obtain ⟨fuel, rfl⟩ : ∃ less, fuel = less + 1 := ⟨fuel - 1, by omega⟩
          rfl
      | cons item items =>
          rw [writeAt] at hfuel ⊢
          simp only [List.append_assoc, List.cons_append, List.nil_append, List.length_append,
            List.length_cons] at hfuel ⊢
          have hroom : (writeItems (depth + 1) (item :: items)).length < fuel := by omega
          have hitems := readItems_writeItems (item :: items) hwf hroom depth rest
          rw [readValue, if_pos rfl, skipSpace_lineFeed, hitems]
          rfl
  | object entries =>
      cases entries with
      | nil =>
          have hlength : (writeAt depth (.object [])).length = 2 := rfl
          obtain ⟨fuel, rfl⟩ : ∃ less, fuel = less + 1 := ⟨fuel - 1, by omega⟩
          rfl
      | cons entry entries =>
          rw [writeAt] at hfuel ⊢
          simp only [List.append_assoc, List.cons_append, List.nil_append, List.length_append,
            List.length_cons] at hfuel ⊢
          have hroom : (writeEntries (depth + 1) (entry :: entries)).length < fuel := by omega
          have hentries := readEntries_writeEntries (entry :: entries) hwf.2 hroom depth rest
          have hcollect := Entries.collect_of_nodup hwf.1
          rw [readValue, if_neg (by decide), if_pos rfl, skipSpace_lineFeed, hentries]
          simp only [Option.map_some, hcollect]

/-- Items are read up to the closing bracket. -/
theorem readItems_writeItems (items : List Value) (hwf : Value.ItemsWellFormed items)
    {depth fuel : Nat} (hfuel : (writeItems depth items).length < fuel) (outer : Nat)
    (rest : List Char) :
    readItems fuel (skipSpace (writeItems depth items ++ (margin outer ++ ']' :: rest))) =
      some (items, rest) := by
  obtain ⟨fuel, rfl⟩ : ∃ less, fuel = less + 1 := ⟨fuel - 1, by omega⟩
  cases items with
  | nil =>
      rw [writeItems, List.nil_append, skipSpace_margin]
      rfl
  | cons item items =>
      simp only [writeItems, List.append_assoc, List.cons_append, List.nil_append,
        List.length_append, List.length_cons] at hfuel ⊢
      have hroom : (writeItems depth items).length < fuel := by omega
      have hone : (writeAt depth item).length < fuel := by omega
      have hitem := readValue_writeAt item hwf.1 hone
        (endsToken_comma ('\n' :: (writeItems depth items ++ (margin outer ++ ']' :: rest))))
      rw [skipSpace_margin, skipSpace_of_readValue hitem]
      refine readItems_more hitem ?_
      rw [skipSpace_lineFeed]
      exact readItems_writeItems items hwf.2 hroom outer rest

/-- Entries are read up to the closing brace. -/
theorem readEntries_writeEntries (entries : List (String × Value))
    (hwf : Value.EntriesWellFormed entries) {depth fuel : Nat}
    (hfuel : (writeEntries depth entries).length < fuel) (outer : Nat) (rest : List Char) :
    readEntries fuel (skipSpace (writeEntries depth entries ++ (margin outer ++ '\x7d' :: rest))) =
      some (entries, rest) := by
  obtain ⟨fuel, rfl⟩ : ∃ less, fuel = less + 1 := ⟨fuel - 1, by omega⟩
  cases entries with
  | nil =>
      rw [writeEntries, List.nil_append, skipSpace_margin]
      rfl
  | cons entry entries =>
      obtain ⟨key, value⟩ := entry
      simp only [writeEntries, List.append_assoc, List.cons_append, List.nil_append,
        List.length_append, List.length_cons] at hfuel ⊢
      have hroom : (writeEntries depth entries).length < fuel := by omega
      have hone : (writeAt depth value).length < fuel := by omega
      have hvalue := readValue_writeAt value hwf.1 hone
        (endsToken_comma ('\n' :: (writeEntries depth entries ++ (margin outer ++ '\x7d' :: rest))))
      rw [← skipSpace_of_readValue hvalue, ← skipSpace_blank] at hvalue
      rw [skipSpace_margin, skipSpace_writeText]
      refine readEntries_more key hvalue ?_
      rw [skipSpace_lineFeed]
      exact readEntries_writeEntries entries hwf.2 hroom outer rest

end

/-- The expression of a value is read as the value. -/
theorem read_write {value : Value} (hwf : value.WellFormed) : read (write value) = some value := by
  have hlength : (writeAt 0 value).length < 2 * (writeAt 0 value).length + 2 := by omega
  have hread := readValue_writeAt value hwf hlength .nil
  rw [List.append_nil] at hread
  simp [read, write, hread]

end StageChain.PythonLiteral
