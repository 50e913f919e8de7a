import StageChain.Proofs.Double.Nearest
import StageChain.Proofs.Stage.Amount
import StageChain.Proofs.Stage.WellFormed
import StageChain.Proofs.Text.Numerals

/-!
# Which texts are numbers

A text is an integer if it writes one within 64 bits between blanks. Else it is a double if it
writes a numeral that is rounded to a finite double, and else it is no number. `Literal.number`
recognizes texts so exactly if they are not overlong: `Literal.recognizes_iff`.

What users type is read by it at any depth of lists, and expressions are. A text that is no number
comes to a boolean that it names or is kept, `Literal.ComesTo`. So no text ever becomes an integer
beyond 64 bits or a double that is not finite, `Literal.Coerces` and `Literal.Expresses`.
-/

namespace StageChain.Literal

variable {text word kept : String} {value : Value} {n : Int} {x : Double}
  {numeral : Text.OverlongNumeral}

/-! ## Integers and doubles -/

/-- The text writes an integer within 64 bits, between blanks. -/
def IsInteger (text : String) (n : Int) : Prop :=
  Text.WritesInteger (Text.trimChars text.toList) n ∧ -2 ^ 63 ≤ n ∧ n ≤ 2 ^ 63 - 1

/-- The characters write a numeral that is rounded to a finite double. -/
def ReadsAs (chars : List Char) (x : Double) : Prop :=
  ∃ numeral, Text.DecimalForm chars numeral ∧ Double.Rounds numeral x ∧ x.isFinite = true

/-- The text writes a numeral between blanks that is not kept as an integer and is rounded to a
finite double. -/
def IsDouble (text : String) (x : Double) : Prop :=
  ReadsAs (Text.trimChars text.toList) x ∧ ∀ n, ¬ IsInteger text n

/-- The text is no number. -/
def IsWord (text : String) : Prop := (∀ n, ¬ IsInteger text n) ∧ ∀ x, ¬ IsDouble text x

/-- The text writes an integer between blanks with more digits than are read. -/
def IsOverlong (text : String) (numeral : Text.OverlongNumeral) : Prop :=
  Text.IsOverlong (Text.trimChars text.toList) numeral

theorem isInteger_iff : IsInteger text n ↔
    Text.isIntegerChars (Text.trimChars text.toList) = true ∧
      Text.integerValue (Text.trimChars text.toList) = n ∧ inInt64 n := by
  rw [IsInteger, Text.writesInteger_iff, and_assoc]
  rfl

theorem IsInteger.unique {other : Int} (h : IsInteger text n) (hother : IsInteger text other) :
    n = other :=
  (isInteger_iff.1 h).2.1.symm.trans (isInteger_iff.1 hother).2.1

theorem double?_eq_some_iff {chars : List Char} :
    double? chars = some value ↔ ∃ x, value = .float x ∧ ReadsAs chars x := by
  rw [double?, Option.bind_eq_some_iff]
  constructor
  · rintro ⟨numeral, hscan, hvalue⟩
    simp only at hvalue
    split at hvalue
    · rename_i hfinite
      exact ⟨_, (Option.some.inj hvalue).symm, numeral, Text.scanDecimal_eq_some_iff.1 hscan,
        Double.rounds_iff.2 rfl, hfinite⟩
    · cases hvalue
  · rintro ⟨x, rfl, numeral, hform, hrounds, hfinite⟩
    obtain rfl := Double.rounds_iff.1 hrounds
    exact ⟨numeral, Text.scanDecimal_eq_some_iff.2 hform, if_pos hfinite⟩

theorem double?_eq_none_iff {chars : List Char} :
    double? chars = none ↔ ∀ x, ¬ ReadsAs chars x := by
  rw [Option.eq_none_iff_forall_ne_some]
  constructor
  · intro hnone x hreads
    exact hnone (.float x) (double?_eq_some_iff.2 ⟨x, rfl, hreads⟩)
  · intro hnone value hsome
    obtain ⟨x, -, hreads⟩ := double?_eq_some_iff.1 hsome
    exact hnone x hreads

/-! ## Recognizing numbers -/

/-- The result is an integer, a double or nothing exactly as the text is one. -/
structure Recognizes (text : String) (result : Except Text.OverlongNumeral (Option Value)) :
    Prop where
  integer_iff : ∀ n, result = .ok (some (.int n)) ↔ IsInteger text n
  double_iff : ∀ x, result = .ok (some (.float x)) ↔ IsDouble text x
  none_iff : result = .ok none ↔ IsWord text

theorem number_eq_error_iff : number text = .error numeral ↔ IsOverlong text numeral := by
  rw [IsOverlong, Text.isOverlong_iff, number, numberOfChars]
  split
  · rename_i hinteger
    cases hread : Text.readInteger (Text.trimChars text.toList) with
    | error other => simp [Except.map, hinteger]
    | ok n => simp [Except.map]
  · rename_i hinteger
    simp [hinteger]

theorem number_of_isInteger (h : IsInteger text n) (hread : ∀ numeral, ¬ IsOverlong text numeral) :
    number text = .ok (some (.int n)) := by
  obtain ⟨hinteger, rfl, hrange⟩ := isInteger_iff.1 h
  rw [number, numberOfChars, if_pos hinteger, Text.readInteger_eq_ok hinteger hread]
  exact congrArg Except.ok (if_pos hrange)

theorem number_of_not_isInteger (h : ∀ n, ¬ IsInteger text n)
    (hread : ∀ numeral, ¬ IsOverlong text numeral) :
    number text = .ok (double? (Text.trimChars text.toList)) := by
  rw [number, numberOfChars]
  split
  · rename_i hinteger
    rw [Text.readInteger_eq_ok hinteger hread]
    exact congrArg Except.ok (if_neg fun hrange => h _ (isInteger_iff.2 ⟨hinteger, rfl, hrange⟩))
  · rfl

theorem recognizes_number (hread : ∀ numeral, ¬ IsOverlong text numeral) :
    Recognizes text (number text) := by
  by_cases hinteger : ∃ n, IsInteger text n
  · obtain ⟨n, hn⟩ := hinteger
    rw [number_of_isInteger hn hread]
    constructor
    case integer_iff =>
      intro other
      constructor
      · intro h
        cases h
        exact hn
      · intro hother
        rw [hn.unique hother]
    case double_iff => exact fun x => iff_of_false nofun fun hx => hx.2 n hn
    case none_iff => exact iff_of_false nofun fun hnone => hnone.1 n hn
  · have hnone : ∀ n, ¬ IsInteger text n := fun n hn => hinteger ⟨n, hn⟩
    rw [number_of_not_isInteger hnone hread]
    constructor
    case integer_iff =>
      refine fun n => iff_of_false (fun h => ?_) (hnone n)
      obtain ⟨x, hvalue, -⟩ := double?_eq_some_iff.1 (Except.ok.inj h)
      cases hvalue
    case double_iff =>
      intro x
      rw [Except.ok.injEq, double?_eq_some_iff]
      constructor
      · rintro ⟨_, hvalue, hreads⟩
        cases hvalue
        exact ⟨hreads, hnone⟩
      · rintro ⟨hreads, -⟩
        exact ⟨x, rfl, hreads⟩
    case none_iff =>
      rw [Except.ok.injEq, double?_eq_none_iff]
      constructor
      · exact fun hreads => ⟨hnone, fun x hx => hreads x hx.1⟩
      · exact fun h x hreads => h.2 x ⟨hreads, hnone⟩

/-- A refused text is recognized as nothing. -/
theorem not_recognizes_error : ¬ Recognizes text (.error numeral) := by
  intro h
  have hinteger : ∀ n, ¬ IsInteger text n := fun n hn => nomatch (h.integer_iff n).2 hn
  have hdouble : ∀ x, ¬ IsDouble text x := fun x hx => nomatch (h.double_iff x).2 hx
  exact nomatch h.none_iff.2 ⟨hinteger, hdouble⟩

/-! ## Typed values -/

/-- What a text can become: the number that it is, or a boolean or a text if it is none. -/
inductive Becomes (text : String) : Value → Prop where
  | integer (n : Int) (h : IsInteger text n) : Becomes text (.int n)
  | double (x : Double) (h : IsDouble text x) : Becomes text (.float x)
  | bool (b : Bool) (h : IsWord text) : Becomes text (.bool b)
  | text (kept : String) (h : IsWord text) : Becomes text (.text kept)

mutual

/-- What a typed value can become: texts are read at any depth of lists, and everything else is
kept. -/
inductive Coerces : Value → Value → Prop where
  | text {text : String} {typed : Value} (h : Becomes text typed) : Coerces (.text text) typed
  | list {items typed : List Value} (h : ItemsCoerce items typed) :
      Coerces (.list items) (.list typed)
  | kept {value : Value} (htext : ∀ text, value ≠ .text text)
      (hlist : ∀ items, value ≠ .list items) : Coerces value value

/-- What the items of a list can become, one by one. -/
inductive ItemsCoerce : List Value → List Value → Prop where
  | nil : ItemsCoerce [] []
  | cons {item typed : Value} {items others : List Value} (hitem : Coerces item typed)
      (hrest : ItemsCoerce items others) : ItemsCoerce (item :: items) (typed :: others)

end

/-- What an expression can become: a text is read, and everything else is kept. -/
inductive Expresses : Value → Value → Prop where
  | text {text : String} {typed : Value} (h : Becomes text typed) : Expresses (.text text) typed
  | kept {value : Value} (htext : ∀ text, value ≠ .text text) : Expresses value value

theorem not_isOverlong_of_number {found : Option Value} (h : number text = .ok found) :
    ∀ numeral, ¬ IsOverlong text numeral := by
  intro numeral hlong
  rw [number_eq_error_iff.2 hlong] at h
  cases h

theorem isWord_of_number (h : number text = .ok none) : IsWord text :=
  (recognizes_number (not_isOverlong_of_number h)).none_iff.1 h

theorem map_eq_error_iff {ε α β : Type} {x : Except ε α} {f : α → β} {fault : ε} :
    x.map f = .error fault ↔ x = .error fault := by
  cases x <;> simp [Except.map]

/-! ## What a text comes to -/

/-- The word for a boolean. -/
def boolWord (b : Bool) : String := if b then "true" else "false"

/-- What a text comes to: the number that it denotes, else the boolean that a word names, else a
text that is kept. -/
inductive ComesTo (text word kept : String) : Value → Prop where
  | integer (n : Int) (h : IsInteger text n) : ComesTo text word kept (.int n)
  | double (x : Double) (h : IsDouble text x) : ComesTo text word kept (.float x)
  | bool (b : Bool) (hnone : IsWord text) (h : word = boolWord b) :
      ComesTo text word kept (.bool b)
  | kept (hnone : IsWord text) (h : ∀ b, word ≠ boolWord b) : ComesTo text word kept (.text kept)

/-- The boolean that a word names, or else a text. -/
def namedBy (word kept : String) : Value :=
  if word = "true" then .bool true
  else if word = "false" then .bool false
  else .text kept

theorem comesTo_namedBy (h : IsWord text) : ComesTo text word kept (namedBy word kept) := by
  unfold namedBy
  split
  · rename_i htrue
    exact .bool true h htrue
  split
  · rename_i hfalse
    exact .bool false h hfalse
  · rename_i htrue hfalse
    refine .kept h fun b => ?_
    cases b with
    | true => exact htrue
    | false => exact hfalse

theorem namedBy_boolWord (b : Bool) (kept : String) : namedBy (boolWord b) kept = .bool b := by
  cases b <;> rfl

theorem namedBy_of_ne (h : ∀ b, word ≠ boolWord b) : namedBy word kept = .text kept :=
  (if_neg (h true)).trans (if_neg (h false))

theorem ComesTo.becomes (h : ComesTo text word kept value) : Becomes text value := by
  cases h with
  | integer n hn => exact .integer n hn
  | double x hx => exact .double x hx
  | bool b hnone => exact .bool b hnone
  | kept hnone => exact .text kept hnone

/-- A text is read as what it comes to, unless it is overlong. -/
theorem number_getD_eq_ok_iff :
    (number text).map (·.getD (namedBy word kept)) = .ok value ↔
      ComesTo text word kept value ∧ ∀ numeral, ¬ IsOverlong text numeral := by
  constructor
  · intro h
    have hlimit : ∀ numeral, ¬ IsOverlong text numeral := by
      intro numeral hlong
      cases h.symm.trans (map_eq_error_iff.2 (number_eq_error_iff.2 hlong))
    have hread := recognizes_number hlimit
    refine ⟨?_, hlimit⟩
    by_cases hinteger : ∃ n, IsInteger text n
    · obtain ⟨n, hn⟩ := hinteger
      rw [(hread.integer_iff n).2 hn] at h
      cases h
      exact .integer n hn
    by_cases hdouble : ∃ x, IsDouble text x
    · obtain ⟨x, hx⟩ := hdouble
      rw [(hread.double_iff x).2 hx] at h
      cases h
      exact .double x hx
    · have hnone : IsWord text := ⟨not_exists.1 hinteger, not_exists.1 hdouble⟩
      rw [hread.none_iff.2 hnone] at h
      cases h
      exact comesTo_namedBy hnone
  · rintro ⟨hcomes, hlimit⟩
    have hread := recognizes_number hlimit
    cases hcomes with
    | integer n hn =>
        rw [(hread.integer_iff n).2 hn]
        rfl
    | double x hx =>
        rw [(hread.double_iff x).2 hx]
        rfl
    | bool b hnone hword =>
        rw [hread.none_iff.2 hnone, hword]
        exact congrArg Except.ok (namedBy_boolWord b kept)
    | kept hnone hword =>
        rw [hread.none_iff.2 hnone]
        exact congrArg Except.ok (namedBy_of_ne hword)

/-- A typed text comes to a boolean in letters of any case, and is kept untrimmed. -/
theorem coerceText_eq_ok_iff : coerceText text = .ok value ↔
    ComesTo text (Text.lower text) text value ∧ ∀ numeral, ¬ IsOverlong text numeral :=
  number_getD_eq_ok_iff

theorem toList_trim (text : String) : (Text.trim text).toList = Text.trimChars text.toList :=
  String.toList_ofList

/-- A text that starts with a dollar sign is no number. -/
theorem number_of_isMarked (h : Reference.isMarked (Text.trim text) = true) :
    number text = .ok none := by
  rw [Reference.isMarked, toList_trim, beq_iff_eq] at h
  obtain ⟨rest, hchars⟩ := List.head?_eq_some_iff.1 h
  rw [number, hchars]
  rfl

theorem number_trim (text : String) : number (Text.trim text) = number text := by
  rw [number, number, toList_trim, Text.trimChars_trimChars]

/-- References and words are no numbers, so it does not matter that they are looked for first. -/
theorem expression_text (text : String) : expression (.text text) =
    (number text).map (·.getD (namedBy (Text.trim text) (Text.trim text))) := by
  rw [expression, expressionText, number_trim]
  split
  · rename_i hmarked
    have hword : ∀ b, Text.trim text ≠ boolWord b := by
      intro b hsame
      rw [hsame] at hmarked
      cases b <;> cases hmarked
    rw [number_of_isMarked hmarked]
    exact congrArg Except.ok (namedBy_of_ne hword).symm
  split
  · rename_i htrue
    have hnumber : number text = .ok none := by
      rw [← number_trim, htrue]
      decide
    rw [hnumber, htrue]
    rfl
  split
  · rename_i hfalse
    have hnumber : number text = .ok none := by
      rw [← number_trim, hfalse]
      decide
    rw [hnumber, hfalse]
    rfl
  · rename_i htrue hfalse
    rw [namedBy, if_neg htrue, if_neg hfalse]

/-- An expression comes to a boolean only as the exact word, and is kept trimmed. -/
theorem expression_text_eq_ok_iff : expression (.text text) = .ok value ↔
    ComesTo text (Text.trim text) (Text.trim text) value ∧
      ∀ numeral, ¬ IsOverlong text numeral := by
  rw [expression_text]
  exact number_getD_eq_ok_iff

/-- An overlong expression is refused. -/
theorem expression_of_isOverlong (h : IsOverlong text numeral) :
    expression (.text text) = .error numeral := by
  rw [expression_text]
  exact map_eq_error_iff.2 (number_eq_error_iff.2 h)

/-! ## Ranges of numbers -/

mutual

/-- What users type becomes numbers within their ranges only. -/
theorem coerces_coerce : ∀ value : Value, Ensures (coerce value) (Coerces value)
  | .text _ => fun _ htyped => .text (coerceText_eq_ok_iff.1 htyped).1.becomes
  | .list items => (coerces_coerceItems items).map fun _ hitems => .list hitems
  | .null | .bool _ | .int _ | .float _ | .object _ => .ok (.kept nofun nofun)

theorem coerces_coerceItems :
    ∀ items : List Value, Ensures (coerceItems items) (ItemsCoerce items)
  | [] => .ok .nil
  | item :: items => .bind (coerces_coerce item) fun _ hitem =>
      .bind (coerces_coerceItems items) fun _ hrest => .ok (.cons hitem hrest)

end

/-- An expression becomes numbers within their ranges only. -/
theorem expresses_expression (value : Value) : Ensures (expression value) (Expresses value) := by
  cases value with
  | text text => exact fun _ htyped => .text (expression_text_eq_ok_iff.1 htyped).1.becomes
  | _ => exact .ok (.kept nofun)

/-- Texts are recognized exactly as the numbers that they are, unless they are overlong: these are
refused. What is typed and expressions become numbers within their ranges only. -/
theorem recognizes_iff (text : String) (value : Value) :
    (Recognizes text (number text) ↔ ∀ numeral, ¬ IsOverlong text numeral) ∧
      (∀ numeral, number text = .error numeral ↔ IsOverlong text numeral) ∧
      Ensures (coerce value) (Coerces value) ∧ Ensures (expression value) (Expresses value) := by
  refine ⟨⟨fun hrecognizes numeral hlong => ?_, recognizes_number⟩,
    fun numeral => number_eq_error_iff, coerces_coerce value, expresses_expression value⟩
  rw [number_eq_error_iff.2 hlong] at hrecognizes
  exact not_recognizes_error hrecognizes

/-- A text of zeros. -/
def zeros (count : Nat) : String := String.ofList (List.replicate count '0')

theorem number_zeros {count : Nat} (hlong : Text.maxDigits < count) :
    IsInteger (zeros count) 0 ∧ number (zeros count) = .error ⟨count⟩ := by
  have hdigits : ∀ c ∈ List.replicate count '0', Text.isAsciiDigit c = true := by
    intro c hc
    rw [List.eq_of_mem_replicate hc]
    decide
  have htrim : Text.trimChars (zeros count).toList = List.replicate count '0' := by
    rw [zeros, String.toList_ofList]
    exact Text.trimChars_of_forall fun c hc => Text.isBlank_of_isAsciiDigit (hdigits c hc)
  have hlength : (List.replicate count '0').length = count := List.length_replicate
  have hform : Text.IntegerForm (List.replicate count '0') false (List.replicate count '0') :=
    .intro .none ⟨Text.ne_nil_of_overlong (hlength.symm ▸ hlong), hdigits⟩
  constructor
  · refine ⟨⟨false, _, htrim ▸ hform, ?_⟩, by decide, by decide⟩
    rw [htrim, Text.digitsValue_zeros]
    rfl
  · rw [number_eq_error_iff, IsOverlong, htrim]
    exact ⟨false, _, hform, hlength.symm ▸ hlong, congrArg _ hlength.symm⟩

/-- More zeros than digits are read are zero, yet they are refused and so recognized as nothing. -/
theorem not_recognizes_zeros :
    IsInteger (zeros 4301) 0 ∧ number (zeros 4301) = .error ⟨4301⟩ ∧
      ¬ Recognizes (zeros 4301) (number (zeros 4301)) := by
  obtain ⟨hinteger, hrefused⟩ := number_zeros (by decide : Text.maxDigits < 4301)
  refine ⟨hinteger, hrefused, ?_⟩
  rw [hrefused]
  exact not_recognizes_error

end StageChain.Literal
