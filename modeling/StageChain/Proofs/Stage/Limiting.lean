import StageChain.Proofs.Double.Integers
import StageChain.Proofs.Text.Numerals
import StageChain.Stage.Amount

/-!
# Which amounts are accepted

A limit or a skip takes an integer from zero to the greatest 64-bit integer. It may be given as an
integer, as a double that is one, or as a text with blanks around a sign and ASCII digits,
`Amount.Gives`. Everything else is refused as a fault of the entry, or of the configuration if that
is no object.

This is so for texts of any length if digits are read without a limit, `Amount.unlimited`. With the
limit an amount compiles in the same way, unless its text is overlong: `Amount.accepts_int64`.
-/

namespace StageChain.Amount

variable {key : String} {config value : Value} {n : Int}

/-! ## Readers of digits -/

/-- The integer that a value gives, with a reader for the digits of texts. -/
def integerBy (read : List Char → Except Text.OverlongNumeral Int) (key : String) :
    Value → Except Refusal Int
  | .null => .error (.invalid (.missing key))
  | .text text =>
    if text.isEmpty then .error (.invalid (.missing key))
    else
      let chars := Text.trimChars text.toList
      if Text.isIntegerChars chars then Rows.typed (read chars)
      else .error (.invalid (.notAmount key (some ("'" ++ text ++ "'"))))
  | .float x =>
    match x.toInt? with
    | some n => .ok n
    | none => .error (.invalid (.notAmount key none))
  | .int n => .ok n
  | _ => .error (.invalid (.notAmount key none))

/-- Compiles a stage that takes the amount under a key, with a reader for the digits of texts. -/
def compileBy (read : List Char → Except Text.OverlongNumeral Int) (key : String)
    (config : Value) : Except Refusal CompiledStage := do
  let settings ← Rows.checked (Rows.settings config)
  let n ← integerBy read key (Value.field settings key)
  let amount ← Rows.checked (inRange key n)
  .ok ⟨"$" ++ key, .int amount⟩

/-- Reads digits however many there are. -/
def unlimited (chars : List Char) : Except Text.OverlongNumeral Int :=
  .ok (Text.integerValue chars)

theorem integerBy_readInteger : integerBy Text.readInteger = integerOf := by
  funext key value
  cases value <;> rfl

/-- Stages compile with the reader that has a limit. -/
theorem compileBy_readInteger : compileBy Text.readInteger = compile := by
  funext key config
  rw [compileBy, integerBy_readInteger]
  rfl

/-- The value is a text that writes an integer with more digits than are read. -/
def IsOverlong (value : Value) (numeral : Text.OverlongNumeral) : Prop :=
  ∃ text : String, value = .text text ∧ Text.IsOverlong (Text.trimChars text.toList) numeral

/-- The limit matters for overlong texts only, and these are refused. -/
theorem integerBy_cases (key : String) (value : Value) :
    integerBy Text.readInteger key value = integerBy unlimited key value ∨
      ∃ numeral, IsOverlong value numeral ∧
        integerBy Text.readInteger key value = .error (.overlong numeral) := by
  cases value with
  | text text =>
      simp only [integerBy]
      split
      · exact .inl rfl
      · rename_i hgiven
        split
        · rename_i hinteger
          by_cases hlong : ∃ numeral, Text.IsOverlong (Text.trimChars text.toList) numeral
          · obtain ⟨numeral, hlong⟩ := hlong
            exact .inr ⟨numeral, ⟨text, rfl, hlong⟩, by rw [(Text.isOverlong_iff.1 hlong).2]; rfl⟩
          · refine .inl ?_
            rw [Text.readInteger_eq_ok hinteger fun numeral h => hlong ⟨numeral, h⟩]
            rfl
        · exact .inl rfl
  | _ => exact .inl rfl

/-! ## What is accepted -/

/-- The value gives an integer: it is one, it is a double that is one, or it is a text that writes
one between blanks. -/
inductive Gives : Value → Int → Prop where
  | int (n : Int) : Gives (.int n) n
  | float (negative : Bool) (m : Magnitude) (size : Nat)
      (h : m.units = size * Magnitude.unitsPerOne) :
      Gives (.float (.finite negative m)) (Text.signed negative size)
  | text (text : String) (n : Int) (h : Text.WritesInteger (Text.trimChars text.toList) n) :
      Gives (.text text) n

/-- The configuration holds an amount: under the key, a non-negative 64-bit integer. -/
structure Holds (key : String) (config : Value) (n : Int) : Prop where
  given : ∃ settings, config = .object settings ∧ Gives (Value.field settings key) n
  least : 0 ≤ n
  most : n ≤ 2 ^ 63 - 1

/-- What is at fault if a configuration holds no amount: the entry, or the configuration if it is
neither an object nor null. -/
def blamed (key : String) : Value → String
  | .null => key
  | .object _ => key
  | _ => "config"

theorem gives_float_iff {x : Double} : Gives (.float x) n ↔ x.toInt? = some n := by
  constructor
  · intro h
    cases h with
    | float negative m size hunits => exact Double.toInt?_finite hunits
  · intro h
    obtain ⟨negative, m, rfl, hunits⟩ := Double.exists_of_toInt? h
    have hgives := Gives.float negative m n.natAbs hunits
    rw [Double.toInt?_finite hunits] at h
    exact Option.some.inj h ▸ hgives

/-- A value gives one integer only. -/
theorem Gives.unique {other : Int} (h : Gives value n) (hother : Gives value other) :
    n = other := by
  cases value with
  | int =>
      cases h
      cases hother
      rfl
  | float x =>
      exact Option.some.inj ((gives_float_iff.1 h).symm.trans (gives_float_iff.1 hother))
  | text text =>
      cases h with
      | text _ _ hwrites =>
          cases hother with
          | text _ _ hagain =>
              exact (Text.writesInteger_iff.1 hwrites).2.symm.trans
                (Text.writesInteger_iff.1 hagain).2
  | _ => cases h

/-- A configuration holds one amount only. -/
theorem Holds.unique {other : Int} (h : Holds key config n) (hother : Holds key config other) :
    n = other := by
  obtain ⟨⟨settings, rfl, hgives⟩, -, -⟩ := h
  obtain ⟨⟨_, hsame, hagain⟩, -, -⟩ := hother
  cases hsame
  exact hgives.unique hagain

theorem integerBy_unlimited (key : String) (value : Value) :
    (∃ n, Gives value n ∧ integerBy unlimited key value = .ok n) ∨
      (∀ n, ¬ Gives value n) ∧ ∃ fault : StageFault, fault.field = key ∧
        integerBy unlimited key value = .error (.invalid fault) := by
  cases value with
  | int n => exact .inl ⟨n, .int n, rfl⟩
  | float x =>
      simp only [integerBy, gives_float_iff]
      cases hwhole : x.toInt? with
      | some n => exact .inl ⟨n, rfl, rfl⟩
      | none => exact .inr ⟨nofun, _, rfl, rfl⟩
  | text text =>
      by_cases hinteger : Text.isIntegerChars (Text.trimChars text.toList) = true
      · have hgiven : text.isEmpty = false := by
          by_contra hempty
          obtain rfl : text = "" := by simpa using hempty
          exact absurd hinteger (by decide)
        refine .inl ⟨_, .text text _ (Text.writesInteger_iff.2 ⟨hinteger, rfl⟩), ?_⟩
        simp only [integerBy, hgiven, hinteger, Bool.false_eq_true, if_false, if_true]
        rfl
      · refine .inr ⟨?_, ?_⟩
        · rintro n (_ | _ | ⟨_, _, h⟩)
          exact hinteger (Text.writesInteger_iff.1 h).1
        · simp only [integerBy, hinteger, Bool.false_eq_true, if_false]
          split
          · exact ⟨_, rfl, rfl⟩
          · exact ⟨_, rfl, rfl⟩
  | _ => exact .inr ⟨nofun, _, rfl, rfl⟩

theorem inRange_cases (key : String) (n : Int) :
    (0 ≤ n ∧ n ≤ 2 ^ 63 - 1) ∧ inRange key n = .ok n ∨
      ¬ (0 ≤ n ∧ n ≤ 2 ^ 63 - 1) ∧ ∃ fault : StageFault, fault.field = key ∧
        inRange key n = .error fault := by
  unfold inRange Literal.int64Max
  split
  · exact .inr ⟨by omega, _, rfl, rfl⟩
  · split
    · exact .inr ⟨by omega, _, rfl, rfl⟩
    · exact .inl ⟨by omega, rfl⟩

/-- What becomes of the entries of a configuration. -/
theorem compileBy_object (read : List Char → Except Text.OverlongNumeral Int) (key : String)
    (settings : Entries Value) : compileBy read key (.object settings) =
      (integerBy read key (Value.field settings key)).bind fun n =>
        (Rows.checked (inRange key n)).bind fun amount => .ok ⟨"$" ++ key, .int amount⟩ := rfl

/-- Without entries a configuration is refused before digits are read. -/
theorem compileBy_of_no_entries (key : String) (h : ∀ settings, config ≠ .object settings) :
    ∃ fault : StageFault, fault.field = blamed key config ∧
      ∀ read, compileBy read key config = .error (.invalid fault) := by
  cases config with
  | object settings => exact absurd rfl (h settings)
  | _ => exact ⟨_, rfl, fun _ => rfl⟩

/-- A configuration compiles to the amount that it holds, or the entry or the configuration is at
fault. -/
theorem compileBy_unlimited (key : String) (config : Value) :
    (∃ n, Holds key config n ∧ compileBy unlimited key config = .ok ⟨"$" ++ key, .int n⟩) ∨
      (∀ n, ¬ Holds key config n) ∧ ∃ fault : StageFault, fault.field = blamed key config ∧
        compileBy unlimited key config = .error (.invalid fault) := by
  by_cases hobject : ∃ settings, config = .object settings
  case neg =>
    have hconfig : ∀ settings, config ≠ .object settings := fun settings h => hobject ⟨settings, h⟩
    obtain ⟨fault, hfield, hrefused⟩ := compileBy_of_no_entries key hconfig
    exact .inr ⟨fun n ⟨⟨settings, h, _⟩, _, _⟩ => hconfig settings h, fault, hfield,
      hrefused unlimited⟩
  case pos =>
    obtain ⟨settings, rfl⟩ := hobject
    have hholds : ∀ {n}, Holds key (.object settings) n →
        Gives (Value.field settings key) n ∧ 0 ≤ n ∧ n ≤ 2 ^ 63 - 1 := by
      rintro n ⟨⟨_, hsettings, hgives⟩, hleast, hmost⟩
      cases hsettings
      exact ⟨hgives, hleast, hmost⟩
    rw [compileBy_object]
    rcases integerBy_unlimited key (Value.field settings key) with
      ⟨n, hgives, hread⟩ | ⟨hnone, fault, hfield, hread⟩
    · rw [hread]
      rcases inRange_cases key n with ⟨⟨hleast, hmost⟩, hrange⟩ | ⟨hout, fault, hfield, hrange⟩
      · refine .inl ⟨n, ⟨⟨settings, rfl, hgives⟩, hleast, hmost⟩, ?_⟩
        simp only [Except.bind, hrange]
        rfl
      · refine .inr ⟨fun other hother => ?_, fault, hfield, ?_⟩
        · obtain ⟨hagain, hbounds⟩ := hholds hother
          exact hout (hgives.unique hagain ▸ hbounds)
        · simp only [Except.bind, hrange]
          rfl
    · rw [hread]
      exact .inr ⟨fun n h => hnone n (hholds h).1, fault, hfield, rfl⟩

/-- With digits read without a limit, a limit or a skip compiles exactly from the non-negative
64-bit integers, and else the entry or the configuration is at fault. With the limit it compiles in
the same way, unless its text is overlong. -/
theorem accepts_int64 (key : String) (config : Value) :
    (∀ stage, compileBy unlimited key config = .ok stage ↔
      ∃ n, Holds key config n ∧ stage = ⟨"$" ++ key, .int n⟩) ∧
    ((∃ n, Holds key config n) ∨ ∃ fault : StageFault, fault.field = blamed key config ∧
      compileBy unlimited key config = .error (.invalid fault)) ∧
    (compile key config = compileBy unlimited key config ∨
      ∃ settings numeral, config = .object settings ∧
        IsOverlong (Value.field settings key) numeral ∧
        compile key config = .error (.overlong numeral)) := by
  refine ⟨fun stage => ?_, ?_, ?_⟩
  · rcases compileBy_unlimited key config with ⟨n, hholds, hcompile⟩ | ⟨hnone, fault, -, hcompile⟩
    · rw [hcompile, Except.ok.injEq]
      constructor
      · rintro rfl
        exact ⟨n, hholds, rfl⟩
      · rintro ⟨other, hother, rfl⟩
        rw [hholds.unique hother]
    · rw [hcompile]
      exact iff_of_false nofun fun ⟨n, hholds, _⟩ => hnone n hholds
  · exact (compileBy_unlimited key config).imp (fun ⟨n, hholds, _⟩ => ⟨n, hholds⟩) And.right
  · rw [← compileBy_readInteger]
    by_cases hobject : ∃ settings, config = .object settings
    · obtain ⟨settings, rfl⟩ := hobject
      rw [compileBy_object, compileBy_object]
      rcases integerBy_cases key (Value.field settings key) with hsame | ⟨numeral, hlong, hread⟩
      · rw [hsame]
        exact .inl rfl
      · rw [hread]
        exact .inr ⟨settings, numeral, rfl, hlong, rfl⟩
    · obtain ⟨fault, -, hrefused⟩ := compileBy_of_no_entries key fun settings h =>
        hobject ⟨settings, h⟩
      rw [hrefused, hrefused]
      exact .inl rfl

end StageChain.Amount
