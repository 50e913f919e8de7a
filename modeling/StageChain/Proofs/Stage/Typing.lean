import Mathlib.Data.List.Forall2
import StageChain.Proofs.Stage.Retyping

/-!
# Typing leaf by leaf

`TypedAs` says what a value is typed as: each text at any depth of lists, a leaf, is typed by
itself, and everything else is kept. `ExpressedAs` says the same of expressions, where only a text
is read and lists are kept.

A value is read so for good, `ReadsForGood`, if it is read as exactly one thing and that is read as
itself. This holds unless an overlong text is met: `Literal.types_for_good_iff`.
-/

namespace StageChain.Literal

variable {text : String} {value typed : Value} {items : List Value}
  {texts first rest : List String} {numeral : Text.OverlongNumeral}

/-! ## Overlong texts -/

/-- None of the texts is overlong. -/
def AreRead (texts : List String) : Prop := ∀ text ∈ texts, ∀ numeral, ¬ IsOverlong text numeral

/-- One of the texts is overlong, and none before it. -/
def MeetsOverlong (texts : List String) (numeral : Text.OverlongNumeral) : Prop :=
  ∃ before text after, texts = before ++ text :: after ∧ AreRead before ∧ IsOverlong text numeral

theorem areRead_append : AreRead (first ++ rest) ↔ AreRead first ∧ AreRead rest :=
  List.forall_mem_append

theorem areRead_cons :
    AreRead (text :: rest) ↔ (∀ numeral, ¬ IsOverlong text numeral) ∧ AreRead rest :=
  List.forall_mem_cons

theorem areRead_single : AreRead [text] ↔ ∀ numeral, ¬ IsOverlong text numeral :=
  List.forall_mem_singleton

theorem meetsOverlong_nil : ¬ MeetsOverlong [] numeral := by
  rintro ⟨before, text, after, htexts, -⟩
  simp at htexts

theorem meetsOverlong_cons : MeetsOverlong (text :: rest) numeral ↔
    IsOverlong text numeral ∨
      (∀ numeral, ¬ IsOverlong text numeral) ∧ MeetsOverlong rest numeral := by
  constructor
  · rintro ⟨before, stop, after, htexts, hread, hlong⟩
    cases before with
    | nil =>
        cases htexts
        exact .inl hlong
    | cons head before =>
        cases htexts
        obtain ⟨hhead, hbefore⟩ := areRead_cons.1 hread
        exact .inr ⟨hhead, before, stop, after, rfl, hbefore, hlong⟩
  · rintro (hlong | ⟨hhead, before, stop, after, rfl, hbefore, hlong⟩)
    · exact ⟨[], text, rest, rfl, nofun, hlong⟩
    · exact ⟨text :: before, stop, after, rfl, areRead_cons.2 ⟨hhead, hbefore⟩, hlong⟩

theorem meetsOverlong_single : MeetsOverlong [text] numeral ↔ IsOverlong text numeral := by
  rw [meetsOverlong_cons, or_iff_left]
  exact fun h => meetsOverlong_nil h.2

theorem meetsOverlong_append : MeetsOverlong (first ++ rest) numeral ↔
    MeetsOverlong first numeral ∨ AreRead first ∧ MeetsOverlong rest numeral := by
  induction first with
  | nil => simp [AreRead, meetsOverlong_nil]
  | cons text first ih =>
      rw [List.cons_append, meetsOverlong_cons, ih, meetsOverlong_cons, areRead_cons, and_or_left,
        or_assoc, and_assoc]

theorem areRead_iff : AreRead texts ↔ ∀ numeral, ¬ MeetsOverlong texts numeral := by
  induction texts with
  | nil => exact iff_of_true nofun fun _ => meetsOverlong_nil
  | cons text texts ih =>
      simp only [areRead_cons, meetsOverlong_cons, not_or, not_and]
      constructor
      · rintro ⟨hhead, hrest⟩ numeral
        exact ⟨hhead numeral, fun _ => ih.1 hrest numeral⟩
      · intro h
        have hhead : ∀ numeral, ¬ IsOverlong text numeral := fun numeral => (h numeral).1
        exact ⟨hhead, ih.2 fun numeral => (h numeral).2 hhead⟩

/-! ## Leaves -/

mutual

/-- The texts that are typed in a value: those at any depth of lists. Objects are kept with the
texts in them. -/
def leaves : Value → List String
  | .text text => [text]
  | .list items => leavesOfItems items
  | _ => []

/-- The texts that are typed in the items of a list. -/
def leavesOfItems : List Value → List String
  | [] => []
  | item :: items => leaves item ++ leavesOfItems items

end

/-- What a value is typed as: a leaf as what it comes to with its letters in lower case as the word,
a list item by item, and everything else as itself. -/
inductive TypedAs : Value → Value → Prop where
  | text {text : String} {typed : Value} (h : ComesTo text (Text.lower text) text typed) :
      TypedAs (.text text) typed
  | list {items typed : List Value} (h : List.Forall₂ TypedAs items typed) :
      TypedAs (.list items) (.list typed)
  | kept {value : Value} (htext : ∀ text, value ≠ .text text)
      (hlist : ∀ items, value ≠ .list items) : TypedAs value value

/-- What an expression is read as: a text as what it comes to with the trimmed text as the word and
as what is kept, and everything else as itself. -/
inductive ExpressedAs : Value → Value → Prop where
  | text {text : String} {typed : Value}
      (h : ComesTo text (Text.trim text) (Text.trim text) typed) : ExpressedAs (.text text) typed
  | kept {value : Value} (htext : ∀ text, value ≠ .text text) : ExpressedAs value value

theorem coerceItems_cons_eq_error_iff {item : Value} :
    coerceItems (item :: items) = .error numeral ↔
      coerce item = .error numeral ∨
        (∀ numeral, coerce item ≠ .error numeral) ∧ coerceItems items = .error numeral := by
  rw [coerceItems]
  cases coerce item with
  | error other => simp [bind, Except.bind]
  | ok first => cases coerceItems items <;> simp [bind, Except.bind]

mutual

/-- A value is refused for its first overlong leaf. -/
theorem coerce_eq_error_iff : ∀ (value : Value) (numeral : Text.OverlongNumeral),
    coerce value = .error numeral ↔ MeetsOverlong (leaves value) numeral
  | .text _, _ => map_eq_error_iff.trans (number_eq_error_iff.trans meetsOverlong_single.symm)
  | .list items, numeral => map_eq_error_iff.trans (coerceItems_eq_error_iff items numeral)
  | .null, _ | .bool _, _ | .int _, _ | .float _, _ | .object _, _ =>
      iff_of_false nofun meetsOverlong_nil

theorem coerceItems_eq_error_iff : ∀ (items : List Value) (numeral : Text.OverlongNumeral),
    coerceItems items = .error numeral ↔ MeetsOverlong (leavesOfItems items) numeral
  | [], _ => iff_of_false nofun meetsOverlong_nil
  | item :: items, numeral => by
      -- The rest counts only after an item that is typed, so the item is needed at every numeral.
      rw [coerceItems_cons_eq_error_iff, leavesOfItems, meetsOverlong_append, areRead_iff,
        coerce_eq_error_iff item numeral, coerceItems_eq_error_iff items numeral]
      simp only [ne_eq, coerce_eq_error_iff item]

end

mutual

/-- Values are typed leaf by leaf. -/
theorem typedAs_coerce : ∀ value : Value, Ensures (coerce value) (TypedAs value)
  | .text _ => fun _ htyped => .text (coerceText_eq_ok_iff.1 htyped).1
  | .list items => (forall₂_coerceItems items).map fun _ hitems => .list hitems
  | .null | .bool _ | .int _ | .float _ | .object _ => .ok (.kept nofun nofun)

theorem forall₂_coerceItems :
    ∀ items : List Value, Ensures (coerceItems items) (List.Forall₂ TypedAs items)
  | [] => .ok .nil
  | item :: items => .bind (typedAs_coerce item) fun _ hitem =>
      .bind (forall₂_coerceItems items) fun _ hrest => .ok (.cons hitem hrest)

end

mutual

/-- A value without overlong leaves is typed as all that it is said to be typed as. -/
theorem coerce_of_typedAs : ∀ {value typed : Value}, TypedAs value typed → AreRead (leaves value) →
    coerce value = .ok typed
  | .text _, _, h, hread => by
      cases h with
      | text hcomes => exact coerceText_eq_ok_iff.2 ⟨hcomes, areRead_single.1 hread⟩
      | kept htext => exact absurd rfl (htext _)
  | .list items, _, h, hread => by
      cases h with
      | list hitems =>
          rw [coerce, coerceItems_of_forall₂ hitems hread]
          rfl
      | kept _ hlist => exact absurd rfl (hlist _)
  | .null, _, h, _ | .bool _, _, h, _ | .int _, _, h, _ | .float _, _, h, _
  | .object _, _, h, _ => by
      cases h with
      | kept => rfl

theorem coerceItems_of_forall₂ : ∀ {items typed : List Value}, List.Forall₂ TypedAs items typed →
    AreRead (leavesOfItems items) → coerceItems items = .ok typed
  | [], _, .nil, _ => rfl
  | _ :: _, _, .cons hitem hrest, hread => by
      obtain ⟨hfirst, hothers⟩ := areRead_append.1 hread
      rw [coerceItems, coerce_of_typedAs hitem hfirst, coerceItems_of_forall₂ hrest hothers]
      rfl

end

/-- A value is typed if no leaf is overlong, as the one thing that it is said to be typed as. -/
theorem coerce_eq_ok_iff :
    coerce value = .ok typed ↔ TypedAs value typed ∧ AreRead (leaves value) := by
  constructor
  · intro h
    refine ⟨typedAs_coerce value typed h, areRead_iff.2 fun numeral hmeets => ?_⟩
    cases h.symm.trans ((coerce_eq_error_iff value numeral).2 hmeets)
  · rintro ⟨htyped, hread⟩
    exact coerce_of_typedAs htyped hread

/-! ## Expressions -/

/-- The text that is read in an expression; the texts in lists and objects are kept. -/
def ownTexts : Value → List String
  | .text text => [text]
  | _ => []

theorem expression_eq_ok_iff :
    expression value = .ok typed ↔ ExpressedAs value typed ∧ AreRead (ownTexts value) := by
  cases value with
  | text text =>
      rw [expression_text_eq_ok_iff, ownTexts, areRead_single]
      refine and_congr_left' ⟨.text, fun h => ?_⟩
      cases h with
      | text hcomes => exact hcomes
      | kept htext => exact absurd rfl (htext text)
  | _ =>
      constructor
      · rintro ⟨⟩
        exact ⟨.kept nofun, nofun⟩
      · rintro ⟨h, -⟩
        cases h with
        | kept => rfl

theorem expression_refused_iff :
    expression value = .error numeral ↔ MeetsOverlong (ownTexts value) numeral := by
  rw [expression_eq_error_iff]
  cases value with
  | text text => simp [ownTexts, meetsOverlong_single]
  | _ => simp [ownTexts, meetsOverlong_nil]

/-! ## Reading for good -/

/-- The value is read as the one thing that it is said to be read as, and that is read as
itself. -/
def ReadsForGood (read : Value → Except Text.OverlongNumeral Value)
    (IsReadAs : Value → Value → Prop) (value : Value) : Prop :=
  ∃ typed, read value = .ok typed ∧ read typed = .ok typed ∧
    ∀ other, IsReadAs value other ↔ other = typed

theorem readsForGood_iff {read : Value → Except Text.OverlongNumeral Value}
    {IsReadAs : Value → Value → Prop}
    (hagain : Ensures (read value) fun typed => read typed = .ok typed)
    (hok : ∀ {typed}, read value = .ok typed ↔ IsReadAs value typed ∧ AreRead texts)
    (herror : ∀ {numeral}, read value = .error numeral ↔ MeetsOverlong texts numeral) :
    ReadsForGood read IsReadAs value ↔ AreRead texts := by
  constructor
  · rintro ⟨typed, htyped, -⟩
    exact (hok.1 htyped).2
  · intro hread
    -- What is read is unique because everything that the value is said to be read as is read.
    cases hvalue : read value with
    | error numeral => exact absurd (herror.1 hvalue) (areRead_iff.1 hread numeral)
    | ok typed =>
        refine ⟨typed, hvalue, hagain typed hvalue, fun other => ⟨fun hother => ?_, ?_⟩⟩
        · exact Except.ok.inj ((hok.2 ⟨hother, hread⟩).symm.trans hvalue)
        · rintro rfl
          exact (hok.1 hvalue).1

/-- A value is typed for good, leaf by leaf, exactly if none of its leaves is overlong, and refused
for the first one that is. An expression is read for good exactly if it is no overlong text, which
is refused. -/
theorem types_for_good_iff (value : Value) :
    (ReadsForGood coerce TypedAs value ↔ AreRead (leaves value)) ∧
    (∀ numeral, coerce value = .error numeral ↔ MeetsOverlong (leaves value) numeral) ∧
    (ReadsForGood expression ExpressedAs value ↔ AreRead (ownTexts value)) ∧
    ∀ numeral, expression value = .error numeral ↔ MeetsOverlong (ownTexts value) numeral := by
  refine ⟨?_, coerce_eq_error_iff value, ?_, fun numeral => expression_refused_iff⟩
  · exact readsForGood_iff (coerce_again value) coerce_eq_ok_iff (coerce_eq_error_iff value _)
  · exact readsForGood_iff (expression_again value) expression_eq_ok_iff expression_refused_iff

/-- Blanks around a number do not count, blanks around a word do, and objects are kept. -/
example : coerce (.list [.text " 7 ", .list [.text "TRUE", .text " true "],
      .object [("size", .text "1")]]) =
    .ok (.list [.int 7, .list [.bool true, .text " true "], .object [("size", .text "1")]]) := by
  decide +kernel

/-- A list of a word and of more zeros than digits are read. -/
def overlongItems : Value := .list [.text "true", .text (zeros 4301)]

/-- The list is a boolean and zero, yet both are refused. -/
theorem not_readsForGood_overlongItems :
    TypedAs overlongItems (.list [.bool true, .int 0]) ∧ coerce overlongItems = .error ⟨4301⟩ ∧
      ¬ ReadsForGood coerce TypedAs overlongItems := by
  have hnumber : number "true" = .ok none := by decide
  have hlower : Text.lower "true" = "true" := by decide +kernel
  obtain ⟨hinteger, hrefused⟩ := number_zeros (by decide : Text.maxDigits < 4301)
  have herror : coerce overlongItems = .error ⟨4301⟩ :=
    (coerce_eq_error_iff _ _).2 ⟨["true"], zeros 4301, [], rfl,
      areRead_single.2 (not_isOverlong_of_number hnumber), number_eq_error_iff.1 hrefused⟩
  refine ⟨.list (.cons (.text ?_) (.cons (.text ?_) .nil)), herror, ?_⟩
  · exact .bool true (isWord_of_number hnumber) hlower
  · exact .integer 0 hinteger
  · rintro ⟨typed, htyped, -⟩
    cases herror.symm.trans htyped

end StageChain.Literal
