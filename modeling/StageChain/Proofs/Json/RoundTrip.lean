import StageChain.Proofs.Entries
import StageChain.Proofs.Json.Numbers
import StageChain.Proofs.Json.Texts
import StageChain.Proofs.Json.Written

/-!
# JSON texts are read back

The text that is written for a value is read as that value, in every style and whatever follows,
if the dialect reads numbers of any length and knows the words for the doubles in the value:
`readValue_writeAt` and, for whole texts, `read_write`.
-/

namespace StageChain.Json

open Text

variable {dialect : Dialect} {style : Style} {depth fuel : Nat} {c : Char} {chars rest : List Char}
  {value item : Value} {items : List Value} {entries : List (String × Value)}

/-! ## Words -/

/-- The characters that words start with. -/
def wordStarts : List Char := ['n', 't', 'f', 'N', 'I', '-']

theorem readWord?_of_not_mem (h : c ∉ wordStarts) :
    readWord? dialect.words (c :: rest) = none := by
  simp only [wordStarts, List.mem_cons, List.not_mem_nil, not_or, ← ne_eq] at h
  cases hwords : dialect.nonFinite <;>
    simp [readWord?, Dialect.words, List.isPrefixOf?, hwords, h, Ne.symm]

/-- A minus that no infinity follows is no word. -/
theorem readWord?_minus (h : c ≠ 'I') : readWord? dialect.words ('-' :: c :: rest) = none := by
  cases hwords : dialect.nonFinite <;>
    simp [readWord?, Dialect.words, List.isPrefixOf?, hwords, h.symm]

theorem not_mem_wordStarts_of_isAsciiDigit (h : isAsciiDigit c = true) : c ∉ wordStarts := by
  intro hmem
  simp only [wordStarts, List.mem_cons, List.not_mem_nil, or_false] at hmem
  rcases hmem with rfl | rfl | rfl | rfl | rfl | rfl <;> exact absurd h (by decide)

theorem readValue_of_readWord? (h : readWord? dialect.words chars = some (value, rest)) :
    readValue dialect (fuel + 1) chars = .ok (value, rest) := by
  simp only [readValue.eq_def, h]

/-- What starts like a number is read as one. -/
theorem readValue_of_startsNumber (h : StartsNumber chars) :
    readValue dialect (fuel + 1) chars = readNumber dialect chars := by
  cases h with
  | @digit c rest hdigit =>
      have hne : ∀ {mark : Char} {after : List Char}, isAsciiDigit mark = false →
          c :: rest = mark :: after → False := by
        rintro mark after hmark heq
        cases heq
        exact absurd (hdigit.symm.trans hmark) (by decide)
      rw [readValue, readWord?_of_not_mem (not_mem_wordStarts_of_isAsciiDigit hdigit)]
      all_goals exact fun _ => hne rfl
  | @minus c rest hdigit =>
      have hne : c ≠ 'I' := by
        rintro rfl
        exact absurd hdigit (by decide)
      simp only [readValue.eq_def, readWord?_minus hne]
      rfl

theorem readValue_writeText (ascii : Bool) (text : String) (rest : List Char) :
    readValue dialect (fuel + 1) (writeText ascii text ++ rest) = .ok (.text text, rest) := by
  rw [writeText_append, readValue, readWord?_of_not_mem (by decide), readText_literal]
  rfl

/-! ## Spaces -/

theorem skipSpace_cons (h : isSpace c = false) : skipSpace (c :: rest) = c :: rest := by
  simp [skipSpace, h]

theorem isSpace_colon : isSpace ':' = false := rfl

theorem skipSpace_lineBreak (style : Style) (depth : Nat) (rest : List Char) :
    skipSpace (style.lineBreak depth ++ rest) = skipSpace rest := by
  have hblank : ∀ c ∈ style.lineBreak depth, isSpace c = true := by
    intro c hc
    unfold Style.lineBreak at hc
    split at hc
    · rcases List.mem_cons.1 hc with rfl | hc
      · rfl
      · rw [(List.mem_replicate.1 hc).2]
        rfl
    · cases hc
  rw [skipSpace, List.dropWhile_append_of_pos hblank, skipSpace]

theorem skipSpace_blank (rest : List Char) : skipSpace (' ' :: rest) = skipSpace rest := rfl

theorem skipSpace_writeText (ascii : Bool) (text : String) (rest : List Char) :
    skipSpace (writeText ascii text ++ rest) = writeText ascii text ++ rest := by
  rw [writeText_append]
  exact skipSpace_cons rfl

/-- A separator is a comma and spaces. -/
theorem exists_separator_eq (style : Style) (depth : Nat) :
    ∃ blanks, style.separator depth = ',' :: blanks ∧
      ∀ rest, skipSpace (blanks ++ rest) = skipSpace rest := by
  unfold Style.separator
  split
  · exact ⟨_, rfl, skipSpace_lineBreak style depth⟩
  · exact ⟨[' '], rfl, fun _ => rfl⟩

/-- No value starts with a space or a closing bracket. -/
theorem readValue_malformed (h : isSpace c = true ∨ c = ']') :
    readValue dialect fuel (c :: rest) = .error .malformed := by
  cases fuel with
  | zero => rfl
  | succ fuel =>
      simp only [isSpace, Bool.or_eq_true, beq_iff_eq] at h
      have hword : c ∉ wordStarts := by
        rcases h with (((rfl | rfl) | rfl) | rfl) | rfl <;> decide
      simp only [readValue.eq_def, readWord?_of_not_mem hword]
      rcases h with (((rfl | rfl) | rfl) | rfl) | rfl <;> rfl

/-- No space is skipped before a value. -/
theorem skipSpace_of_readValue (h : readValue dialect fuel chars = .ok (value, rest)) :
    skipSpace chars = chars := by
  cases chars with
  | nil => rfl
  | cons c after =>
      refine skipSpace_cons (Bool.eq_false_iff.2 fun hspace => ?_)
      rw [readValue_malformed (.inl hspace)] at h
      cases h

/-! ## Lists and objects -/

theorem readItems_last (hitem : readValue dialect fuel chars = .ok (item, rest))
    {after : List Char} (hrest : skipSpace rest = ']' :: after) :
    readItems dialect (fuel + 1) chars = .ok ([item], after) := by
  simp only [readItems, hitem, bind, Except.bind, hrest]

theorem readItems_more (hitem : readValue dialect fuel chars = .ok (item, rest))
    {more after : List Char} (hrest : skipSpace rest = ',' :: more)
    (hmore : readItems dialect fuel (skipSpace more) = .ok (items, after)) :
    readItems dialect (fuel + 1) chars = .ok (item :: items, after) := by
  simp only [readItems, hitem, bind, Except.bind, hrest, hmore, Except.map]

theorem readValue_list (h : readItems dialect fuel (skipSpace chars) = .ok (items, rest)) :
    readValue dialect (fuel + 1) ('[' :: chars) = .ok (.list items, rest) := by
  rw [readValue, readWord?_of_not_mem (by decide)]
  cases fuel with
  | zero => cases h
  | succ fuel =>
    simp only
    split
    · rename_i after hclosed
      rw [hclosed] at h
      simp only [readItems, readValue_malformed (.inr rfl)] at h
      cases h
    · rw [h]
      rfl

theorem readEntries_last (ascii : Bool) (key : String) {after : List Char}
    (hvalue : readValue dialect fuel (skipSpace chars) = .ok (value, rest))
    (hrest : skipSpace rest = '\x7d' :: after) :
    readEntries dialect (fuel + 1) (writeText ascii key ++ ':' :: chars) =
      .ok ([(key, value)], after) := by
  rw [writeText_append]
  simp only [readEntries, readText_literal, expect, bind, Except.bind, skipSpace_cons isSpace_colon,
    hvalue, hrest]

theorem readEntries_more (ascii : Bool) (key : String) {more after : List Char}
    (hvalue : readValue dialect fuel (skipSpace chars) = .ok (value, rest))
    (hrest : skipSpace rest = ',' :: more)
    (hmore : readEntries dialect fuel (skipSpace more) = .ok (entries, after)) :
    readEntries dialect (fuel + 1) (writeText ascii key ++ ':' :: chars) =
      .ok ((key, value) :: entries, after) := by
  rw [writeText_append]
  simp only [readEntries, readText_literal, expect, bind, Except.bind, skipSpace_cons isSpace_colon,
    hvalue, hrest, hmore, Except.map]

theorem readValue_object (h : readEntries dialect fuel (skipSpace chars) = .ok (entries, rest)) :
    readValue dialect (fuel + 1) ('\x7b' :: chars) =
      .ok (.object (Entries.collect entries), rest) := by
  rw [readValue, readWord?_of_not_mem (by decide)]
  cases fuel with
  | zero => cases h
  | succ fuel =>
      simp only
      split
      · rename_i after hclosed
        rw [hclosed] at h
        cases h
      · rw [h]
        rfl

theorem skipSpace_of_readItems (h : readItems dialect fuel chars = .ok (items, rest)) :
    skipSpace chars = chars := by
  cases fuel with
  | zero => cases h
  | succ fuel =>
      cases hitem : readValue dialect fuel chars with
      | error fault => simp [readItems, hitem, bind, Except.bind] at h
      | ok found => exact skipSpace_of_readValue hitem

/-! ## Values -/

theorem endsNumber_lineBreak (style : Style) (depth : Nat) (h : EndsNumber rest) :
    EndsNumber (style.lineBreak depth ++ rest) := by
  unfold Style.lineBreak
  split
  · exact .cons (by decide)
  · exact h

/-- A double is read from its text or, where the dialect has it, from its word. -/
theorem readValue_writeDouble {x : Double} (hfinite : dialect.nonFinite = false → x.isFinite = true)
    (hrest : EndsNumber rest) :
    readValue dialect (fuel + 1) (writeDouble x ++ rest) = .ok (.float x, rest) := by
  cases x with
  | nan =>
      have hwords : dialect.nonFinite = true := by simpa [Double.isFinite] using hfinite
      refine readValue_of_readWord? ?_
      simp [writeDouble, readWord?, Dialect.words, List.isPrefixOf?, hwords]
  | infinite negative =>
      have hwords : dialect.nonFinite = true := by simpa [Double.isFinite] using hfinite
      refine readValue_of_readWord? ?_
      cases negative <;>
        simp [writeDouble, Double.signedText, readWord?, Dialect.words, List.isPrefixOf?, hwords]
  | finite negative m =>
      have hstart := (startsNumber_chars negative m).append rest
      exact (readValue_of_startsNumber hstart).trans (readNumber_chars negative m hrest)

theorem readValue_null :
    readValue dialect (fuel + 1) ("null".toList ++ rest) = .ok (.null, rest) := by
  refine readValue_of_readWord? ?_
  simp [readWord?, Dialect.words, List.isPrefixOf?]

theorem readValue_bool (b : Bool) :
    readValue dialect (fuel + 1) ((if b then "true".toList else "false".toList) ++ rest) =
      .ok (.bool b, rest) := by
  refine readValue_of_readWord? ?_
  cases b <;> simp [readWord?, Dialect.words, List.isPrefixOf?]

theorem readValue_nil :
    readValue dialect (fuel + 1) ('[' :: ']' :: rest) = .ok (.list [], rest) := by
  rw [readValue, readWord?_of_not_mem (by decide)]
  rfl

theorem readValue_empty :
    readValue dialect (fuel + 1) ('\x7b' :: '\x7d' :: rest) = .ok (.object [], rest) := by
  rw [readValue, readWord?_of_not_mem (by decide)]
  rfl

mutual

-- Fuel bounds the depth of the calls, and a call inside another has fewer characters to read. So
-- the induction is on the value, and the fuel only has to exceed the length of what is written.

/-- What is written for a value is read as the value. -/
theorem readValue_writeAt (hunlimited : dialect.limited = false) (style : Style) (value : Value)
    (hwf : value.WellFormed)
    (hfinite : dialect.nonFinite = false → value.IsFinite) {depth fuel : Nat}
    (hfuel : (writeAt style depth value).length < fuel) {rest : List Char}
    (hrest : EndsNumber rest) :
    readValue dialect fuel (writeAt style depth value ++ rest) = .ok (value, rest) := by
  obtain ⟨fuel, rfl⟩ : ∃ less, fuel = less + 1 := ⟨fuel - 1, by omega⟩
  cases value with
  | null => exact readValue_null
  | bool b => exact readValue_bool b
  | int n =>
      rw [writeAt, readValue_of_startsNumber ((startsNumber_integerChars n).append rest)]
      exact readNumber_integerChars hunlimited n hrest
  | float x => exact readValue_writeDouble (fun h => Value.isFinite_float.1 (hfinite h)) hrest
  | text s => exact readValue_writeText style.ascii s rest
  | list items =>
      cases items with
      | nil => exact readValue_nil
      | cons item items =>
          simp only [writeAt, List.append_assoc, List.cons_append, List.nil_append,
            List.length_append, List.length_cons] at hfuel ⊢
          obtain ⟨hone, hmore⟩ := forall_and.1 fun h => Value.isFinite_cons.1 (hfinite h)
          obtain ⟨fuel, rfl⟩ : ∃ less, fuel = less + 1 := ⟨fuel - 1, by omega⟩
          have hroom : (writeItems style (depth + 1) items).length < fuel := by omega
          have hitem : ∀ rest, EndsNumber rest →
              readValue dialect fuel (writeAt style (depth + 1) item ++ rest) = .ok (item, rest) :=
            fun rest => readValue_writeAt hunlimited style item hwf.1 hone (by omega)
          have hitems :=
            readItems_writeItems hunlimited style items hwf.2 hmore hroom hitem depth rest
          refine readValue_list ?_
          rw [skipSpace_lineBreak, skipSpace_of_readItems hitems]
          exact hitems
  | object entries =>
      cases entries with
      | nil => exact readValue_empty
      | cons entry entries =>
          obtain ⟨key, value⟩ := entry
          simp only [writeAt, List.append_assoc, List.cons_append, List.nil_append,
            List.length_append, List.length_cons] at hfuel ⊢
          obtain ⟨hone, hmore⟩ :=
            forall_and.1 fun h => (Value.isFinite_entry key).1 (hfinite h)
          obtain ⟨fuel, rfl⟩ : ∃ less, fuel = less + 1 := ⟨fuel - 1, by omega⟩
          have hroom : (writeEntries style (depth + 1) entries).length < fuel := by omega
          have hvalue : ∀ rest, EndsNumber rest →
              readValue dialect fuel (writeAt style (depth + 1) value ++ rest) =
                .ok (value, rest) :=
            fun rest => readValue_writeAt hunlimited style value hwf.2.1 hone (by omega)
          have hentries := readEntries_writeEntries hunlimited style entries hwf.2.2 hmore hroom key
            hvalue depth rest
          rw [← Entries.collect_of_nodup hwf.1]
          refine readValue_object ?_
          rw [skipSpace_lineBreak, skipSpace_writeText]
          exact hentries

/-- Items are read up to the closing bracket, from the first one on. -/
theorem readItems_writeItems (hunlimited : dialect.limited = false) (style : Style)
    (items : List Value) (hwf : Value.ItemsWellFormed items)
    (hfinite : dialect.nonFinite = false → (Value.list items).IsFinite)
    {item : Value} {chars : List Char} {depth fuel : Nat}
    (hfuel : (writeItems style depth items).length < fuel)
    (hitem : ∀ rest, EndsNumber rest → readValue dialect fuel (chars ++ rest) = .ok (item, rest))
    (outer : Nat) (rest : List Char) :
    readItems dialect (fuel + 1)
        (chars ++ (writeItems style depth items ++ (style.lineBreak outer ++ ']' :: rest))) =
      .ok (item :: items, rest) := by
  cases items with
  | nil =>
      refine readItems_last (hitem _ (endsNumber_lineBreak style outer (.cons (by decide)))) ?_
      exact skipSpace_lineBreak style outer _
  | cons next items =>
      obtain ⟨blanks, hseparator, hblanks⟩ := exists_separator_eq style depth
      simp only [writeItems, hseparator, List.append_assoc, List.cons_append, List.length_cons,
        List.length_append] at hfuel ⊢
      obtain ⟨hone, hmore⟩ := forall_and.1 fun h => Value.isFinite_cons.1 (hfinite h)
      obtain ⟨fuel, rfl⟩ : ∃ less, fuel = less + 1 := ⟨fuel - 1, by omega⟩
      have hroom : (writeItems style depth items).length < fuel := by omega
      have hnext : ∀ rest, EndsNumber rest →
          readValue dialect fuel (writeAt style depth next ++ rest) = .ok (next, rest) :=
        fun rest => readValue_writeAt hunlimited style next hwf.1 hone (by omega)
      have hitems := readItems_writeItems hunlimited style items hwf.2 hmore hroom hnext outer rest
      refine readItems_more (hitem _ (.cons (by decide))) rfl ?_
      rw [hblanks, skipSpace_of_readItems hitems]
      exact hitems

/-- Entries are read up to the closing brace, from the first one on. -/
theorem readEntries_writeEntries (hunlimited : dialect.limited = false) (style : Style)
    (entries : List (String × Value)) (hwf : Value.EntriesWellFormed entries)
    (hfinite : dialect.nonFinite = false → (Value.object entries).IsFinite)
    {value : Value} {chars : List Char} {depth fuel : Nat}
    (hfuel : (writeEntries style depth entries).length < fuel) (key : String)
    (hvalue : ∀ rest, EndsNumber rest → readValue dialect fuel (chars ++ rest) = .ok (value, rest))
    (outer : Nat) (rest : List Char) :
    readEntries dialect (fuel + 1)
        (writeText style.ascii key ++ ':' :: ' ' :: (chars ++
          (writeEntries style depth entries ++ (style.lineBreak outer ++ '\x7d' :: rest)))) =
      .ok ((key, value) :: entries, rest) := by
  have hread : ∀ rest, EndsNumber rest →
      readValue dialect fuel (skipSpace (' ' :: (chars ++ rest))) = .ok (value, rest) := by
    intro rest hrest
    rw [skipSpace_blank, skipSpace_of_readValue (hvalue rest hrest)]
    exact hvalue rest hrest
  cases entries with
  | nil =>
      have hclosed : EndsNumber (style.lineBreak outer ++ '\x7d' :: rest) :=
        endsNumber_lineBreak style outer (.cons (by decide))
      exact readEntries_last style.ascii key (hread _ hclosed) (skipSpace_lineBreak style outer _)
  | cons entry entries =>
      obtain ⟨nextKey, next⟩ := entry
      obtain ⟨blanks, hseparator, hblanks⟩ := exists_separator_eq style depth
      simp only [writeEntries, hseparator, List.append_assoc, List.cons_append, List.nil_append,
        List.length_cons, List.length_append] at hfuel ⊢
      obtain ⟨hone, hmore⟩ :=
        forall_and.1 fun h => (Value.isFinite_entry nextKey).1 (hfinite h)
      obtain ⟨fuel, rfl⟩ : ∃ less, fuel = less + 1 := ⟨fuel - 1, by omega⟩
      have hroom : (writeEntries style depth entries).length < fuel := by omega
      have hnext : ∀ rest, EndsNumber rest →
          readValue dialect fuel (writeAt style depth next ++ rest) = .ok (next, rest) :=
        fun rest => readValue_writeAt hunlimited style next hwf.1 hone (by omega)
      have hentries := readEntries_writeEntries hunlimited style entries hwf.2 hmore hroom nextKey
        hnext outer rest
      refine readEntries_more style.ascii key (hread _ (.cons (by decide))) rfl ?_
      rw [hblanks, skipSpace_writeText]
      exact hentries

end

/-- The text of a value is read as the value, in every style. -/
theorem read_write (hunlimited : dialect.limited = false) (style : Style) {value : Value}
    (hwf : value.WellFormed)
    (hfinite : dialect.nonFinite = false → value.IsFinite) :
    read dialect (write style value) = .ok value := by
  have hfuel : (writeAt style 0 value).length < 2 * (writeAt style 0 value).length + 2 := by omega
  have hread := readValue_writeAt hunlimited style value hwf hfinite hfuel .nil
  rw [List.append_nil] at hread
  simp only [read, write, String.toList_ofList]
  rw [skipSpace_of_readValue hread, hread]
  rfl

end StageChain.Json
