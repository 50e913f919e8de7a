/-!
# Blank characters and trimming

The blank characters are the Unicode white space and separator controls. `trim` drops them at both
ends of a text; `trim_trim` says that a trimmed text stays as it is.
-/

namespace StageChain.Text

/-- Whether a character is blank: tabs and line breaks, the four separator controls, the space and
the Unicode spaces. -/
def isBlank (c : Char) : Bool :=
  let n := c.toNat
  (9 ≤ n && n ≤ 13) || (28 ≤ n && n ≤ 32) || n == 0x85 || n == 0xA0 || n == 0x1680 ||
    (0x2000 ≤ n && n ≤ 0x200A) || n == 0x2028 || n == 0x2029 || n == 0x202F || n == 0x205F ||
    n == 0x3000

/-- Drops the characters at the end that satisfy the test. -/
def dropEndWhile (test : Char → Bool) (chars : List Char) : List Char :=
  (chars.reverse.dropWhile test).reverse

/-- Drops the blank characters at both ends of a list of characters. -/
def trimChars (chars : List Char) : List Char :=
  dropEndWhile isBlank (chars.dropWhile isBlank)

/-- Drops the blank characters at both ends of a text. -/
def trim (text : String) : String :=
  String.ofList (trimChars text.toList)

theorem dropWhile_eq_self_of_head {test : Char → Bool} {chars : List Char}
    (h : ∀ c, chars.head? = some c → test c = false) : chars.dropWhile test = chars := by
  cases chars with
  | nil => rfl
  | cons c rest => simp [h c rfl]

/-- Nothing that satisfies the test is left at the head. -/
theorem head?_dropWhile_false {test : Char → Bool} {chars : List Char} {c : Char}
    (h : (chars.dropWhile test).head? = some c) : test c = false := by
  induction chars with
  | nil => simp at h
  | cons d rest ih =>
    by_cases hd : test d = true
    · exact ih (by simpa [List.dropWhile_cons, hd] using h)
    · simp [hd] at h
      subst h
      simpa using hd

/-- Trimmed characters do not start with a blank. -/
theorem dropWhile_trimChars (chars : List Char) :
    (trimChars chars).dropWhile isBlank = trimChars chars := by
  refine dropWhile_eq_self_of_head fun c hc => ?_
  obtain ⟨tail, htail⟩ : trimChars chars <+: chars.dropWhile isBlank := by
    have h := List.dropWhile_suffix (l := (chars.dropWhile isBlank).reverse) isBlank
    simpa [trimChars, dropEndWhile] using List.reverse_prefix.2 h
  refine @head?_dropWhile_false isBlank chars c ?_
  rw [← htail, List.head?_append, hc]
  rfl

/-- Trimmed characters do not end with a blank. -/
theorem dropWhile_reverse_trimChars (chars : List Char) :
    (trimChars chars).reverse.dropWhile isBlank = (trimChars chars).reverse := by
  refine dropWhile_eq_self_of_head fun c hc => ?_
  refine @head?_dropWhile_false isBlank (chars.dropWhile isBlank).reverse c ?_
  simpa [trimChars, dropEndWhile] using hc

/-- Trimmed characters stay as they are. -/
theorem trimChars_trimChars (chars : List Char) :
    trimChars (trimChars chars) = trimChars chars := by
  rw [trimChars, dropWhile_trimChars, dropEndWhile, dropWhile_reverse_trimChars,
    List.reverse_reverse]

/-- A character that is not blank before trimmed ones leaves nothing to trim. -/
theorem trimChars_cons_trimChars {c : Char} (h : isBlank c = false) (chars : List Char) :
    trimChars (c :: trimChars chars) = c :: trimChars chars := by
  rw [trimChars, List.dropWhile_cons_of_neg (by simp [h]), dropEndWhile, List.reverse_cons,
    List.dropWhile_append, dropWhile_reverse_trimChars]
  by_cases hnil : trimChars chars = []
  · simp [h, hnil]
  · simp [hnil]

/-- What satisfies the test is dropped up to the first character that does not. -/
theorem dropWhile_append_eq {test : Char → Bool} {front rest : List Char}
    (hfront : ∀ c ∈ front, test c = true) (hrest : ∀ c, rest.head? = some c → test c = false) :
    (front ++ rest).dropWhile test = rest := by
  rw [List.dropWhile_append_of_pos hfront, dropWhile_eq_self_of_head hrest]

theorem dropEndWhile_append_eq {test : Char → Bool} {chars trail : List Char}
    (htrail : ∀ c ∈ trail, test c = true) (hchars : ∀ c, chars.getLast? = some c → test c = false) :
    dropEndWhile test (chars ++ trail) = chars := by
  rw [dropEndWhile, List.reverse_append,
    dropWhile_append_eq (by simpa using htrail) (by simpa using hchars), List.reverse_reverse]

/-- Blanks around characters with no blank at either end are dropped. -/
theorem trimChars_append {lead chars trail : List Char} (hlead : ∀ c ∈ lead, isBlank c = true)
    (htrail : ∀ c ∈ trail, isBlank c = true)
    (hfront : ∀ c, chars.head? = some c → isBlank c = false)
    (hback : ∀ c, chars.getLast? = some c → isBlank c = false) :
    trimChars (lead ++ chars ++ trail) = chars := by
  rw [trimChars, List.append_assoc]
  cases chars with
  | nil =>
      have hblank : ∀ c ∈ lead ++ trail, isBlank c = true := fun c hc =>
        (List.mem_append.1 hc).elim (hlead c) (htrail c)
      have hdrop : (lead ++ trail ++ []).dropWhile isBlank = [] :=
        List.dropWhile_append_of_pos hblank
      rw [List.append_nil] at hdrop
      rw [List.nil_append, hdrop]
      rfl
  | cons c rest =>
      have hstart : ∀ d, (c :: rest ++ trail).head? = some d → isBlank d = false := hfront
      rw [dropWhile_append_eq hlead hstart, dropEndWhile_append_eq htrail hback]

/-- Characters with no blank at either end stay as they are. -/
theorem trimChars_eq_self {chars : List Char}
    (hfront : ∀ c, chars.head? = some c → isBlank c = false)
    (hback : ∀ c, chars.getLast? = some c → isBlank c = false) : trimChars chars = chars := by
  rw [trimChars, dropWhile_eq_self_of_head hfront, dropEndWhile,
    dropWhile_eq_self_of_head (by simpa using hback), List.reverse_reverse]

/-- A trimmed text stays as it is. -/
theorem trim_trim (text : String) : trim (trim text) = trim text := by
  simp [trim, trimChars_trimChars]

end StageChain.Text
