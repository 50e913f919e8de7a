import Mathlib.Data.List.TakeWhile
import StageChain.Proofs.Stage.Grouping

/-!
# The key of a group in normal form

A text as the key of a group is trimmed, loses the dollar signs at its start and is then a
reference, which is trimmed again and keeps a dollar sign that it starts with. The blanks between
the dollar signs at the start and the rest are dropped only in that last step, so a dollar sign
after them stays. `normalizes_key_iff` says when this leaves a key that is no reference to a field.
-/

namespace StageChain.Grouping

open Text (isBlank trimChars trim)

/-! ## Parts -/

/-- The parts of a text: dollar signs between blanks, the body, which neither starts nor ends with a
blank, and blanks. The blanks after the dollar signs are the gap. -/
structure Parts where
  lead : List Char
  dollars : List Char
  gap : List Char
  body : List Char
  trail : List Char
  lead_blank : ∀ c ∈ lead, isBlank c = true
  dollars_eq : ∀ c ∈ dollars, c = '$'
  gap_blank : ∀ c ∈ gap, isBlank c = true
  trail_blank : ∀ c ∈ trail, isBlank c = true
  body_front : ∀ c, body.head? = some c → isBlank c = false
  body_back : ∀ c, body.getLast? = some c → isBlank c = false
  gap_eq_nil : dollars = [] → gap = []
  body_unmarked : gap = [] → body.head? ≠ some '$'

namespace Parts

/-- The text of the parts. -/
def chars (parts : Parts) : List Char :=
  parts.lead ++ parts.dollars ++ parts.gap ++ parts.body ++ parts.trail

/-- The body as a reference. -/
def reference (parts : Parts) : List Char :=
  if parts.body.head? = some '$' then parts.body else '$' :: parts.body

theorem takeWhile_eq_nil_of_head {test : Char → Bool} {chars : List Char}
    (h : ∀ c, chars.head? = some c → test c = false) : chars.takeWhile test = [] := by
  cases chars with
  | nil => rfl
  | cons c rest => simp [h c rfl]

/-- Every text has parts. -/
theorem exists_chars_eq (text : List Char) : ∃ parts : Parts, parts.chars = text := by
  let after := text.dropWhile isBlank
  let rest := after.dropWhile (· == '$')
  let tail := rest.dropWhile isBlank
  have htaken := fun (test : Char → Bool) chars =>
    List.takeWhile_append_dropWhile (p := test) (l := chars)
  have htail : Text.dropEndWhile isBlank tail ++ (tail.reverse.takeWhile isBlank).reverse = tail := by
    rw [Text.dropEndWhile, ← List.reverse_append, List.takeWhile_append_dropWhile,
      List.reverse_reverse]
  have hbody : ∀ c, (Text.dropEndWhile isBlank tail).head? = some c → tail.head? = some c := by
    intro c hc
    rw [← htail, List.head?_append, hc]
    rfl
  refine ⟨{
    lead := text.takeWhile isBlank
    dollars := after.takeWhile (· == '$')
    gap := rest.takeWhile isBlank
    body := Text.dropEndWhile isBlank tail
    trail := (tail.reverse.takeWhile isBlank).reverse
    lead_blank := fun c hc => List.mem_takeWhile_imp hc
    dollars_eq := fun c hc => by simpa using List.mem_takeWhile_imp hc
    gap_blank := fun c hc => List.mem_takeWhile_imp hc
    trail_blank := fun c hc => List.mem_takeWhile_imp (List.mem_reverse.1 hc)
    body_front := fun c hc => Text.head?_dropWhile_false (hbody c hc)
    body_back := fun c hc => Text.head?_dropWhile_false (by
      rwa [Text.dropEndWhile, List.getLast?_reverse] at hc)
    gap_eq_nil := fun hdollars => ?_
    body_unmarked := fun hgap hmarked => ?_ }, ?_⟩
  · -- without dollar signs, the blanks before them are all blanks at the start
    have hrest : [] ++ rest = after := hdollars ▸ htaken (· == '$') after
    rw [List.nil_append] at hrest
    rw [hrest]
    exact takeWhile_eq_nil_of_head fun c hc => Text.head?_dropWhile_false hc
  · -- without a gap, the body comes right after the last dollar sign
    have hrest : [] ++ tail = rest := hgap ▸ htaken isBlank rest
    have hhead : rest.head? = some '$' := hrest ▸ hbody '$' hmarked
    exact absurd (Text.head?_dropWhile_false hhead) (by decide)
  · simp only [chars, List.append_assoc]
    rw [htail, htaken, htaken, htaken]

variable {parts : Parts}

/-- The last dollar signs or the body end a text with blanks around it. -/
theorem trimChars_chars (parts : Parts) :
    trimChars parts.chars =
      if parts.body = [] then parts.dollars else parts.dollars ++ parts.gap ++ parts.body := by
  have hdollar : isBlank '$' = false := by decide
  split
  · rename_i hbody
    have hchars : parts.chars = parts.lead ++ parts.dollars ++ (parts.gap ++ parts.trail) := by
      simp [chars, hbody]
    rw [hchars, Text.trimChars_append parts.lead_blank]
    · intro c hc
      exact (List.mem_append.1 hc).elim (parts.gap_blank c) (parts.trail_blank c)
    · intro c hc
      rwa [parts.dollars_eq c (List.mem_of_head? hc)]
    · intro c hc
      rwa [parts.dollars_eq c (List.mem_of_getLast? hc)]
  · rename_i hbody
    have hchars : parts.chars =
        parts.lead ++ (parts.dollars ++ parts.gap ++ parts.body) ++ parts.trail := by
      simp [chars]
    rw [hchars, Text.trimChars_append parts.lead_blank parts.trail_blank]
    · intro c hc
      by_cases hnil : parts.dollars = []
      · exact parts.body_front c (by simpa [hnil, parts.gap_eq_nil hnil] using hc)
      · rw [List.append_assoc, List.head?_append_of_ne_nil _ hnil] at hc
        rwa [parts.dollars_eq c (List.mem_of_head? hc)]
    · intro c hc
      rw [List.getLast?_append_of_ne_nil _ hbody] at hc
      exact parts.body_back c hc

/-- Without the dollar signs at the start, the gap comes first. -/
theorem dropWhile_dollars (parts : Parts) :
    (parts.dollars ++ parts.gap ++ parts.body).dropWhile (· == '$') = parts.gap ++ parts.body := by
  rw [List.append_assoc]
  refine Text.dropWhile_append_eq (by simpa using parts.dollars_eq) fun c hc => ?_
  rw [beq_eq_false_iff_ne]
  rintro rfl
  by_cases hgap : parts.gap = []
  · exact parts.body_unmarked hgap (by simpa [hgap] using hc)
  · rw [List.head?_append_of_ne_nil _ hgap] at hc
    exact absurd (parts.gap_blank _ (List.mem_of_head? hc)) (by decide)

/-- The reference drops the gap, but no dollar sign that was behind it. -/
theorem ofName_gap (parts : Parts) :
    Reference.ofName (String.ofList (parts.gap ++ parts.body)) = String.ofList parts.reference := by
  have htrim : trimChars (parts.gap ++ parts.body ++ []) = parts.body :=
    Text.trimChars_append parts.gap_blank (by simp) parts.body_front parts.body_back
  rw [List.append_nil] at htrim
  rw [Reference.ofName, trim, String.toList_ofList, htrim, Reference.isMarked,
    String.toList_ofList, reference]
  by_cases hmarked : parts.body.head? = some '$'
  · simp [hmarked]
  · rw [if_neg (by simpa using hmarked), if_neg hmarked]
    exact String.toList_inj.1 (by simp)

/-- The key of a text is the reference to its body, or null if it has none. -/
theorem key_chars (parts : Parts) :
    key (.text (String.ofList parts.chars)) =
      if parts.body = [] then .null else .text (String.ofList parts.reference) := by
  have hkey : key (.text (String.ofList parts.chars)) =
      if ((trimChars parts.chars).dropWhile (· == '$')).isEmpty then .null
      else .text (Reference.ofName (String.ofList ((trimChars parts.chars).dropWhile (· == '$')))) := by
    simp [key, Value.display, Reference.unmarked, trim]
  have hdollars : parts.dollars.dropWhile (· == '$') = [] := by simpa using parts.dollars_eq
  rw [hkey, trimChars_chars]
  by_cases hbody : parts.body = []
  · simp [hbody, hdollars]
  · rw [if_neg hbody, if_neg hbody, dropWhile_dollars, if_neg (by simp [hbody]), ofName_gap]

end Parts

/-! ## Normal form -/

/-- What may stand around the name of a field: dollar signs and blanks. -/
def IsPadding (c : Char) : Prop := c = '$' ∨ isBlank c = true

instance : DecidablePred IsPadding := fun _ => inferInstanceAs (Decidable (_ ∨ _))

/-- The name of a field: it starts neither with a dollar sign nor with a blank, and does not end
with a blank. -/
structure IsFieldName (name : List Char) : Prop where
  nonempty : name ≠ []
  front : ∀ c, name.head? = some c → ¬ IsPadding c
  back : ∀ c, name.getLast? = some c → isBlank c = false

/-- A key in normal form: null or the reference to a field. -/
inductive IsNormal : Value → Prop where
  | null : IsNormal .null
  | reference (name : List Char) (h : IsFieldName name) :
      IsNormal (.text (String.ofList ('$' :: name)))

theorem isNormal_reference_iff {name : List Char} :
    IsNormal (.text (String.ofList ('$' :: name))) ↔ IsFieldName name := by
  refine ⟨fun h => ?_, .reference name⟩
  generalize hkey : Value.text (String.ofList ('$' :: name)) = key at h
  cases h with
  | null => cases hkey
  | reference other hother =>
      obtain ⟨-, rfl⟩ := List.cons.inj (String.ofList_injective (Value.text.inj hkey))
      exact hother

/-- The text is made of dollar signs and blanks. -/
def IsVoid (text : String) : Prop := ∀ c ∈ text.toList, IsPadding c

instance : DecidablePred IsVoid := fun text => List.decidableBAll IsPadding text.toList

/-- The key of a text is in normal form, and null only for dollar signs and blanks. -/
structure Normalizes (text : String) (key : Value) : Prop where
  normal : IsNormal key
  null_iff : key = .null ↔ IsVoid text

/-- After a gap, the text has a dollar sign that no name follows: it ends there, or another dollar
sign or a blank comes next. -/
def Interrupted (text : String) : Prop :=
  ∃ parts : Parts, parts.chars = text.toList ∧ ∃ rest, parts.body = '$' :: rest ∧
    ∀ c, rest.head? = some c → IsPadding c

namespace Parts

variable {parts : Parts} {name : List Char}

theorem isVoid_iff (parts : Parts) :
    IsVoid (String.ofList parts.chars) ↔ ∀ c ∈ parts.body, IsPadding c := by
  unfold IsVoid
  rw [String.toList_ofList]
  constructor
  · intro hvoid c hc
    exact hvoid c (by simp [chars, hc])
  · intro hbody c hc
    simp only [chars, List.mem_append] at hc
    obtain (((hlead | hdollars) | hgap) | hc) | htrail := hc
    · exact .inr (parts.lead_blank c hlead)
    · exact .inl (parts.dollars_eq c hdollars)
    · exact .inr (parts.gap_blank c hgap)
    · exact hbody c hc
    · exact .inr (parts.trail_blank c htrail)

/-- If the body is a name, marked or not, then the key refers to it. -/
theorem normalizes_of_reference (hname : IsFieldName name) (hbody : ∀ c ∈ name, c ∈ parts.body)
    (hreference : parts.reference = '$' :: name) :
    Normalizes (String.ofList parts.chars) (key (.text (String.ofList parts.chars))) := by
  obtain ⟨first, hfirst⟩ := Option.isSome_iff_exists.1 (List.isSome_head?.2 hname.nonempty)
  have hmem : first ∈ parts.body := hbody first (List.mem_of_head? hfirst)
  rw [key_chars, if_neg (List.ne_nil_of_mem hmem), hreference]
  refine ⟨.reference name hname, fun h => ?_, fun hvoid => ?_⟩
  · cases h
  · exact absurd ((isVoid_iff parts).1 hvoid first hmem) (hname.front first hfirst)

/-- A body that is not a dollar sign without a name after it gives a key in normal form. -/
theorem normalizes_key (h : ¬ Interrupted (String.ofList parts.chars)) :
    Normalizes (String.ofList parts.chars) (key (.text (String.ofList parts.chars))) := by
  cases hbody : parts.body with
  | nil =>
      have hvoid : IsVoid (String.ofList parts.chars) := (isVoid_iff parts).2 (by simp [hbody])
      rw [key_chars, if_pos hbody]
      exact ⟨.null, fun _ => hvoid, fun _ => rfl⟩
  | cons first rest =>
      by_cases hmarked : first = '$'
      · -- the body is a reference already, to the rest of it
        subst hmarked
        have hnext : ¬ ∀ c, rest.head? = some c → IsPadding c := fun hrest =>
          h ⟨parts, String.toList_ofList.symm, rest, hbody, hrest⟩
        push Not at hnext
        obtain ⟨next, hhead, hnext⟩ := hnext
        have hname : IsFieldName rest := {
          nonempty := List.ne_nil_of_mem (List.mem_of_head? hhead)
          front := fun c hc => (Option.some.inj (hhead.symm.trans hc)) ▸ hnext
          back := fun c hc => parts.body_back c (by
            rw [hbody, List.getLast?_cons, hc]
            rfl) }
        exact normalizes_of_reference hname (fun c hc => by simp [hbody, hc])
          (by simp [reference, hbody])
      · have hname : IsFieldName parts.body := {
          nonempty := by simp [hbody]
          front := fun c hc hpadding => by
            obtain rfl : first = c := by simpa [hbody] using hc
            have hblank := parts.body_front first hc
            exact hpadding.elim hmarked (by simp [hblank])
          back := parts.body_back }
        exact normalizes_of_reference hname (fun c hc => hc) (by simp [reference, hbody, hmarked])

end Parts

theorem not_normalizes_key {text : String} (h : Interrupted text) :
    ¬ Normalizes text (key (.text text)) := by
  obtain ⟨parts, hchars, rest, hbody, hrest⟩ := h
  intro hnormalizes
  have hnormal := hnormalizes.normal
  have hreference : parts.reference = '$' :: rest := by simp [Parts.reference, hbody]
  rw [← String.ofList_toList (s := text), ← hchars, Parts.key_chars, if_neg (by simp [hbody]),
    hreference, isNormal_reference_iff] at hnormal
  obtain ⟨first, hfirst⟩ := Option.isSome_iff_exists.1 (List.isSome_head?.2 hnormal.nonempty)
  exact hnormal.front first hfirst (hrest first hfirst)

/-- A text as the key of a group gives null for dollar signs and blanks alone, otherwise the
reference to a name, unless the text is interrupted. That is the key of every group that compiles
with it and in which no row takes the key. -/
theorem normalizes_key_iff (text : String) :
    (Normalizes text (key (.text text)) ↔ ¬ Interrupted text) ∧
      compile (.object [("_id", .text text)]) =
        .ok ⟨"$group", .object [("_id", key (.text text))]⟩ ∧
      ∀ settings rows stage, Value.field settings "_id" = .text text →
        Rows.HasRows settings "accumulators" rows → (∀ row ∈ rows, ¬ TakesKey row) →
        compile (.object settings) = .ok stage →
        ∃ others, stage = ⟨"$group", .object (("_id", key (.text text)) :: others)⟩ := by
  refine ⟨⟨fun hnormalizes h => not_normalizes_key h hnormalizes, fun h => ?_⟩, rfl, ?_⟩
  · obtain ⟨parts, hchars⟩ := Parts.exists_chars_eq text.toList
    obtain rfl : String.ofList parts.chars = text := by rw [hchars, String.ofList_toList]
    exact Parts.normalizes_key h
  · intro settings rows stage hid hrows hfree hstage
    obtain ⟨entries, hgather, rfl⟩ := exists_gather_of_compile (.object settings) hrows hstage
    obtain ⟨value, others, rfl, -, hkey, -⟩ := exists_params_of_gather hgather
    exact ⟨others, by rw [hkey hfree, hid]⟩

/-- The key `$ $city` has a name after its gap. -/
theorem normalizes_markedCity :
    ¬ Interrupted " $ $city" ∧
      ∃ others, compile (.object (settingsOf " $ $city" spending)) =
        .ok ⟨"$group", .object (("_id", .text "$city") :: others)⟩ := by
  obtain ⟨hnormalizes, -, hcompiles⟩ := normalizes_key_iff " $ $city"
  have hkey : key (.text " $ $city") = .text "$city" := by decide +kernel
  constructor
  · have hname : IsFieldName ['c', 'i', 't', 'y'] := {
      nonempty := List.cons_ne_nil _ _
      front := fun c hc => by
        cases hc
        decide
      back := fun c hc => by
        cases hc
        decide }
    refine hnormalizes.1 ⟨hkey ▸ .reference _ hname, ?_⟩
    rw [hkey]
    decide +kernel
  · obtain ⟨stage, hstage⟩ : ∃ stage, compile (.object (settingsOf " $ $city" spending)) =
      .ok stage := ⟨_, rfl⟩
    obtain ⟨others, rfl⟩ := hcompiles _ spending stage rfl (.listed _ rfl) (by decide +kernel) hstage
    exact ⟨others, hkey ▸ hstage⟩

/-- Two dollar signs with a blank between them give a key that is neither null nor a reference. -/
theorem not_normalizes_dollars :
    compile (.object [("_id", .text "$ $")]) = .ok ⟨"$group", .object [("_id", .text "$")]⟩ ∧
      IsVoid "$ $" ∧ ¬ Normalizes "$ $" (key (.text "$ $")) := by
  have hvoid : IsVoid "$ $" := by decide +kernel
  refine ⟨by decide +kernel, hvoid, fun h => ?_⟩
  exact absurd (h.null_iff.2 hvoid) (by decide +kernel)

end StageChain.Grouping
