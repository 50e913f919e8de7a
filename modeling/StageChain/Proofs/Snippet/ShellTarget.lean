import StageChain.Proofs.Snippet.JavaScriptNumbers
import StageChain.Proofs.Snippet.JavaScriptTexts

/-!
# The collection in the code for the shell

The code for the shell addresses a collection as a property of the database, `db.orders`, or by a
call with its name as a text, `db.getCollection("my orders")`. The first is right if the whole name
is an identifier. The test for that does not look at a line break at the end, and so a name that is
an identifier and a line break becomes a property too. JavaScript takes the line break for a blank
and addresses the collection without it.

For all other names the code addresses exactly the collection that is named:
`Snippet.shell_addresses`.
-/

namespace StageChain

namespace JavaScript

/-! ## Expressions for a collection -/

/-- The ASCII characters that start an identifier. -/
def isIdentifierStart (c : Char) : Bool :=
  ('A' ≤ c && c ≤ 'Z') || ('a' ≤ c && c ≤ 'z') || c == '_' || c == '$'

/-- The ASCII characters that stand in an identifier. -/
def isIdentifierPart (c : Char) : Bool := isIdentifierStart c || ('0' ≤ c && c ≤ '9')

/-- Whether characters are an identifier in ASCII. -/
def isIdentifier : List Char → Bool
  | [] => false
  | c :: rest => isIdentifierStart c && rest.all isIdentifierPart

/-- An expression is one of the two that stand for the collection with a name. -/
inductive Denotes (target collection : String) : Prop where
  | property : target = "db." ++ collection → isIdentifier collection.toList = true →
      Denotes target collection
  | call {literal : String} : target = "db.getCollection(" ++ literal ++ ")" →
      readString literal.toList = some (units collection, []) → Denotes target collection

/-- Reads an expression for a collection off the front, as the code units of the name. -/
def readTarget (chars : List Char) : Option (List Nat × List Char) := do
  let rest ← "db.".toList.isPrefixOf? chars
  let name := rest.takeWhile isIdentifierPart
  match rest.dropWhile isIdentifierPart with
  | '(' :: rest =>
    match readString rest with
    | some (units, ')' :: rest) =>
      if name = "getCollection".toList then some (units, rest) else none
    | _ => none
  | rest => if isIdentifier name then some (name.flatMap (utf16 ·.toNat), rest) else none

/-- The collection that a statement runs the pipeline on, as the code units of its name. -/
def aggregated? (code : String) : Option (List Nat) := do
  let (units, rest) ← readTarget code.toList
  let _ ← ".aggregate(pipeline);".toList.isPrefixOf? (Json.skipSpace rest)
  some units

variable {chars name rest : List Char} {stop : Char}

theorem isIdentifierPart_of_mem (h : isIdentifier name = true) :
    ∀ c ∈ name, isIdentifierPart c = true := by
  cases name with
  | nil => cases h
  | cons first rest =>
      simp only [isIdentifier, Bool.and_eq_true, List.all_eq_true] at h
      intro c hc
      rcases List.mem_cons.1 hc with rfl | hc
      · simp [isIdentifierPart, h.1]
      · exact h.2 c hc

/-- No identifier ends with a line break. -/
theorem isIdentifier_append_break (name : List Char) : isIdentifier (name ++ ['\n']) = false := by
  rw [Bool.eq_false_iff]
  intro h
  exact absurd (isIdentifierPart_of_mem h '\n' (by simp)) (by decide)

/-- A name is taken up to the first character that stands in no identifier. -/
theorem takeWhile_parts (hparts : ∀ c ∈ name, isIdentifierPart c = true)
    (hstop : isIdentifierPart stop = false) (rest : List Char) :
    (name ++ stop :: rest).takeWhile isIdentifierPart = name ∧
      (name ++ stop :: rest).dropWhile isIdentifierPart = stop :: rest := by
  simp [List.takeWhile_append_of_pos hparts, List.dropWhile_append_of_pos hparts, hstop]

/-- A property is read with its name. -/
theorem readTarget_property (h : isIdentifier name = true)
    (hstop : isIdentifierPart stop = false) (hcall : stop ≠ '(') :
    readTarget ("db.".toList ++ (name ++ stop :: rest)) =
      some (name.flatMap (utf16 ·.toNat), stop :: rest) := by
  obtain ⟨hname, hrest⟩ := takeWhile_parts (isIdentifierPart_of_mem h) hstop rest
  have hprefix : "db.".toList.isPrefixOf? ("db.".toList ++ (name ++ stop :: rest)) =
      some (name ++ stop :: rest) := List.isPrefixOf?_eq_some_iff_append_eq.2 rfl
  simp only [readTarget, hprefix, Option.bind_eq_bind, Option.bind_some, hname, hrest]
  split
  · rename_i heq
    exact absurd (List.cons.inj heq).1 hcall
  · rw [if_pos h]

/-- A call is read with the text that its literal denotes. -/
theorem readTarget_call {found : List Nat} (h : readString chars = some (found, ')' :: rest)) :
    readTarget ("db.getCollection(".toList ++ chars) = some (found, rest) := by
  have hparts : ∀ c ∈ "getCollection".toList, isIdentifierPart c = true :=
    isIdentifierPart_of_mem rfl
  obtain ⟨hname, hrest⟩ := takeWhile_parts hparts (rfl : isIdentifierPart '(' = false) chars
  have hprefix : "db.".toList.isPrefixOf? ("db.getCollection(".toList ++ chars) =
      some ("getCollection".toList ++ '(' :: chars) :=
    List.isPrefixOf?_eq_some_iff_append_eq.2 rfl
  simp only [readTarget, hprefix, Option.bind_eq_bind, Option.bind_some, hname, hrest, h, if_true]

/-- Blanks between the expression and the point are not looked at. -/
theorem aggregated?_of_readTarget {target blanks : String} {found : List Nat}
    (hblanks : ∀ c ∈ blanks.toList, Json.isSpace c = true)
    (h : readTarget (target ++ blanks ++ ".aggregate(pipeline);").toList =
      some (found, (blanks ++ ".aggregate(pipeline);").toList)) :
    aggregated? (target ++ blanks ++ ".aggregate(pipeline);") = some found := by
  have hskip : Json.skipSpace (blanks ++ ".aggregate(pipeline);").toList =
      ".aggregate(pipeline);".toList := by
    rw [Json.skipSpace, String.toList_append, List.dropWhile_append_of_pos hblanks]
    rfl
  simp only [aggregated?, h, Option.bind_eq_bind, Option.bind_some, hskip]
  rfl

end JavaScript

namespace Snippet

open JavaScript

/-! ## The code for the shell -/

/-- A name is an identifier and a line break. -/
def IsBroken (collection : String) : Prop :=
  ∃ name : String, isIdentifier name.toList = true ∧ collection = name ++ "\n"

/-- What the code for the shell says of a collection: the expression that stands for it, and the
name of the collection that is addressed. -/
structure Addresses (pipeline : Pipeline) (collection target addressed : String) : Prop where
  code : render .shell pipeline collection =
    (declaration pipeline).map (· ++ "\n\n" ++ target ++ ".aggregate(pipeline);")
  aggregated : aggregated? (target ++ ".aggregate(pipeline);") = some (units addressed)
  denotes_iff : Denotes target collection ↔ addressed = collection
  same_iff : addressed = collection ↔ ¬ IsBroken collection
  cut : IsBroken collection → collection = addressed ++ "\n"

variable {collection name : String}

theorem isNameStart_eq (c : Char) : isNameStart c = isIdentifierStart c := by
  have hupper : c.isUpper = ('A' ≤ c && c ≤ 'Z') := Bool.decide_and _ _
  have halpha : c.isAlpha = (c.isUpper || ('a' ≤ c && c ≤ 'z')) := rfl
  rw [isNameStart, isIdentifierStart, halpha, hupper]

theorem isNamePart_eq : isNamePart = isIdentifierPart := by
  funext c
  simp only [isNamePart, isIdentifierPart, isNameStart_eq, Text.isAsciiDigit]
  rfl

theorem not_isBroken_of_isIdentifier (h : isIdentifier collection.toList = true) :
    ¬ IsBroken collection := by
  rintro ⟨name, -, rfl⟩
  rw [String.toList_append] at h
  exact absurd h (Bool.eq_false_iff.1 (isIdentifier_append_break name.toList))

/-- A name is plain if it is an identifier, or one with a line break after it. -/
theorem isPlainName_iff :
    isPlainName collection.toList = true ↔
      isIdentifier collection.toList = true ∨ IsBroken collection := by
  have hbroken : IsBroken collection ↔
      ∃ name, isIdentifier name = true ∧ collection.toList = name ++ ['\n'] := by
    constructor
    · rintro ⟨name, hname, rfl⟩
      exact ⟨name.toList, hname, String.toList_append⟩
    · rintro ⟨name, hname, hchars⟩
      refine ⟨String.ofList name, by rwa [String.toList_ofList], String.toList_injective ?_⟩
      rw [hchars, String.toList_append, String.toList_ofList]
      rfl
  rw [hbroken]
  cases collection.toList with
  | nil => simp [isPlainName, isIdentifier]
  | cons first rest =>
      simp only [isPlainName, isNamePart_eq, isNameStart_eq, Bool.and_eq_true, Bool.or_eq_true,
        beq_iff_eq, List.dropWhile_eq_nil_iff]
      -- What is left after the parts of an identifier is nothing, or the line break.
      constructor
      · rintro ⟨hfirst, hparts | hbreak⟩
        · exact .inl (by simpa [isIdentifier, hfirst] using hparts)
        · refine .inr ⟨first :: rest.takeWhile isIdentifierPart, ?_, ?_⟩
          · simp [isIdentifier, hfirst]
          · rw [List.cons_append, ← hbreak, List.takeWhile_append_dropWhile]
      · rintro (hwhole | ⟨name, hname, heq⟩)
        · simp only [isIdentifier, Bool.and_eq_true, List.all_eq_true] at hwhole
          exact ⟨hwhole.1, .inl hwhole.2⟩
        · cases name with
          | nil => cases hname
          | cons _ name =>
              cases heq
              have hparts := isIdentifierPart_of_mem hname
              simp only [isIdentifier, Bool.and_eq_true] at hname
              have hleft := takeWhile_parts (fun c hc => hparts c (List.mem_cons_of_mem _ hc))
                (rfl : isIdentifierPart '\n' = false) []
              exact ⟨hname.1, .inr hleft.2⟩

theorem render_shell_eq (hnamed : collection ≠ "") (pipeline : Pipeline) :
    render .shell pipeline collection = (declaration pipeline).map
      (· ++ "\n\n" ++ shellTarget collection ++ ".aggregate(pipeline);") := by
  have hname : collectionName collection = collection := by
    rw [collectionName, if_neg (by simpa using hnamed)]
  unfold render
  rw [hname]
  exact shell_eq pipeline collection

/-- An identifier is addressed as a property. -/
theorem addresses_identifier (h : isIdentifier collection.toList = true) (pipeline : Pipeline) :
    Addresses pipeline collection ("db." ++ collection) collection := by
  have hnamed : collection ≠ "" := by
    rintro rfl
    cases h
  have htarget : shellTarget collection = "db." ++ collection :=
    if_pos (isPlainName_iff.2 (.inl h))
  have hread : readTarget ("db." ++ collection ++ "" ++ ".aggregate(pipeline);").toList =
      some (units collection, ("" ++ ".aggregate(pipeline);").toList) := by
    simp only [String.toList_append, List.append_assoc]
    exact readTarget_property h rfl (by decide)
  have haggregated := aggregated?_of_readTarget (by simp) hread
  rw [String.append_empty] at haggregated
  have hwhole := not_isBroken_of_isIdentifier h
  exact {
    code := by rw [render_shell_eq hnamed, htarget]
    aggregated := haggregated
    denotes_iff := iff_of_true (.property rfl h) rfl
    same_iff := iff_of_true rfl hwhole
    cut := fun hbroken => absurd hbroken hwhole }

/-- What is no plain name is addressed by a call. -/
theorem addresses_literal (hnamed : collection ≠ "") (h : isPlainName collection.toList = false)
    (pipeline : Pipeline) :
    Addresses pipeline collection ("db.getCollection(" ++ textLiteral collection ++ ")")
      collection := by
  have htarget : shellTarget collection = "db.getCollection(" ++ textLiteral collection ++ ")" :=
    if_neg (Bool.eq_false_iff.1 h)
  have hliteral : (textLiteral collection).toList = Json.writeText true collection :=
    String.toList_ofList
  have hwhole : ¬ IsBroken collection := fun hbroken =>
    Bool.eq_false_iff.1 h (isPlainName_iff.2 (.inr hbroken))
  have hread : readTarget ("db.getCollection(" ++ textLiteral collection ++ ")" ++ "" ++
      ".aggregate(pipeline);").toList =
      some (units collection, ("" ++ ".aggregate(pipeline);").toList) := by
    simp only [String.toList_append, List.append_assoc, hliteral]
    exact readTarget_call (readString_writeText true collection _)
  have haggregated := aggregated?_of_readTarget (by simp) hread
  rw [String.append_empty] at haggregated
  have hdenotes := readString_writeText true collection []
  rw [List.append_nil, ← hliteral] at hdenotes
  exact {
    code := by rw [render_shell_eq hnamed, htarget]
    aggregated := haggregated
    denotes_iff := iff_of_true (.call rfl hdenotes) rfl
    same_iff := iff_of_true rfl hwhole
    cut := fun hbroken => absurd hbroken hwhole }

/-- A line break after an identifier is lost. -/
theorem addresses_break (h : isIdentifier name.toList = true) (pipeline : Pipeline) :
    Addresses pipeline (name ++ "\n") ("db." ++ name ++ "\n") name := by
  have hbroken : IsBroken (name ++ "\n") := ⟨name, h, rfl⟩
  have hnamed : name ++ "\n" ≠ "" := by
    intro hempty
    simpa using congrArg String.toList hempty
  have htarget : shellTarget (name ++ "\n") = "db." ++ name ++ "\n" := by
    rw [String.append_assoc]
    exact if_pos (isPlainName_iff.2 (.inr hbroken))
  -- The name is read up to the line break, and the line break is a blank before the point.
  have hread : readTarget ("db." ++ name ++ "\n" ++ ".aggregate(pipeline);").toList =
      some (units name, ("\n" ++ ".aggregate(pipeline);").toList) := by
    simp only [String.toList_append, List.append_assoc]
    exact readTarget_property h rfl (by decide)
  have hblanks : ∀ c ∈ "\n".toList, Json.isSpace c = true := by
    intro c hc
    rw [List.mem_singleton.1 hc]
    rfl
  have hchanged : name ≠ name ++ "\n" := by
    intro hsame
    simpa using congrArg String.length hsame
  have hdenotes : ¬ Denotes ("db." ++ name ++ "\n") (name ++ "\n") := by
    rintro (⟨-, hwhole⟩ | ⟨hcall, -⟩)
    · exact not_isBroken_of_isIdentifier hwhole hbroken
    · have hchars := congrArg String.toList hcall
      simp only [String.toList_append] at hchars
      exact absurd (List.append_inj' hchars rfl).2 (by decide)
  exact {
    code := by rw [render_shell_eq hnamed, htarget]
    aggregated := aggregated?_of_readTarget hblanks hread
    denotes_iff := iff_of_false hdenotes hchanged
    same_iff := iff_of_false hchanged (not_not_intro hbroken)
    cut := fun _ => rfl }

/-- The code for the shell addresses the collection that is named, except for an identifier with a
line break after it, which it addresses without the break. -/
theorem shell_addresses (hnamed : collection ≠ "") (pipeline : Pipeline) :
    ∃ target addressed, Addresses pipeline collection target addressed := by
  cases hplain : isPlainName collection.toList with
  | false => exact ⟨_, _, addresses_literal hnamed hplain pipeline⟩
  | true =>
      obtain hwhole | ⟨name, hname, rfl⟩ := isPlainName_iff.1 hplain
      · exact ⟨_, _, addresses_identifier hwhole pipeline⟩
      · exact ⟨_, _, addresses_break hname pipeline⟩

/-- The addressed collection is the one that is named. -/
theorem shell_addresses_spaced :
    "my orders" ≠ "" ∧ ∃ target, Addresses ⟨[], []⟩ "my orders" target "my orders" := by
  have hnamed : "my orders" ≠ "" := by decide
  obtain ⟨target, addressed, h⟩ := shell_addresses hnamed ⟨[], []⟩
  have hwhole : ¬ IsBroken "my orders" := by
    rintro ⟨name, -, hbreak⟩
    have hlast := congrArg (fun s => s.toList.getLast?) hbreak
    simp at hlast
  obtain rfl := h.same_iff.2 hwhole
  exact ⟨hnamed, target, h⟩

/-- The code for a name with a line break addresses another collection. -/
theorem shell_misses_break :
    render .shell ⟨[], []⟩ "users\n" =
        .ok "const pipeline = [];\n\ndb.users\n.aggregate(pipeline);" ∧
      shellTarget "users\n" = "db.users\n" ∧
        ¬ Denotes "db.users\n" "users\n" ∧
          aggregated? "db.users\n.aggregate(pipeline);" = some (units "users") := by
  have hname : isIdentifier "users".toList = true := by decide
  have hchanged : "users" ≠ "users\n" := by decide
  have h : Addresses ⟨[], []⟩ "users\n" "db.users\n" "users" := addresses_break hname ⟨[], []⟩
  exact ⟨by decide +kernel, by decide +kernel, fun hdenotes => hchanged (h.denotes_iff.1 hdenotes),
    h.aggregated⟩

end Snippet

end StageChain
