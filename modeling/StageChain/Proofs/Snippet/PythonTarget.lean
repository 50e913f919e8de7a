import StageChain.Proofs.Snippet.JavaScriptTexts
import StageChain.Proofs.Snippet.ReadBack

/-!
# The collection in Python code

The Python code takes the collection from the database by its name, `db["orders"]`. The name is
written in ASCII, and a character beyond the basic plane as two escapes for the halves of its
surrogate pair. JSON and JavaScript join the halves. Python keeps them as two code points, and no
text has such code points.

So the code takes exactly the collection that is named if all characters of the name are in the
basic plane, and else none that has a name: `Snippet.python_subscripts`.
-/

namespace StageChain

namespace PythonLiteral

/-- The code points of a text. -/
def points (text : String) : List Nat := text.toList.map Char.toNat

/-- The code points of the name by which a statement takes the collection that it runs the pipeline
on. -/
def subscripted? (code : String) : Option (List Nat) := do
  let rest ← "results = list(db[".toList.isPrefixOf? code.toList
  let (name, rest) ← readLiteral rest
  let rest ← "].aggregate(pipeline))".toList.isPrefixOf? rest
  if rest.isEmpty then some name else none

/-- All characters of a text are in the basic plane. -/
def IsBasic (text : String) : Prop := ∀ c ∈ text.toList, c.toNat < 0x10000

variable {text : String} {found : List Nat} {chars : List Char}

/-- A statement is read with the name that its literal denotes. -/
theorem subscripted?_of_readLiteral {literal : String}
    (h : readLiteral (literal.toList ++ "].aggregate(pipeline))".toList) =
      some (found, "].aggregate(pipeline))".toList)) :
    subscripted? ("results = list(db[" ++ literal ++ "].aggregate(pipeline))") = some found := by
  have hopen : "results = list(db[".toList.isPrefixOf?
      ("results = list(db[" ++ literal ++ "].aggregate(pipeline))").toList =
      some (literal.toList ++ "].aggregate(pipeline))".toList) := by
    rw [String.toList_append, String.toList_append, List.append_assoc]
    exact List.isPrefixOf?_eq_some_iff_append_eq.2 rfl
  have hclose : "].aggregate(pipeline))".toList.isPrefixOf? "].aggregate(pipeline))".toList =
      some [] := List.isPrefixOf?_eq_some_iff_append_eq.2 (List.append_nil _)
  simp only [subscripted?, Option.bind_eq_bind, Option.bind_eq_some_iff]
  exact ⟨_, hopen, _, h, _, hclose, rfl⟩

/-- In the basic plane every character is its only code unit. -/
theorem units_of_isBasic (h : IsBasic text) : JavaScript.units text = points text := by
  have hunit : ∀ c ∈ text.toList, JavaScript.utf16 c.toNat = [c.toNat] := fun c hc =>
    if_pos (h c hc)
  rw [JavaScript.units, points, List.map_eq_flatMap]
  exact List.flatMap_congr hunit

/-- A character beyond the basic plane has a code unit that is no code point of a text. -/
theorem exists_half_mem_units (h : ¬ IsBasic text) :
    ∃ unit ∈ JavaScript.units text, ¬ unit.isValidChar := by
  unfold IsBasic at h
  push Not at h
  obtain ⟨c, hc, hlarge⟩ := h
  have hvalid := Json.toNat_lt_or_gt c
  refine ⟨0xD800 + (c.toNat - 0x10000) / 0x400, List.mem_flatMap.2 ⟨c, hc, ?_⟩, ?_⟩
  · rw [JavaScript.utf16, if_neg (Nat.not_lt.2 hlarge)]
    exact List.mem_cons_self
  · unfold Nat.isValidChar
    omega

/-- The code points of a text are its code units exactly if all its characters are in the basic
plane. -/
theorem units_eq_points_iff : JavaScript.units text = points text ↔ IsBasic text := by
  refine ⟨fun hsame => ?_, units_of_isBasic⟩
  by_contra hlarge
  obtain ⟨unit, hunit, hhalf⟩ := exists_half_mem_units hlarge
  rw [hsame] at hunit
  obtain ⟨c, -, rfl⟩ := List.mem_map.1 hunit
  exact hhalf c.valid

/-- A literal in ASCII denotes the code units of its text, whatever follows other than a quote. -/
theorem readLiteral_writeText_ascii (text : String) (hrest : chars.head? ≠ some '"') :
    readLiteral (Json.writeText true text ++ chars) = some (JavaScript.units text, chars) := by
  have hunits : Json.unitsOf true = fun c => JavaScript.utf16 c.toNat :=
    funext JavaScript.unitsOf_eq_utf16
  rw [readLiteral_writeText true text hrest, hunits]
  rfl

theorem readLiteral_writeText_alone (text : String) :
    readLiteral (Json.writeText true text) = some (JavaScript.units text, []) := by
  have hread : readLiteral (Json.writeText true text ++ []) = some (JavaScript.units text, []) :=
    readLiteral_writeText_ascii text (by simp)
  rwa [List.append_nil] at hread

theorem readText_of_isBasic (h : IsBasic text) :
    readText (Json.writeText true text) = some (text, []) := by
  have hread := readLiteral_writeText_alone text
  rw [units_of_isBasic h] at hread
  simp only [readText, hread, Option.bind_eq_bind, Option.bind_some, points, textOf?_map_toNat,
    String.ofList_toList]

theorem readText_of_not_isBasic (h : ¬ IsBasic text) :
    readText (Json.writeText true text) = none := by
  have hread := readLiteral_writeText_alone text
  obtain ⟨unit, hunit, hhalf⟩ := exists_half_mem_units h
  have hnone : textOf? (JavaScript.units text) = none :=
    if_neg fun hvalid => hhalf (hvalid unit hunit)
  simp only [readText, hread, Option.bind_eq_bind, Option.bind_some, hnone, Option.bind_none]

end PythonLiteral

namespace Snippet

open PythonLiteral

variable {collection : String}

/-- What the Python code says of a collection: the literal by which it is taken, and the code points
that the literal denotes. -/
structure Subscripts (pipeline : Pipeline) (collection literal : String) (denoted : List Nat) :
    Prop where
  code : render .python pipeline collection =
    (writeWithin (.list pipeline.documents)).map fun stages =>
      "pipeline = " ++ stages ++ "\n\n" ++
        ("results = list(db[" ++ literal ++ "].aggregate(pipeline))")
  subscripted : subscripted? ("results = list(db[" ++ literal ++ "].aggregate(pipeline))") =
    some denoted
  read : readLiteral literal.toList = some (denoted, [])
  exact_iff : denoted = points collection ↔ IsBasic collection
  named : IsBasic collection → readText literal.toList = some (collection, [])
  /-- Each character beyond the basic plane is two code points, and so the literal is no text. -/
  halved : denoted = JavaScript.units collection
  nameless : ¬ IsBasic collection → readText literal.toList = none

theorem render_python_eq (hnamed : collection ≠ "") (pipeline : Pipeline) :
    render .python pipeline collection =
      (writeWithin (.list pipeline.documents)).map fun stages =>
        "pipeline = " ++ stages ++ "\n\n" ++
          ("results = list(db[" ++ textLiteral collection ++ "].aggregate(pipeline))") := by
  have hopen : "\n\nresults = list(db[" = "\n\n" ++ "results = list(db[" := by decide +kernel
  have hname : collectionName collection = collection := by
    rw [collectionName, if_neg (by simpa using hnamed)]
  unfold render python
  rw [hname, hopen]
  cases writeWithin (.list pipeline.documents) with
  | error fault => rfl
  | ok stages => simp only [Except.map, bind, Except.bind, String.append_assoc]

/-- The Python code takes the collection that is named exactly if all characters of the name are in
the basic plane. -/
theorem python_subscripts (hnamed : collection ≠ "") (pipeline : Pipeline) :
    ∃ literal denoted, Subscripts pipeline collection literal denoted := by
  have hliteral : (textLiteral collection).toList = Json.writeText true collection :=
    String.toList_ofList
  refine ⟨textLiteral collection, JavaScript.units collection, ?_⟩
  constructor
  case code => exact render_python_eq hnamed pipeline
  case subscripted =>
    refine subscripted?_of_readLiteral ?_
    rw [hliteral]
    exact readLiteral_writeText_ascii collection (by decide)
  case read => rw [hliteral, readLiteral_writeText_alone]
  case exact_iff => exact units_eq_points_iff
  case named =>
    intro hbasic
    rw [hliteral, readText_of_isBasic hbasic]
  case halved => rfl
  case nameless =>
    intro hlarge
    rw [hliteral, readText_of_not_isBasic hlarge]

/-- A name with a quote, a line break and characters beyond ASCII is taken exactly. -/
theorem python_subscripts_accented : "caf\u00e9 \"\u65e5\"\n" ≠ "" ∧
    ∃ literal, Subscripts ⟨[], []⟩ "caf\u00e9 \"\u65e5\"\n" literal
      (points "caf\u00e9 \"\u65e5\"\n") := by
  have hnamed : "caf\u00e9 \"\u65e5\"\n" ≠ "" := by decide
  have hall : ("caf\u00e9 \"\u65e5\"\n".toList.all fun c => decide (c.toNat < 0x10000)) = true := by
    decide +kernel
  have hbasic : IsBasic "caf\u00e9 \"\u65e5\"\n" := fun c hc =>
    of_decide_eq_true (List.all_eq_true.1 hall c hc)
  obtain ⟨literal, denoted, h⟩ := python_subscripts hnamed ⟨[], []⟩
  obtain rfl := h.exact_iff.2 hbasic
  exact ⟨hnamed, literal, h⟩

/-- The code for a name beyond the basic plane takes two halves for the one character. -/
theorem python_misses_plane :
    render .python ⟨[], []⟩ "😀" =
        .ok "pipeline = []\n\nresults = list(db[\"\\ud83d\\ude00\"].aggregate(pipeline))" ∧
      subscripted? "results = list(db[\"\\ud83d\\ude00\"].aggregate(pipeline))" =
          some [0xD83D, 0xDE00] ∧
        points "😀" = [0x1F600] ∧ readText "\"\\ud83d\\ude00\"".toList = none :=
  ⟨by decide +kernel, by decide +kernel, by decide +kernel, by decide +kernel⟩

end Snippet

end StageChain
