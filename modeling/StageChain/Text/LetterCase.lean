import StageChain.Text.CodePointRanges
import StageChain.Text.LetterCaseTable

/-!
# Letter case

`lower` and `upper` are the full case mappings: a character may become several, and a capital
sigma becomes the final small sigma at the end of a word. `endsWord` is that condition.
-/

namespace StageChain.Text

/-- The character with the given code point moved by a shift. -/
def shiftChar (c : Char) (shift : Int) : Char :=
  Char.ofNat ((c.toNat : Int) + shift).toNat

/-- The mapping of one character by a table of runs and a table of longer expansions. -/
def mapCase (runs : List CaseRun) (expansions : List (Nat × List Nat)) (c : Char) : List Char :=
  match expansions.lookup c.toNat with
  | some codePoints => codePoints.map Char.ofNat
  | none =>
    match runs.find? (·.covers c.toNat) with
    | some run => [shiftChar c run.shift]
    | none => [c]

/-- The lower-case form of a character that stands alone. -/
def lowerChar (c : Char) : List Char := mapCase lowerRuns lowerExpansions c

/-- The upper-case form of a character. -/
def upperChar (c : Char) : List Char := mapCase upperRuns upperExpansions c

/-- Whether the nearest character that counts is a letter with a case. -/
def meetsCased (chars : List Char) : Bool :=
  match chars.find? fun c => !inRanges caseIgnorableRanges c.toNat with
  | some c => inRanges casedRanges c.toNat
  | none => false

/-- Whether a position between the characters `before`, nearest first, and `after` ends a word. -/
def endsWord (before after : List Char) : Bool :=
  meetsCased before && !meetsCased after

/-- Lowers the characters, `before` being those already passed, nearest first. -/
def lowerChars (before : List Char) : List Char → List Char
  | [] => []
  | c :: rest =>
    (if c = 'Σ' then [if endsWord before rest then 'ς' else 'σ'] else lowerChar c) ++
      lowerChars (c :: before) rest

/-- The lower-case form of a text. -/
def lower (text : String) : String := String.ofList (lowerChars [] text.toList)

/-- The upper-case form of a text. -/
def upper (text : String) : String := String.ofList (text.toList.flatMap upperChar)

end StageChain.Text
