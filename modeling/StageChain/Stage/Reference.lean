import StageChain.Text.Blank

/-!
# Field references

A text with a dollar sign at its start refers to a field. `Reference.ofName` is the reference to a
named field; it is marked, and it is its own reference.
-/

namespace StageChain.Reference

/-- Whether a text starts with the dollar sign that marks a reference. -/
def isMarked (text : String) : Bool := text.toList.head? == some '$'

/-- A text without the dollar signs at its start. -/
def unmarked (text : String) : String := String.ofList (text.toList.dropWhile (· == '$'))

/-- The reference to a field: its trimmed name after a dollar sign, which may be there already. -/
def ofName (name : String) : String :=
  let trimmed := Text.trim name
  if isMarked trimmed then trimmed else "$" ++ trimmed

theorem isMarked_ofName (name : String) : isMarked (ofName name) = true := by
  by_cases h : isMarked (Text.trim name) = true
  · simp [ofName, h]
  · simp [ofName, h]
    simp [isMarked]

/-- A reference refers to itself. -/
theorem ofName_ofName (name : String) : ofName (ofName name) = ofName name := by
  by_cases h : isMarked (Text.trim name) = true
  · have href : ofName name = Text.trim name := by simp [ofName, h]
    rw [href, ofName, Text.trim_trim]
    simp [h]
  · have hlist : ofName name = String.ofList ('$' :: Text.trimChars name.toList) := by
      rw [ofName, if_neg h]
      exact String.toList_inj.1 (by simp [Text.trim])
    have htrim : Text.trim (ofName name) = ofName name := by
      rw [hlist, Text.trim, String.toList_ofList, Text.trimChars_cons_trimChars (by decide)]
    rw [ofName, htrim]
    simp [isMarked_ofName]

end StageChain.Reference
