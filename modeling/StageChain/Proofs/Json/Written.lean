import Mathlib.Tactic.Push
import StageChain.Json.Writer
import StageChain.Proofs.Text.Digits

/-!
# Which values are written

A value is refused for its leaves. Where every double is finite or has a word, the only fault is an
integer with too many digits: the value is written if it has none, `WriteFault.find?_eq_none`, and
else that fault is given, `WriteFault.find?_eq_overlong`.
-/

namespace StageChain

namespace Value

variable {value item : Value} {items : List Value} {entries : List (String × Value)}

/-- No integer in the value has too many digits to be written. -/
def IsWritable (value : Value) : Prop := ∀ n, .int n ∈ value.leaves → Text.exceedsDigits n = false

/-- Every double in the value is finite. -/
def IsFinite (value : Value) : Prop := ∀ x, .float x ∈ value.leaves → x.isFinite = true

theorem isFinite_float {x : Double} : (float x).IsFinite ↔ x.isFinite = true := by
  simp [IsFinite, leaves]

theorem isFinite_cons : (list (item :: items)).IsFinite ↔ item.IsFinite ∧ (list items).IsFinite := by
  simp only [IsFinite, leaves, itemLeaves, List.mem_append, or_imp, forall_and]

theorem isFinite_entry (key : String) :
    (object ((key, value) :: entries)).IsFinite ↔ value.IsFinite ∧ (object entries).IsFinite := by
  simp only [IsFinite, leaves, entryLeaves, List.mem_append, or_imp, forall_and]

end Value

namespace WriteFault

variable {value : Value} {strict : Bool}

theorem find?_eq_none (hwritable : value.IsWritable)
    (hfinite : strict = true → value.IsFinite) : find? strict value = none := by
  rw [find?, List.findSome?_eq_none_iff]
  intro leaf hleaf
  cases leaf with
  | int n => simp [ofLeaf?, hwritable n hleaf]
  | float x =>
      cases strict with
      | false => rfl
      | true => simp [ofLeaf?, hfinite rfl x hleaf]
  | _ => rfl

theorem find?_eq_overlong (hwritable : ¬ value.IsWritable)
    (hfinite : strict = true → value.IsFinite) : find? strict value = some overlong := by
  unfold Value.IsWritable at hwritable
  push Not at hwritable
  obtain ⟨n, hn, hoverlong⟩ := hwritable
  cases hfound : find? strict value with
  | none =>
      have hnone := List.findSome?_eq_none_iff.1 hfound (.int n) hn
      simp [ofLeaf?, hoverlong] at hnone
  | some fault =>
      obtain ⟨leaf, hleaf, hfault⟩ := List.exists_of_findSome?_eq_some hfound
      cases leaf with
      | int m =>
          simp only [ofLeaf?, Option.ite_none_right_eq_some, Option.some.injEq] at hfault
          rw [← hfault.2]
      | float x =>
          -- A finite double is refused by no writer, and a lenient one refuses no double.
          cases strict with
          | false => cases hfault
          | true => simp [ofLeaf?, hfinite rfl x hleaf] at hfault
      | _ => cases hfault

end WriteFault

namespace Json

variable {value : Value} {strict : Bool}

/-- What is written is the whole text. -/
theorem writeWithin_of_isWritable (style : Style) (hwritable : value.IsWritable)
    (hfinite : strict = true → value.IsFinite) :
    writeWithin strict style value = .ok (write style value) := by
  rw [writeWithin, WriteFault.find?_eq_none hwritable hfinite]

theorem writeWithin_of_not_isWritable (style : Style) (hwritable : ¬ value.IsWritable)
    (hfinite : strict = true → value.IsFinite) :
    writeWithin strict style value = .error .overlong := by
  rw [writeWithin, WriteFault.find?_eq_overlong hwritable hfinite]

end Json

end StageChain
