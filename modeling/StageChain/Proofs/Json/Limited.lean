import StageChain.Proofs.Json.RoundTrip
import StageChain.Proofs.Stage.WellFormed

/-!
# What is read can be written

A dialect that refuses whole numbers with too many digits gives only values whose integers can be
written: `Json.isWritable_of_read`. Files are read in such a dialect.
-/

namespace StageChain

namespace Value

variable {value : Value} {items : List Value} {entries : Entries Value}

theorem isWritable_list : (list items).IsWritable ↔ ∀ item ∈ items, item.IsWritable := by
  induction items with
  | nil => simp [IsWritable, leaves, itemLeaves]
  | cons item items ih =>
      rw [List.forall_mem_cons, ← ih]
      simp only [IsWritable, leaves, itemLeaves, List.mem_append, or_imp, forall_and]

theorem isWritable_object : (object entries).IsWritable ↔ ∀ entry ∈ entries, entry.2.IsWritable := by
  induction entries with
  | nil => simp [IsWritable, leaves, entryLeaves]
  | cons entry entries ih =>
      rw [List.forall_mem_cons, ← ih]
      simp only [IsWritable, leaves, entryLeaves, List.mem_append, or_imp, forall_and]

theorem isWritable_float (x : Double) : (float x).IsWritable := by
  intro n hn
  cases List.mem_singleton.1 hn

end Value

namespace Json

variable {dialect : Dialect} {chars whole rest : List Char}

/-- The whole part of a number is made of digits. -/
theorem isAsciiDigit_of_readWhole (h : readWhole chars = some (whole, rest)) :
    ∀ c ∈ whole, Text.isAsciiDigit c = true := by
  unfold readWhole at h
  split at h
  · cases h
    exact List.forall_mem_singleton.2 rfl
  · split at h
    · cases h
    · cases h
      exact fun c hc => List.mem_takeWhile_imp hc

theorem ensures_readUnsigned (hlimited : dialect.limited = true) (negative : Bool)
    (chars : List Char) :
    Ensures (readUnsigned dialect negative chars) fun part => part.1.IsWritable := by
  cases hwhole : readWhole chars with
  | none =>
      rw [readUnsigned, hwhole]
      exact .error _
  | some found =>
      obtain ⟨whole, rest⟩ := found
      rw [readUnsigned_eq hwhole]
      simp only
      split
      · exact .ok (Value.isWritable_float _)
      · rw [wholeNumber, if_pos hlimited]
        have hinteger : Ensures (Text.readDigits negative whole) fun n =>
            Text.exceedsDigits n = false := fun n =>
          Text.exceedsDigits_of_readDigits (isAsciiDigit_of_readWhole hwhole)
        exact hinteger.mapError.bind fun n hn => .ok fun m hm => by
          cases List.mem_singleton.1 hm
          exact hn

theorem ensures_readNumber (hlimited : dialect.limited = true) (chars : List Char) :
    Ensures (readNumber dialect chars) fun part => part.1.IsWritable := by
  unfold readNumber
  split <;> exact ensures_readUnsigned hlimited _ _

theorem isWritable_of_readWord? {value : Value}
    (h : readWord? dialect.words chars = some (value, rest)) : value.IsWritable := by
  obtain ⟨⟨word, found⟩, hmem, hfound⟩ := List.exists_of_findSome?_eq_some h
  obtain ⟨_, -, hpair⟩ := Option.map_eq_some_iff.1 hfound
  obtain rfl : found = value := congrArg Prod.fst hpair
  have hleaf : ∀ entry ∈ dialect.words, entry.2.IsWritable := by
    cases hwords : dialect.nonFinite <;>
      simp [Dialect.words, hwords, Value.IsWritable, Value.leaves]
  exact hleaf _ hmem

mutual

-- The induction is on the fuel, as the calls go.

theorem ensures_readValue (hlimited : dialect.limited = true) :
    ∀ (fuel : Nat) (chars : List Char),
      Ensures (readValue dialect fuel chars) fun part => part.1.IsWritable
  | 0, _ => .error _
  | fuel + 1, chars => by
    rw [readValue.eq_def]
    simp only
    split
    case h_1 hword => exact .ok (isWritable_of_readWord? hword)
    case h_2 =>
      split
      case h_1 =>
        have hany : Ensures (expect (readText ‹_›)) fun _ => True := fun _ _ => trivial
        exact hany.map fun _ _ => by simp [Value.IsWritable, Value.leaves]
      case h_2 =>
        split
        case h_1 => exact .ok nofun
        case h_2 => exact (ensures_readItems hlimited fuel _).map fun _ => Value.isWritable_list.2
      case h_3 =>
        split
        case h_1 => exact .ok nofun
        case h_2 =>
          refine (ensures_readEntries hlimited fuel _).map fun part hpart => ?_
          exact Value.isWritable_object.2 fun entry hentry =>
            hpart entry (Entries.mem_of_mem_collect hentry)
      case h_4 => exact ensures_readNumber hlimited _

theorem ensures_readItems (hlimited : dialect.limited = true) :
    ∀ (fuel : Nat) (chars : List Char),
      Ensures (readItems dialect fuel chars) fun part => ∀ item ∈ part.1, item.IsWritable
  | 0, _ => .error _
  | fuel + 1, chars => by
    refine (ensures_readValue hlimited fuel chars).bind fun part hitem => ?_
    simp only
    split
    case h_1 =>
      exact (ensures_readItems hlimited fuel _).map fun _ hitems =>
        List.forall_mem_cons.2 ⟨hitem, hitems⟩
    case h_2 => exact .ok (List.forall_mem_singleton.2 hitem)
    case h_3 => exact .error _

theorem ensures_readEntries (hlimited : dialect.limited = true) :
    ∀ (fuel : Nat) (chars : List Char),
      Ensures (readEntries dialect fuel chars) fun part => ∀ entry ∈ part.1, entry.2.IsWritable
  | 0, _ => .error _
  | fuel + 1, chars => by
    rw [readEntries.eq_def]
    simp only
    split
    case h_2 => exact .error _
    case h_1 =>
      have hany : Ensures (expect (readText ‹_›)) fun _ => True := fun _ _ => trivial
      refine hany.bind fun part _ => ?_
      split
      case h_2 => exact .error _
      case h_1 =>
        refine (ensures_readValue hlimited fuel _).bind fun part hvalue => ?_
        split
        case h_1 =>
          exact (ensures_readEntries hlimited fuel _).map fun _ hentries =>
            List.forall_mem_cons.2 ⟨hvalue, hentries⟩
        case h_2 => exact .ok (List.forall_mem_singleton.2 hvalue)
        case h_3 => exact .error _

end

/-- A value that is read within the limit has no integer that is refused when it is written. -/
theorem isWritable_of_read {text : String} {value : Value} (hlimited : dialect.limited = true)
    (h : read dialect text = .ok value) : value.IsWritable := by
  have hread : Ensures (read dialect text) fun value => value.IsWritable := by
    refine (ensures_readValue hlimited _ _).bind fun part hvalue => ?_
    simp only
    split
    · exact .ok hvalue
    · exact .error _
  exact hread value h

end Json

end StageChain
