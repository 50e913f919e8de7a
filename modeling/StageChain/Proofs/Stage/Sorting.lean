import Mathlib.Logic.Nontrivial.Basic
import Mathlib.Order.Compare
import StageChain.Proofs.Stage.Rows
import StageChain.Stage.Ordering

/-!
# The order that a sort asks for

Documents are compared by fields with directions, one after another, until a field tells them apart:
`compareBy`. A sort is written as rows in that sense, and compiles to parameters in which every
field is there once, in its first place but with its last direction.

A field that comes again decides nothing in the rows. In the parameters it does: if the first and
the last direction of a field differ, the documents that it tells apart are put the other way round,
`compareBy_collect_of_turned`. So a sort keeps the order of its rows exactly if it turns no field:
`sorts_iff`.
-/

namespace StageChain.Ordering

universe u

/-! ## Comparing documents -/

/-- The direction in which a field is sorted. -/
inductive Direction where
  | ascending
  | descending
deriving DecidableEq

namespace Direction

/-- The words for a direction. -/
def words : Direction → List String
  | ascending => ["ascending", "asc", "1"]
  | descending => ["descending", "desc", "-1"]

/-- A direction in the parameters of a sort. -/
def written : Direction → Value
  | ascending => .int 1
  | descending => .int (-1)

theorem written_injective : Function.Injective written := by
  intro first second h
  cases first with
  | ascending =>
      cases second with
      | ascending => rfl
      | descending => cases h
  | descending =>
      cases second with
      | ascending => cases h
      | descending => rfl

variable {α : Type u} [LinearOrder α]

/-- Compares two values in a direction. -/
def compare : Direction → α → α → Ordering
  | ascending, first, second => Ord.compare first second
  | descending, first, second => Ord.compare second first

theorem compare_eq_eq_iff {direction : Direction} {first second : α} :
    direction.compare first second = .eq ↔ first = second := by
  cases direction with
  | ascending => exact compare_eq_iff_eq
  | descending => exact compare_eq_iff_eq.trans eq_comm

/-- Different directions compare the other way round. -/
theorem compare_of_ne {direction other : Direction} (h : direction ≠ other) (first second : α) :
    direction.compare first second = (other.compare first second).swap := by
  have hswap : ∀ a b : α, Ord.compare a b = (Ord.compare b a).swap :=
    fun _ _ => Std.OrientedCmp.eq_swap
  cases direction with
  | ascending =>
      cases other with
      | ascending => exact absurd rfl h
      | descending => exact hswap first second
  | descending =>
      cases other with
      | ascending => exact hswap second first
      | descending => exact absurd rfl h

end Direction

section Compare

variable {α : Type u} [LinearOrder α] {keys : Entries Direction} {first second : String → α}
  {field : String} {direction : Direction}

/-- Compares two documents by fields with directions; the first field that tells them apart
decides. -/
def compareBy : Entries Direction → (first second : String → α) → Ordering
  | [], _, _ => .eq
  | (field, direction) :: rest, first, second =>
    (direction.compare (first field) (second field)).then (compareBy rest first second)

/-- The first field that tells two documents apart. -/
def decisive? (keys : Entries Direction) (first second : String → α) : Option String :=
  (Entries.keys keys).find? fun field => first field ≠ second field

/-- A field that comes with another direction at the end than at first. -/
def Turned (keys : Entries Direction) (field : String) : Prop :=
  Entries.get? field keys ≠ Entries.get? field keys.reverse

theorem compareBy_of_none (h : decisive? keys first second = none) :
    compareBy keys first second = .eq := by
  induction keys with
  | nil => rfl
  | cons key rest ih =>
      obtain ⟨field, direction⟩ := key
      obtain ⟨hfield, hrest⟩ := List.forall_mem_cons.1 (List.find?_eq_none.1 h)
      have hsame : first field = second field := by simpa using hfield
      rw [compareBy, Direction.compare_eq_eq_iff.2 hsame]
      exact ih (List.find?_eq_none.2 hrest)

/-- Documents are compared in the first direction of the field that tells them apart first. -/
theorem compareBy_of_decisive (h : decisive? keys first second = some field)
    (hdirection : Entries.get? field keys = some direction) :
    compareBy keys first second = direction.compare (first field) (second field) := by
  induction keys with
  | nil => cases h
  | cons key rest ih =>
      obtain ⟨name, own⟩ := key
      have hfind : List.find? (fun field => decide (first field ≠ second field))
          (name :: Entries.keys rest) = some field := h
      by_cases hsame : first name = second name
      · -- the field decides nothing, so it is not the decisive one
        rw [List.find?_cons_of_neg (by simpa using hsame)] at hfind
        have hne : field ≠ name := by
          rintro rfl
          exact absurd hsame (by simpa using List.find?_some hfind)
        rw [Entries.get?, List.lookup_cons, beq_false_of_ne hne] at hdirection
        rw [compareBy, Direction.compare_eq_eq_iff.2 hsame]
        exact ih hfind hdirection
      · rw [List.find?_cons_of_pos (by simpa using hsame)] at hfind
        obtain rfl := Option.some.inj hfind
        obtain rfl : own = direction := by simpa [Entries.get?] using hdirection
        have hdecides : own.compare (first name) (second name) ≠ .eq :=
          mt Direction.compare_eq_eq_iff.1 hsame
        rw [compareBy]
        cases hcompare : own.compare (first name) (second name) with
        | lt | gt => rfl
        | eq => exact absurd hcompare hdecides

/-- The same field is decisive where repeated fields are left out. -/
theorem decisive?_collect (keys : Entries Direction) (first second : String → α) :
    decisive? (Entries.collect keys) first second = decisive? keys first second := by
  rw [decisive?, Entries.keys_collect, Entries.find?_eraseDups]
  rfl

/-- A decisive field has a first and a last direction. -/
theorem exists_directions (h : decisive? keys first second = some field) :
    ∃ direction last, Entries.get? field keys = some direction ∧
      Entries.get? field keys.reverse = some last := by
  have hmem : field ∈ Entries.keys keys := List.mem_of_find?_eq_some h
  have hlast : field ∈ Entries.keys keys.reverse := by simpa [Entries.keys] using hmem
  obtain ⟨direction, hdirection⟩ := Entries.exists_get?_of_mem_keys hmem
  obtain ⟨last, hget⟩ := Entries.exists_get?_of_mem_keys hlast
  exact ⟨direction, last, hdirection, hget⟩

/-- Documents are compared alike if the decisive field is not turned. -/
theorem compareBy_collect
    (h : ∀ field, decisive? keys first second = some field → ¬ Turned keys field) :
    compareBy (Entries.collect keys) first second = compareBy keys first second := by
  have hcollect := decisive?_collect keys first second
  cases hfield : decisive? keys first second with
  | none =>
      rw [hfield] at hcollect
      rw [compareBy_of_none hcollect, compareBy_of_none hfield]
  | some field =>
      rw [hfield] at hcollect
      obtain ⟨direction, last, hdirection, hlast⟩ := exists_directions hfield
      have hsame : Entries.get? field keys = Entries.get? field keys.reverse :=
        not_not.1 (h field hfield)
      rw [compareBy_of_decisive hfield hdirection]
      refine compareBy_of_decisive hcollect ?_
      rw [Entries.get?_collect, ← hsame, hdirection]

/-- Documents are put the other way round if the decisive field is turned. -/
theorem compareBy_collect_of_turned (hfield : decisive? keys first second = some field)
    (hturned : Turned keys field) :
    compareBy (Entries.collect keys) first second = (compareBy keys first second).swap := by
  obtain ⟨direction, last, hdirection, hlast⟩ := exists_directions hfield
  have hcollect : decisive? (Entries.collect keys) first second = some field :=
    (decisive?_collect keys first second).trans hfield
  have hget : Entries.get? field (Entries.collect keys) = some last :=
    (Entries.get?_collect field keys).trans hlast
  have hne : last ≠ direction := by
    rintro rfl
    exact hturned (hdirection.trans hlast.symm)
  rw [compareBy_of_decisive hfield hdirection, compareBy_of_decisive hcollect hget,
    Direction.compare_of_ne hne]

/-- A field tells apart two documents that differ in nothing else. -/
theorem exists_decisive [Nontrivial α] (h : field ∈ Entries.keys keys) :
    ∃ first second : String → α, decisive? keys first second = some field := by
  obtain ⟨low, high, hne⟩ := exists_pair_ne α
  refine ⟨fun _ => low, fun name => if name = field then high else low, ?_⟩
  induction keys with
  | nil => simp [Entries.keys] at h
  | cons key rest ih =>
      obtain ⟨name, direction⟩ := key
      by_cases hname : name = field
      · subst hname
        exact List.find?_cons_of_pos (by simpa using hne)
      · have hrest : field ∈ Entries.keys rest :=
          (List.mem_cons.1 h).resolve_left fun hfield => hname hfield.symm
        exact (List.find?_cons_of_neg (by simp [hname])).trans (ih hrest)

/-- All documents are compared alike exactly if no field is turned. -/
theorem forall_compareBy_collect_iff [Nontrivial α] :
    (∀ first second : String → α,
      compareBy (Entries.collect keys) first second = compareBy keys first second) ↔
      ∀ field, ¬ Turned keys field := by
  constructor
  · intro hsame field hturned
    have hmem : field ∈ Entries.keys keys := by
      by_contra hnot
      have hlast : field ∉ Entries.keys keys.reverse := by simpa [Entries.keys] using hnot
      refine hturned ?_
      rw [Entries.get?_eq_none_of_not_mem hnot, Entries.get?_eq_none_of_not_mem hlast]
    obtain ⟨first, second, hfield⟩ := exists_decisive (α := α) hmem
    obtain ⟨direction, last, hdirection, hlast⟩ := exists_directions hfield
    have hne : first field ≠ second field := by simpa using List.find?_some hfield
    have hswap := (hsame first second).symm.trans (compareBy_collect_of_turned hfield hturned)
    rw [compareBy_of_decisive hfield hdirection] at hswap
    cases hcompare : direction.compare (first field) (second field) with
    | eq => exact hne (Direction.compare_eq_eq_iff.1 hcompare)
    | lt | gt =>
        rw [hcompare] at hswap
        cases hswap
  · exact fun hturned first second => compareBy_collect fun field _ => hturned field

end Compare

/-! ## Rows -/

variable {config : Value} {row : Entries Value} {rows : List (Entries Value)}

/-- The field of a row. -/
def fieldOf (row : Entries Value) : String := Rows.textOf row "field"

/-- A row counts if it has a field. -/
def IsLive (row : Entries Value) : Prop := fieldOf row ≠ ""

instance : DecidablePred IsLive := fun _ => inferInstanceAs (Decidable (_ ≠ _))

/-- The direction that a value names: ascending if nothing is given, else the one that has its word
in lower case. -/
def named? (value : Value) : Option Direction :=
  if value.isBlank then some .ascending
  else [Direction.ascending, .descending].find? fun direction =>
    Text.lower (Text.trim value.display) ∈ direction.words

/-- The direction of a row, if it is known. -/
def direction? (row : Entries Value) : Option Direction := named? (Value.field row "direction")

/-- The field and the direction of a row that counts. -/
def key? (row : Entries Value) : Option (String × Direction) :=
  if IsLive row then (direction? row).map fun direction => (fieldOf row, direction) else none

/-- The fields that rows sort by, in order, with their directions. -/
def keysOf (rows : List (Entries Value)) : Entries Direction := rows.filterMap key?

theorem lookup_directions (word : String) :
    (directions.lookup word).map Value.int =
      ([Direction.ascending, .descending].find? fun direction =>
        word ∈ direction.words).map Direction.written := by
  by_cases hup : word ∈ Direction.ascending.words
  · rw [List.find?_cons_of_pos (by simpa using hup)]
    simp only [Direction.words, List.mem_cons, List.not_mem_nil, or_false] at hup
    rcases hup with rfl | rfl | rfl <;> rfl
  rw [List.find?_cons_of_neg (by simpa using hup)]
  by_cases hdown : word ∈ Direction.descending.words
  · rw [List.find?_cons_of_pos (by simpa using hdown)]
    simp only [Direction.words, List.mem_cons, List.not_mem_nil, or_false] at hdown
    rcases hdown with rfl | rfl | rfl <;> rfl
  · rw [List.find?_cons_of_neg (by simpa using hdown)]
    simp only [Direction.words, List.mem_cons, List.not_mem_nil, or_false, not_or] at hup hdown
    have hunknown : word ∉ Entries.keys directions := by
      simp [Entries.keys, directions, hup, hdown]
    have hnone : directions.lookup word = none := Entries.get?_eq_none_of_not_mem hunknown
    rw [hnone]
    rfl

/-- What is read as a direction names it. -/
theorem named?_of_direction {index : Nat} {value : Value} {n : Int}
    (h : direction index value = .ok n) : (named? value).map Direction.written = some (.int n) := by
  unfold direction at h
  split at h
  · cases h
    rfl
  · cases h
    rfl
  · cases h
  · rename_i hnull hempty _
    have hgiven : value.isBlank = false := by
      cases value with
      | null => exact absurd rfl hnull
      | text text => simpa [Value.isBlank] using hempty
      | _ => rfl
    split at h
    · rename_i found hfound
      cases h
      rw [named?, hgiven, if_neg Bool.false_ne_true, ← lookup_directions, hfound]
      rfl
    · cases h

/-- What a row gives that is not refused. -/
theorem entry_eq_ok {index : Nat} {given : Option (String × Value)}
    (h : entry index row = .ok given) :
    given = (key? row).map (fun key => (key.1, key.2.written)) ∧
      (IsLive row → (direction? row).isSome) := by
  by_cases hlive : IsLive row
  · have hfield : (Rows.textOf row "field").isEmpty = false := by simpa [IsLive, fieldOf] using hlive
    simp only [entry, hfield, Bool.false_eq_true, if_false] at h
    cases hread : direction index (Value.field row "direction") with
    | error fault =>
        rw [hread] at h
        cases h
    | ok n =>
        rw [hread] at h
        cases h
        obtain ⟨known, hknown, hwritten⟩ := Option.map_eq_some_iff.1 (named?_of_direction hread)
        have hdirection : direction? row = some known := hknown
        rw [key?, if_pos hlive, hdirection]
        refine ⟨?_, fun _ => rfl⟩
        show some (fieldOf row, Value.int n) = some (fieldOf row, known.written)
        rw [hwritten]
  · have hfield : (Rows.textOf row "field").isEmpty = true := by simpa [IsLive, fieldOf] using hlive
    simp only [entry, hfield, if_true] at h
    cases h
    rw [key?, if_neg hlive]
    exact ⟨rfl, fun hcounts => absurd hcounts hlive⟩

/-- Rows that are read give the fields that they sort by. -/
theorem eq_keysOf_of_reads {index : Nat} {pairs : Entries Value}
    (h : Rows.Reads entry index rows pairs) :
    pairs = Entries.mapValues Direction.written (keysOf rows) ∧
      ∀ row ∈ rows, IsLive row → (direction? row).isSome := by
  induction h with
  | done => exact ⟨rfl, nofun⟩
  | skipped index row rows pairs hrow _ ih =>
      obtain ⟨hgiven, hknown⟩ := entry_eq_ok hrow
      have hkey : key? row = none := Option.map_eq_none_iff.1 hgiven.symm
      refine ⟨?_, List.forall_mem_cons.2 ⟨hknown, ih.2⟩⟩
      rw [keysOf, List.filterMap_cons_none hkey]
      exact ih.1
  | taken index row rows pair pairs hrow _ ih =>
      obtain ⟨hgiven, hknown⟩ := entry_eq_ok hrow
      obtain ⟨key, hkey, hpair⟩ := Option.map_eq_some_iff.1 hgiven.symm
      refine ⟨?_, List.forall_mem_cons.2 ⟨hknown, ih.2⟩⟩
      rw [keysOf, List.filterMap_cons_some hkey, ← hpair]
      exact congrArg (_ :: ·) ih.1

/-- What compiles as a sort has rows with known directions, and its parameters are the fields that
they sort by, without repetition. -/
theorem exists_rows_of_compile {stage : CompiledStage} (h : compile config = .ok stage) :
    ∃ settings rows, Rows.HasSettings config settings ∧ Rows.HasRows settings "fields" rows ∧
      (∀ row ∈ rows, IsLive row → (direction? row).isSome) ∧
      stage = ⟨"$sort", .object
        (Entries.mapValues Direction.written (Entries.collect (keysOf rows)))⟩ := by
  obtain ⟨settings, rows, hsettings, hrows, hread⟩ := Rows.exists_rows_of_read h
  obtain ⟨entries, hgather, hstage⟩ := Rows.bind_eq_ok_iff.1 hread
  obtain ⟨pairs, hreads, rfl⟩ := Rows.gather_eq_ok_iff.1 hgather
  obtain ⟨rfl, hknown⟩ := eq_keysOf_of_reads hreads
  refine ⟨settings, rows, hsettings, hrows, hknown, ?_⟩
  replace hstage : Rows.stageOfEntries "$sort"
      (Entries.collect (Entries.mapValues Direction.written (keysOf rows))) = .ok stage := hstage
  rw [Entries.collect_mapValues, Rows.stageOfEntries] at hstage
  split at hstage
  · cases hstage
  · exact (Except.ok.inj hstage).symm

/-- A sort that compiles compares documents as its rows do, unless it has turned the field that
decides: then it puts them the other way round. So it keeps the order of its rows exactly if no
field comes with another direction at the end than at first. -/
theorem sorts_iff {stage : CompiledStage} (hcompile : compile config = .ok stage) :
    ∃ settings rows params, Rows.HasSettings config settings ∧
      Rows.HasRows settings "fields" rows ∧
      (∀ row ∈ rows, IsLive row → (direction? row).isSome) ∧
      stage = ⟨"$sort", .object (Entries.mapValues Direction.written params)⟩ ∧
      (∀ (α : Type u) [LinearOrder α] (first second : String → α),
        ((∀ field, decisive? (keysOf rows) first second = some field →
            ¬ Turned (keysOf rows) field) →
          compareBy params first second = compareBy (keysOf rows) first second) ∧
        ∀ field, decisive? (keysOf rows) first second = some field → Turned (keysOf rows) field →
          compareBy params first second = (compareBy (keysOf rows) first second).swap) ∧
      ∀ (α : Type u) [LinearOrder α] [Nontrivial α],
        (∀ first second : String → α,
          compareBy params first second = compareBy (keysOf rows) first second) ↔
          ∀ field, ¬ Turned (keysOf rows) field := by
  obtain ⟨settings, rows, hsettings, hrows, hknown, rfl⟩ := exists_rows_of_compile hcompile
  refine ⟨settings, rows, Entries.collect (keysOf rows), hsettings, hrows, hknown, rfl, ?_, ?_⟩
  · intro α _ first second
    exact ⟨compareBy_collect, fun field => compareBy_collect_of_turned⟩
  · intro α _ _
    exact forall_compareBy_collect_iff

/-- A configuration with rows. -/
def sortOf (rows : List (Entries Value)) : Value :=
  .object [("fields", .list (rows.map .object))]

/-- A row in texts. -/
def rowOf (field direction : String) : Entries Value :=
  [("field", .text field), ("direction", .text direction)]

/-- Two fields, one of them again in the same direction, after a row without a field. -/
def descendingTwice : List (Entries Value) :=
  [rowOf " " "sideways", rowOf " zeta" "DESC", rowOf "alpha" "", rowOf "zeta" "-1"]

/-- The repeated field of `descendingTwice` changes nothing. -/
theorem sorts_descendingTwice :
    compile (sortOf descendingTwice) =
        .ok ⟨"$sort", .object [("zeta", .int (-1)), ("alpha", .int 1)]⟩ ∧
      ∀ first second : String → Nat,
        compareBy [("zeta", .descending), ("alpha", .ascending)] first second =
          compareBy (keysOf descendingTwice) first second := by
  have hcompile : compile (sortOf descendingTwice) =
      .ok ⟨"$sort", .object [("zeta", .int (-1)), ("alpha", .int 1)]⟩ := by decide +kernel
  refine ⟨hcompile, ?_⟩
  obtain ⟨settings, rows, params, hsettings, hrows, -, hstage, -, hsorts⟩ := sorts_iff hcompile
  obtain rfl := hsettings.unique (.object _)
  obtain rfl := hrows.unique (.listed descendingTwice rfl)
  have hparams : params = [("zeta", .descending), ("alpha", .ascending)] := by
    refine Entries.mapValues_injective Direction.written_injective ?_
    exact (Value.object.inj (congrArg CompiledStage.params hstage)).symm
  subst hparams
  have hkeys : keysOf descendingTwice =
      [("zeta", .descending), ("alpha", .ascending), ("zeta", .descending)] := by decide +kernel
  refine (hsorts Nat).2 fun field hturned => hturned ?_
  rw [hkeys]
  by_cases hzeta : field = "zeta"
  · rw [hzeta]
    rfl
  · by_cases halpha : field = "alpha"
    · rw [halpha]
      rfl
    · have hunknown : field ∉ ["zeta", "alpha", "zeta"] := by simp [hzeta, halpha]
      exact (Entries.get?_eq_none_of_not_mem hunknown).trans
        (Entries.get?_eq_none_of_not_mem hunknown).symm

/-- One field in both directions. -/
def bothWays : List (Entries Value) := [rowOf "a" "ascending", rowOf "a" "descending"]

/-- A sort in both directions compiles, and puts documents the other way round than its rows. -/
theorem turns_bothWays :
    compile (sortOf bothWays) =
        .ok ⟨"$sort", .object (Entries.mapValues Direction.written [("a", .descending)])⟩ ∧
      compareBy (keysOf bothWays) (fun _ => 0) (fun _ => 1) = .lt ∧
      compareBy [("a", .descending)] (fun _ => 0) (fun _ => 1) = .gt :=
  ⟨by decide +kernel, by decide +kernel, by decide +kernel⟩

end StageChain.Ordering
