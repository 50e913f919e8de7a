import Mathlib.Tactic.Push
import StageChain.Proofs.Stage.Rows

/-!
# Stages that are made of rows

Stages go over rows in one way. They differ in which rows count, in the names of these, and in what
each of them comes to: it asks for a value under its name, it is wrong, or its value is overlong.
A `Rule` says these three things of a stage.

`Rule.Settles` says what becomes of rows by those that count alone: the first wrong one is named,
and else each name is there once, in the place in which it comes first, with what the last row of
that name asks for. What goes over rows by a rule comes to that, unless it meets an overlong value
first: `Rule.Governs.settles_iff`.
-/

namespace StageChain.Rows

/-! ## Rules -/

/-- What a row that counts comes to. -/
inductive Verdict where
  /-- It asks for a value under its name. -/
  | asks (value : Value)
  /-- It is wrong, at a place that may depend on its index. -/
  | wrong (place : Nat → String) (message : String)
  /-- Its value is overlong. -/
  | overlong (numeral : Text.OverlongNumeral)

/-- What a row with a value to read comes to. -/
def Verdict.ofTyped : Except Text.OverlongNumeral Value → Verdict
  | .ok typed => .asks typed
  | .error numeral => .overlong numeral

/-- Which rows count, their names, and what they come to. -/
structure Rule where
  live : Entries Value → Prop
  decides : DecidablePred live
  name : Entries Value → String
  verdict : Entries Value → Verdict

namespace Rule

variable {rule : Rule} {row : Entries Value} {rows : List (Entries Value)}
  {entry : Nat → Entries Value → Except Refusal (Option (String × Value))}
  {operator : String} {dead : Except Refusal CompiledStage} {numeral : Text.OverlongNumeral}

instance (rule : Rule) : DecidablePred rule.live := rule.decides

/-- The row asks for a value. -/
def Asks (rule : Rule) (row : Entries Value) (value : Value) : Prop :=
  rule.verdict row = .asks value

/-- The row is wrong. -/
def IsWrong (rule : Rule) (row : Entries Value) : Prop :=
  ∃ place message, rule.verdict row = .wrong place message

/-- What a row gives by a rule, at an index. -/
inductive Gives (rule : Rule) (index : Nat) (row : Entries Value) :
    Except Refusal (Option (String × Value)) → Prop where
  | nothing (hdead : ¬ rule.live row) : Gives rule index row (.ok none)
  | asks (value : Value) (hlive : rule.live row) (hasks : rule.verdict row = .asks value) :
      Gives rule index row (.ok (some (rule.name row, value)))
  | wrong (fault : StageFault) (place : Nat → String) (message : String) (hlive : rule.live row)
      (hwrong : rule.verdict row = .wrong place message) (hfield : fault.field = place index)
      (hmessage : fault.message = message) : Gives rule index row (.error (.invalid fault))
  | overlong (numeral : Text.OverlongNumeral) (hlive : rule.live row)
      (hoverlong : rule.verdict row = .overlong numeral) :
      Gives rule index row (.error (.overlong numeral))

/-- A row whose value is read gives it under its name. -/
theorem gives_typed {index : Nat} {read : Except Text.OverlongNumeral Value}
    (hlive : rule.live row) (hverdict : rule.verdict row = .ofTyped read) :
    rule.Gives index row ((typed read).map fun typed => some (rule.name row, typed)) := by
  cases read with
  | ok typed => exact .asks typed hlive hverdict
  | error numeral => exact .overlong numeral hlive hverdict

/-- Rows are gone over by a rule. -/
def Governs (rule : Rule) (entry : Nat → Entries Value → Except Refusal (Option (String × Value))) :
    Prop :=
  ∀ index row, rule.Gives index row (entry index row)

namespace Governs

theorem follows (h : rule.Governs entry) : Follows entry rule.live rule.name rule.Asks where
  skips := by
    intro index row hrow
    have hgives := h index row
    rw [hrow] at hgives
    cases hgives with
    | nothing hdead => exact hdead
  takes := by
    intro index row pair hrow
    have hgives := h index row
    rw [hrow] at hgives
    cases hgives with
    | asks value hlive hasks => exact ⟨hlive, rfl, hasks⟩

theorem exists_given (h : rule.Governs entry) (index : Nat)
    (hrow : rule.live row → ∃ value, rule.Asks row value) :
    ∃ given, entry index row = .ok given := by
  have hgives := h index row
  generalize entry index row = result at hgives
  cases hgives with
  | nothing | asks => exact ⟨_, rfl⟩
  | wrong _ _ _ hlive hwrong =>
      obtain ⟨_, hasks⟩ := hrow hlive
      cases hwrong.symm.trans hasks
  | overlong _ hlive hoverlong =>
      obtain ⟨_, hasks⟩ := hrow hlive
      cases hoverlong.symm.trans hasks

end Governs

theorem Asks.not_isWrong {value : Value} (h : rule.Asks row value) : ¬ rule.IsWrong row := by
  rintro ⟨_, _, hwrong⟩
  cases h.symm.trans hwrong

/-! ## What becomes of rows -/

/-- The stage with the gathered entries, or what becomes of none. -/
def finish (operator : String) (dead : Except Refusal CompiledStage) (entries : Entries Value) :
    Except Refusal CompiledStage :=
  if entries.isEmpty then dead else .ok ⟨operator, .object entries⟩

/-- What becomes of rows whose values are read, given what becomes of none that counts. -/
inductive Settles (rule : Rule) (operator : String) (dead : Except Refusal CompiledStage)
    (rows : List (Entries Value)) : Except Refusal CompiledStage → Prop where
  /-- The first row that is wrong is named by its index among all rows. -/
  | wrong (before : List (Entries Value)) (row : Entries Value) (after : List (Entries Value))
      (fault : StageFault) (place : Nat → String) (message : String)
      (hrows : rows = before ++ row :: after) (hlive : rule.live row)
      (hwrong : rule.verdict row = .wrong place message)
      (hleast : ∀ other ∈ before, rule.live other → ¬ rule.IsWrong other)
      (hfield : fault.field = place before.length) (hmessage : fault.message = message) :
      Settles rule operator dead rows (.error (.invalid fault))
  | dead (hdead : ∀ row ∈ rows, ¬ rule.live row) : Settles rule operator dead rows dead
  /-- Each name is there once, with what the last row of the name asks for. -/
  | compiled (params : Entries Value)
      (hright : ∀ row ∈ rows, rule.live row → ¬ rule.IsWrong row)
      (hlive : ∃ row ∈ rows, rule.live row)
      (hnames : Entries.keys params = ((rows.filter (rule.live ·)).map rule.name).eraseDups)
      (hlast : ∀ row, IsLast rule.live rule.name rows row →
        ∃ value, rule.Asks row value ∧ Entries.get? (rule.name row) params = some value) :
      Settles rule operator dead rows (.ok ⟨operator, .object params⟩)

/-- A row that counts has an overlong value, and all those before it ask for something. -/
def MeetsOverlong (rule : Rule) (rows : List (Entries Value)) (numeral : Text.OverlongNumeral) :
    Prop :=
  ∃ before row after, rows = before ++ row :: after ∧ rule.live row ∧
    rule.verdict row = .overlong numeral ∧
      ∀ other ∈ before, rule.live other → ∃ value, rule.Asks other value

theorem finish_ne_overlong (hdead : dead ≠ .error (.overlong numeral)) (entries : Entries Value) :
    finish operator dead entries ≠ .error (.overlong numeral) := by
  unfold finish
  split
  · exact hdead
  · exact nofun

theorem Settles.ne_overlong (hdead : dead ≠ .error (.overlong numeral)) :
    ¬ rule.Settles operator dead rows (.error (.overlong numeral)) := by
  intro h
  generalize hresult : Except.error (Refusal.overlong numeral) = result at h
  cases h with
  | wrong => cases hresult
  | dead => exact hdead hresult.symm
  | compiled => cases hresult

namespace Governs

/-- An overlong value ends the run exactly if it is met. -/
theorem eq_overlong_iff (h : rule.Governs entry) (hdead : dead ≠ .error (.overlong numeral)) :
    (gather entry 0 rows []).bind (finish operator dead) = .error (.overlong numeral) ↔
      rule.MeetsOverlong rows numeral := by
  constructor
  · intro hresult
    cases hgather : gather entry 0 rows [] with
    | ok entries =>
        rw [hgather] at hresult
        exact absurd hresult (finish_ne_overlong hdead entries)
    | error refusal =>
        rw [hgather] at hresult
        cases hresult
        obtain ⟨before, row, after, pairs, hrows, hreads, hrow⟩ := gather_eq_error_iff.1 hgather
        have hgives := h (0 + before.length) row
        rw [hrow] at hgives
        cases hgives with
        | overlong _ hlive hoverlong =>
            exact ⟨before, row, after, hrows, hlive, hoverlong, h.follows.asks_of_reads hreads⟩
  · rintro ⟨before, row, after, hrows, hlive, hoverlong, hbefore⟩
    obtain ⟨pairs, hreads⟩ := exists_reads
      (fun other hother index => h.exists_given index (hbefore other hother)) 0
    have hrow : entry (0 + before.length) row = .error (.overlong numeral) := by
      have hgives := h (0 + before.length) row
      generalize entry (0 + before.length) row = result at hgives
      cases hgives with
      | nothing hdead => exact absurd hlive hdead
      | asks _ _ hasks => cases hoverlong.symm.trans hasks
      | wrong _ _ _ _ hwrong => cases hoverlong.symm.trans hwrong
      | overlong other _ hother =>
          cases hoverlong.symm.trans hother
          rfl
    rw [gather_eq_error_iff.2 ⟨before, row, after, pairs, hrows, hreads, hrow⟩]
    rfl

/-- Rows settle if no overlong value is met. -/
theorem settles (h : rule.Governs entry)
    (hread : ∀ numeral, ¬ rule.MeetsOverlong rows numeral) :
    rule.Settles operator dead rows
      ((gather entry 0 rows []).bind (finish operator dead)) := by
  cases hgather : gather entry 0 rows [] with
  | ok entries =>
      obtain ⟨pairs, hreads, rfl⟩ := gather_eq_ok_iff.1 hgather
      have hgathered : Gathered rule.live rule.name rule.Asks rows (Entries.collect pairs) :=
        h.follows.gathered hreads
      have hasks := h.follows.asks_of_reads hreads
      show rule.Settles operator dead rows (finish operator dead (Entries.collect pairs))
      by_cases hempty : Entries.collect pairs = []
      · rw [hempty]
        exact .dead (hgathered.eq_nil_iff.1 hempty)
      · have hlive := mt hgathered.eq_nil_iff.2 hempty
        push Not at hlive
        rw [finish, if_neg (by simpa using hempty)]
        refine .compiled _ (fun row hrow hcounts => ?_) hlive hgathered.names hgathered.last
        obtain ⟨_, hasked⟩ := hasks row hrow hcounts
        exact hasked.not_isWrong
  | error refusal =>
      obtain ⟨before, row, after, pairs, hrows, hreads, hrow⟩ := gather_eq_error_iff.1 hgather
      have hbefore := h.follows.asks_of_reads hreads
      have hgives := h (0 + before.length) row
      rw [hrow] at hgives
      show rule.Settles operator dead rows (.error refusal)
      cases hgives with
      | wrong fault place message hlive hwrong hfield hmessage =>
          rw [Nat.zero_add] at hfield
          refine .wrong before row after fault place message hrows hlive hwrong
            (fun other hother hcounts => ?_) hfield hmessage
          obtain ⟨_, hasked⟩ := hbefore other hother hcounts
          exact hasked.not_isWrong
      | overlong numeral hlive hoverlong =>
          exact absurd ⟨before, row, after, hrows, hlive, hoverlong, hbefore⟩ (hread numeral)

/-- Rows settle exactly if no overlong value is met. -/
theorem settles_iff (h : rule.Governs entry)
    (hdead : ∀ numeral, dead ≠ .error (.overlong numeral)) :
    rule.Settles operator dead rows ((gather entry 0 rows []).bind (finish operator dead)) ↔
      ∀ numeral, ¬ rule.MeetsOverlong rows numeral := by
  refine ⟨fun hsettles numeral hmeets => ?_, h.settles⟩
  rw [(h.eq_overlong_iff (hdead numeral)).2 hmeets] at hsettles
  exact Settles.ne_overlong (hdead numeral) hsettles

end Governs

end Rule

/-- Rows that are made of others are gone over as these. -/
theorem gather_map {ρ σ : Type} (entry : Nat → σ → Except Refusal (Option (String × Value)))
    (make : ρ → σ) (index : Nat) (rows : List ρ) (result : Entries Value) :
    gather entry index (rows.map make) result =
      gather (fun index row => entry index (make row)) index rows result := by
  induction rows generalizing index result with
  | nil => rfl
  | cons row rows ih =>
      rw [List.map_cons, gather_cons, gather_cons]
      split
      · rfl
      · exact ih _ _
      · exact ih _ _

end StageChain.Rows
