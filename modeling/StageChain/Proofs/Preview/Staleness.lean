import StageChain.Proofs.Preview.Generations

/-!
# What is shown is never stale

`Extends` says what a schedule keeps of the past: tasks that have ended stay as they are, listeners
are told of no more results of theirs, and the latest run is never of an older generation than
before. `Brings` says which actions can make a run the latest. The main theorem is
`no_stale_overwrite`.
-/

namespace StageChain.Orchestrator

variable {o mid next : Orchestrator} {k : Nat} {task later : Task} {conclusion? : Option Conclusion}

/-! ## What a schedule keeps -/

/-- What a later state keeps of an earlier one. -/
structure Extends (o next : Orchestrator) : Prop where
  generation_le : o.generation ≤ next.generation
  /-- Tasks stay, and those that have ended stay as they are. -/
  tasks : ∀ (k : Nat) (task : Task), o.tasks[k]? = some task →
    ∃ later, next.tasks[k]? = some later ∧ later.generation = task.generation ∧
      (task.isDone = true → later = task)
  /-- Listeners are told of no more results of a run that has ended. -/
  events : ∃ news, next.events = o.events ++ news ∧
    ∀ event ∈ news, ∀ (k : Nat) (task : Task), o.tasks[k]? = some task → task.isDone = true →
      event.generation ≠ task.generation
  /-- The latest run is never of an older generation than before. -/
  latest : ∀ run, o.latest = some run →
    ∃ later, next.latest = some later ∧ run.generation ≤ later.generation

namespace Extends

theorem trans (hfirst : o.Extends mid) (hsecond : mid.Extends next) : o.Extends next := by
  constructor
  case generation_le => exact Nat.le_trans hfirst.generation_le hsecond.generation_le
  case tasks =>
    intro k task htask
    obtain ⟨between, hbetween, hgeneration, hdone⟩ := hfirst.tasks k task htask
    obtain ⟨later, hlater, hgeneration', hdone'⟩ := hsecond.tasks k between hbetween
    refine ⟨later, hlater, hgeneration'.trans hgeneration, fun h => ?_⟩
    obtain rfl := hdone h
    exact hdone' h
  case events =>
    obtain ⟨first, heq, hnone⟩ := hfirst.events
    obtain ⟨second, heq', hnone'⟩ := hsecond.events
    refine ⟨first ++ second, by rw [heq', heq, List.append_assoc], ?_⟩
    intro event hevent k task htask hdone
    rcases List.mem_append.1 hevent with hmem | hmem
    · exact hnone event hmem k task htask hdone
    · obtain ⟨between, hbetween, -, hsame⟩ := hfirst.tasks k task htask
      obtain rfl := hsame hdone
      exact hnone' event hmem k _ hbetween hdone
  case latest =>
    intro run hrun
    obtain ⟨between, hbetween, hle⟩ := hfirst.latest run hrun
    obtain ⟨later, hlater, hle'⟩ := hsecond.latest between hbetween
    exact ⟨later, hlater, Nat.le_trans hle hle'⟩

/-- What changes no task and tells nobody of anything extends the past. -/
theorem of_quiet (hgeneration : o.generation ≤ next.generation)
    (htasks : ∀ (k : Nat) (task : Task), o.tasks[k]? = some task → next.tasks[k]? = some task)
    (hevents : next.events = o.events)
    (hlatest : ∀ run, o.latest = some run →
      ∃ later, next.latest = some later ∧ run.generation ≤ later.generation) :
    o.Extends next where
  generation_le := hgeneration
  tasks := fun k task htask => ⟨task, htasks k task htask, rfl, fun _ => rfl⟩
  events := ⟨[], by rw [hevents, List.append_nil], by simp⟩
  latest := hlatest

theorem refl (o : Orchestrator) : o.Extends o :=
  of_quiet (Nat.le_refl _) (fun _ _ h => h) rfl fun run hrun => ⟨run, hrun, Nat.le_refl _⟩

/-- The way in which a task has ended stays. -/
theorem ending?_eq {ending : Ending} (h : o.Extends next) (hending : o.ending? k = some ending) :
    next.ending? k = some ending := by
  obtain ⟨task, htask, hended⟩ := Option.bind_eq_some_iff.1 hending
  obtain ⟨later, hlater, -, hdone⟩ := h.tasks k task htask
  rw [hdone (Task.isDone_of_ending? hended)] at hlater
  exact Option.bind_eq_some_iff.2 ⟨task, hlater, hended⟩

end Extends

theorem extends_cancel (o : Orchestrator) : o.Extends o.cancel := by
  constructor
  case generation_le => exact Nat.le_of_eq o.generation_cancel.symm
  case tasks =>
    intro k task htask
    rw [getElem?_tasks_cancel, htask, Option.map_some]
    refine ⟨_, rfl, ?_, fun hdone => ?_⟩
    · split <;> simp
    · rw [Task.cancel_of_isDone hdone, ite_self]
  case events => exact ⟨[], by rw [events_cancel, List.append_nil], by simp⟩
  case latest =>
    intro run hrun
    exact ⟨run, by rw [latest_cancel, hrun], Nat.le_refl _⟩

theorem cancel_extends_advance (o : Orchestrator) : o.cancel.Extends o.advance := by
  refine .of_quiet ?_ (fun _ _ h => h) rfl fun run hrun => ⟨run, hrun, Nat.le_refl _⟩
  rw [generation_cancel]
  exact Nat.le_succ _

/-- What takes the latest run on and nothing else extends the past. -/
theorem extends_setLatest {run : Run}
    (hle : ∀ old, o.latest = some old → old.generation ≤ run.generation) :
    o.Extends { o with latest := some run } :=
  .of_quiet (Nat.le_refl _) (fun _ _ h => h) rfl fun old hold => ⟨run, rfl, hle old hold⟩

/-- What cancels extends the state after the cancelling. -/
theorem Coherent.cancel_extends {action : Action} (h : o.Coherent)
    (hchange : o.Change action next) (hcancels : action.cancels = true) :
    o.cancel.Extends next := by
  cases hchange with
  | started pipeline page =>
      refine (cancel_extends_advance o).trans (.of_quiet (Nat.le_refl _) ?_ rfl ?_)
      · intro k task htask
        obtain ⟨hk, -⟩ := List.getElem?_eq_some_iff.1 htask
        exact (List.getElem?_append_left hk).trans htask
      · intro run hrun
        exact ⟨run, hrun, Nat.le_refl _⟩
  | cancelled => exact .refl o.cancel
  | rejected failure =>
      exact (cancel_extends_advance o).trans (extends_setLatest h.advance.latest_le)
  | accepted => cases hcancels
  | moved k task conclusion? next action haction =>
      cases action <;> cases haction <;> cases hcancels
  | unchanged action released source haction => exact absurd hcancels (by simp [haction])

/-- A pending task that moves leaves all other tasks alone, and what it tells is of its own run. -/
theorem Coherent.extends_move (h : o.Coherent) (htask : o.tasks[k]? = some task)
    (hmove : o.Move k task conclusion? next) : o.Extends next := by
  have hopen := hmove.isDone_eq_false
  constructor
  case generation_le => exact Nat.le_of_eq hmove.generation_eq.symm
  case tasks =>
    intro j other hother
    obtain ⟨later, htasks, hgeneration, -, -⟩ := hmove.tasks_eq
    obtain ⟨hk, -⟩ := List.getElem?_eq_some_iff.1 htask
    rw [htasks, List.getElem?_set]
    by_cases hj : k = j
    · subst hj
      obtain rfl : task = other := Option.some.inj (htask.symm.trans hother)
      simp only [hk, if_true, hopen]
      exact ⟨later, rfl, hgeneration, fun hfalse => absurd hfalse (by simp)⟩
    · rw [if_neg hj]
      exact ⟨other, hother, rfl, fun _ => rfl⟩
  case events =>
    rcases hmove.events_eq with hsame | ⟨result, hnew⟩
    · exact ⟨[], by rw [hsame, List.append_nil], by simp⟩
    · refine ⟨_, hnew, ?_⟩
      intro event hevent j other hother hdone heq
      obtain rfl := List.mem_singleton.1 hevent
      -- two tasks of one generation are the same, but one is pending and the other has ended
      obtain rfl : k = j := h.index_eq htask hother heq
      obtain rfl : task = other := Option.some.inj (htask.symm.trans hother)
      exact absurd hdone (by simp [hopen])
  case latest =>
    intro run hrun
    rcases hmove.latest_eq htask with hsame | ⟨new, hnew, hgeneration, -⟩
    · exact ⟨run, by rw [hsame, hrun], Nat.le_refl _⟩
    · exact ⟨new, hnew, hgeneration ▸ h.latest_le run hrun⟩

theorem Coherent.extends_change {action : Action} (h : o.Coherent)
    (hchange : o.Change action next) : o.Extends next := by
  cases hcancels : action.cancels with
  | true => exact (extends_cancel o).trans (h.cancel_extends hchange hcancels)
  | false =>
      cases hchange with
      | started pipeline page hpage => simp [Action.cancels, Action.advances, hpage] at hcancels
      | cancelled | rejected => cases hcancels
      | accepted run hcurrent =>
          refine extends_setLatest fun old hold => ?_
          rw [hcurrent]
          exact h.latest_le old hold
      | moved k task conclusion? next action haction htask hmove => exact h.extends_move htask hmove
      | unchanged action released source haction =>
          exact .of_quiet (Nat.le_refl _) (fun _ _ htask => htask) rfl
            fun run hrun => ⟨run, hrun, Nat.le_refl _⟩

/-- Every schedule extends the past. -/
theorem Coherent.extends_performAll (h : o.Coherent) (actions : List Action) :
    o.Extends (o.performAll actions) := by
  induction actions generalizing o with
  | nil => exact .refl o
  | cons action rest ih =>
      have hchange := o.change_perform action
      exact (h.extends_change hchange).trans (ih (h.change hchange))

/-! ## What becomes the latest run -/

/-- A pending task ends with a run. -/
def EndsWith (o next : Orchestrator) (k : Nat) (run : Run) : Prop :=
  (∃ task, o.tasks[k]? = some task ∧ task.isDone = false) ∧ next.ending? k = some (.finished run)

/-- An action brings a run: it offers the run, or records it as refused, or by it a pending task
ends with that run. -/
def Brings (o next : Orchestrator) (run : Run) : Action → Prop
  | .accept offered => offered = run
  | .reject failure => run = o.refusedRun failure
  | action => ∃ k, action.task? = some k ∧ o.EndsWith next k run

/-- An action takes one generation or none. -/
theorem generation_of_change {action : Action} (hchange : o.Change action next) :
    next.generation = o.generation + if action.advances then 1 else 0 := by
  cases hchange with
  | started pipeline page hpage => simp [Action.advances, hpage, advance]
  | cancelled => simp [Action.advances]
  | rejected | accepted => rfl
  | moved k task conclusion? next action haction htask hmove =>
      rw [hmove.generation_eq]
      cases action <;> cases haction <;> rfl
  | unchanged action released source haction =>
      cases action <;> simp_all [Action.cancels, Action.advances]

/-- A pending task that an action cancels has ended by being cancelled. -/
theorem Coherent.ending?_of_cancels {action : Action} (h : o.Coherent)
    (hchange : o.Change action next) (hcancels : action.cancels = true)
    (htask : o.tasks[k]? = some task) (hopen : task.isDone = false) :
    next.ending? k = some .cancelled := by
  have hcancelled : o.cancel.tasks[k]? = some { task with phase := .ended .cancelled } := by
    rw [getElem?_tasks_cancel, htask, Option.map_some, if_pos (h.pending k task htask hopen).1]
    simp [Task.cancel, hopen]
  refine (h.cancel_extends hchange hcancels).ending?_eq ?_
  rw [ending?, hcancelled]
  rfl

/-- The latest run changes only to a run of the current generation that the action brings. -/
theorem latest_of_change {action : Action} (hchange : o.Change action next) :
    next.latest = o.latest ∨
      ∃ run, next.latest = some run ∧ run.generation = next.generation ∧
        o.Brings next run action := by
  cases hchange with
  | started | cancelled => exact .inl o.latest_cancel
  | rejected failure => exact .inr ⟨_, rfl, rfl, rfl⟩
  | accepted run hcurrent => exact .inr ⟨run, rfl, hcurrent, rfl⟩
  | moved k task conclusion? next action haction htask hmove =>
      rcases hmove.latest_eq htask with hsame | ⟨run, hrun, hgeneration, hending⟩
      · exact .inl hsame
      · have hends : o.EndsWith next k run := ⟨⟨task, htask, hmove.isDone_eq_false⟩, hending⟩
        refine .inr ⟨run, hrun, hgeneration.trans hmove.generation_eq.symm, ?_⟩
        cases action <;> cases haction <;> exact ⟨k, rfl, hends⟩
  | unchanged => exact .inl rfl

/-- A task that an action adds has a later generation than all before. -/
theorem generation_lt_of_new {action : Action} (hchange : o.Change action next)
    (hnone : o.tasks[k]? = none) (hlater : next.tasks[k]? = some later) :
    o.generation < later.generation := by
  have hcancel : o.cancel.tasks[k]? = none := by
    rw [getElem?_tasks_cancel, hnone, Option.map_none]
  cases hchange with
  | started pipeline page =>
      rcases getElem?_append_singleton hlater with hold | ⟨-, rfl⟩
      · exact absurd (hcancel.symm.trans hold) (by simp)
      · exact Nat.lt_succ_self _
  | cancelled | rejected => exact absurd (hcancel.symm.trans hlater) (by simp)
  | accepted | unchanged => exact absurd (hnone.symm.trans hlater) (by simp)
  | moved j task conclusion? next action haction htask hmove =>
      obtain ⟨moved, htasks, -, -, -⟩ := hmove.tasks_eq
      have hlength : o.tasks.length ≤ k := List.getElem?_eq_none_iff.1 hnone
      rw [htasks, List.getElem?_eq_none_iff.2 (by simpa using hlength)] at hlater
      cases hlater

/-- Unless it was offered, the latest run is what the task of its generation ended with. -/
def Earned (o : Orchestrator) (offered : Run → Prop) : Prop :=
  ∀ run, o.latest = some run → ¬ offered run → ∀ (k : Nat) (task : Task),
    o.tasks[k]? = some task → task.generation = run.generation →
      task.ending? = some (.finished run)

/-- A run that stays the latest stays earned: tasks that have ended stay as they are, and new ones
have later generations. -/
theorem Coherent.earned_of_latest_eq {action : Action} {offered : Run → Prop} (h : o.Coherent)
    (hchange : o.Change action next) (hearned : o.Earned offered) (hsame : next.latest = o.latest) :
    next.Earned offered := by
  intro run hrun hoffered k later hlater hgeneration
  rw [hsame] at hrun
  cases htask : o.tasks[k]? with
  | none =>
      -- a new task is of a later generation than the latest run
      have hlt := generation_lt_of_new hchange htask hlater
      have hle := h.latest_le run hrun
      omega
  | some task =>
      obtain ⟨kept, hkept, hkeeps, hdone⟩ := (h.extends_change hchange).tasks k task htask
      obtain rfl : kept = later := Option.some.inj (hkept.symm.trans hlater)
      have hending := hearned run hrun hoffered k task htask (hkeeps.symm.trans hgeneration)
      rw [hdone (Task.isDone_of_ending? hending)]
      exact hending

/-- A run that a task ends with is earned: no other task has its generation. -/
theorem Coherent.earned_of_move {run : Run} (h : o.Coherent) (htask : o.tasks[k]? = some task)
    (hmove : o.Move k task conclusion? next) (hgeneration : run.generation = o.generation)
    (hending : next.ending? k = some (.finished run)) {j : Nat} {other : Task}
    (hother : next.tasks[j]? = some other) (heq : other.generation = run.generation) :
    other.ending? = some (.finished run) := by
  have hcurrent := (h.pending k task htask hmove.isDone_eq_false).2
  obtain ⟨later, hlater, hkeeps, -⟩ := (h.extends_move htask hmove).tasks k task htask
  obtain rfl : j = k := (h.move htask hmove).index_eq hother hlater (by omega)
  simpa [ending?, hother] using hending

theorem Coherent.earned_change {action : Action} {offered : Run → Prop} (h : o.Coherent)
    (hchange : o.Change action next) (hearned : o.Earned offered)
    (hoffered : ∀ run, action = .accept run → offered run) : next.Earned offered := by
  have hkeep := h.earned_of_latest_eq hchange hearned
  cases hchange with
  | started | cancelled => exact hkeep o.latest_cancel
  | unchanged => exact hkeep rfl
  | rejected failure =>
      intro run hrun hnew j other hother heq
      obtain rfl := Option.some.inj hrun
      -- the refused run has a generation of its own
      have hle : other.generation ≤ o.generation := by
        have hcancel := h.cancel.task_le j other hother
        rwa [generation_cancel] at hcancel
      have hrefused : (o.refusedRun failure).generation = o.generation + 1 := rfl
      omega
  | accepted offer hcurrent =>
      intro run hrun hnew
      obtain rfl := Option.some.inj hrun
      exact absurd (hoffered offer rfl) hnew
  | moved k task conclusion? next action haction htask hmove =>
      rcases hmove.latest_eq htask with hsame | ⟨brought, hbrought, hgeneration, hending⟩
      · exact hkeep hsame
      intro run hrun hnew j other hother heq
      obtain rfl : brought = run := Option.some.inj (hbrought.symm.trans hrun)
      exact h.earned_of_move htask hmove hgeneration hending hother heq

theorem Coherent.earned_performAll {offered : Run → Prop} (h : o.Coherent)
    (hearned : o.Earned offered) (actions : List Action)
    (hoffered : ∀ run, .accept run ∈ actions → offered run) :
    (o.performAll actions).Earned offered := by
  induction actions generalizing o with
  | nil => exact hearned
  | cons action rest ih =>
      have hchange := o.change_perform action
      refine ih (h.change hchange) (h.earned_change hchange hearned ?_) ?_
      · intro run haction
        exact hoffered run (by simp [haction])
      · intro run hrun
        exact hoffered run (List.mem_cons_of_mem _ hrun)

/-- A run that a task has ended with has the generation of the task, and as long as that is the
current one it is the latest. -/
def Recorded (o : Orchestrator) : Prop :=
  ∀ (k : Nat) (task : Task) (run : Run), o.tasks[k]? = some task →
    task.ending? = some (.finished run) →
      run.generation = task.generation ∧ (task.generation = o.generation → o.latest = some run)

/-- What has ended with a run after a cancel had ended so before. -/
theorem getElem?_of_finished_cancel {run : Run} (htask : o.cancel.tasks[k]? = some task)
    (hending : task.ending? = some (.finished run)) : o.tasks[k]? = some task := by
  rw [getElem?_tasks_cancel] at htask
  obtain ⟨before, hbefore, rfl⟩ := Option.map_eq_some_iff.1 htask
  by_cases hdone : before.isDone
  · rw [Task.cancel_of_isDone hdone, ite_self]
    exact hbefore
  · by_cases hheld : o.held = some k
    · simp [hheld, Task.cancel, hdone, Task.ending?] at hending
    · rw [if_neg hheld]
      exact hbefore

/-- Where the next generation has been taken, no task that was there before has it. -/
theorem Coherent.recorded_advance (h : o.Coherent) (hrecorded : o.Recorded) {latest : Option Run} :
    Recorded { o.advance with latest := latest } := by
  intro k task run htask hending
  have hbefore := getElem?_of_finished_cancel htask hending
  refine ⟨(hrecorded k task run hbefore hending).1, fun hcurrent => ?_⟩
  have hle := h.task_le k task hbefore
  have hadvance : task.generation = o.generation + 1 := hcurrent
  omega

theorem Coherent.recorded_change {action : Action} (h : o.Coherent) (hrecorded : o.Recorded)
    (hchange : o.Change action next) (hoffered : ∀ run, action ≠ .accept run) : next.Recorded := by
  cases hchange with
  | started pipeline page =>
      intro k task run htask hending
      rcases getElem?_append_singleton htask with hold | ⟨-, rfl⟩
      · exact h.recorded_advance hrecorded k task run hold hending
      · simp [Task.ending?] at hending
  | cancelled =>
      intro k task run htask hending
      rw [generation_cancel, latest_cancel]
      exact hrecorded k task run (getElem?_of_finished_cancel htask hending) hending
  | rejected failure => exact h.recorded_advance hrecorded
  | accepted run => exact absurd rfl (hoffered run)
  | unchanged => exact hrecorded
  | moved k task conclusion? next action haction htask hmove =>
      intro j other run hother hending
      have hcurrent := (h.pending k task htask hmove.isDone_eq_false).2
      obtain ⟨later, hlater, hkeeps, -⟩ := (h.extends_move htask hmove).tasks k task htask
      by_cases hj : j = k
      · subst hj
        obtain rfl : other = later := Option.some.inj (hother.symm.trans hlater)
        have hended : next.ending? j = some (.finished run) := by simp [ending?, hother, hending]
        obtain ⟨hlatest, hgeneration⟩ := hmove.latest_of_finished htask hended
        exact ⟨hgeneration.trans hkeeps.symm, fun _ => hlatest⟩
      · -- only the task that moves has the current generation
        have hnot : other.generation ≠ next.generation := fun heq =>
          hj ((h.move htask hmove).index_eq hother hlater
            (by rw [heq, hkeeps, hcurrent, hmove.generation_eq]))
        obtain ⟨moved, htasks, -⟩ := hmove.tasks_eq
        rw [htasks, List.getElem?_set_ne (Ne.symm hj)] at hother
        exact ⟨(hrecorded j other run hother hending).1, fun heq => absurd heq hnot⟩

/-- What is shown after some actions is never stale, and stays so. -/
structure NeverStale (actions : List Action) (o : Orchestrator) : Prop where
  /-- A generation is taken by each start and each record of a refused run, and by nothing else. -/
  generation : ∀ action,
    (o.perform action).generation = o.generation + if action.advances then 1 else 0
  /-- A pending run is the only one and has the current generation. -/
  pending : ∀ (j k : Nat) (first second : Task), o.tasks[j]? = some first →
    o.tasks[k]? = some second → first.isDone = false → second.isDone = false →
      j = k ∧ first.generation = o.generation
  /-- A cancel, a start and the record of a refused run end what is pending. -/
  cancelled : ∀ action, action.cancels = true → ∀ (k : Nat) (task : Task),
    o.tasks[k]? = some task → task.isDone = false →
      (o.perform action).ending? k = some .cancelled
  /-- Listeners are told of results in order. -/
  events : o.events.Pairwise RunEvent.Before
  /-- Whatever happens later, no more is told of a run that has ended, and the latest run is never
  of an older generation. -/
  later : ∀ later, o.Extends (o.performAll later)
  /-- The latest run changes only to a run of the current generation. -/
  latest : ∀ action, (o.perform action).latest = o.latest ∨
    ∃ run, (o.perform action).latest = some run ∧
      run.generation = (o.perform action).generation ∧ o.Brings (o.perform action) run action
  /-- Where a task ended in another way than with a run, no run of its generation is the latest,
  unless such a run was offered. -/
  earned : ∀ run, o.latest = some run → .accept run ∉ actions → ∀ (k : Nat) (task : Task),
    o.tasks[k]? = some task → task.generation = run.generation →
      task.ending? = some (.finished run)

/-- No run that is stale is ever shown, whatever happens to an orchestrator, in whatever order. -/
theorem no_stale_overwrite {collection : String} {pageSize : Int} {timeout : Double}
    {source : Source} {new : Orchestrator}
    (hnew : create collection pageSize timeout source = .ok new) (actions : List Action) :
    NeverStale actions (new.performAll actions) := by
  have hcreated := coherent_of_create hnew
  have h := hcreated.performAll actions
  constructor
  case generation =>
    intro action
    exact generation_of_change (change_perform _ action)
  case pending =>
    intro j k first second hfirst hsecond hopen hopen'
    obtain ⟨hheld, hcurrent⟩ := h.pending j first hfirst hopen
    have hheld' := (h.pending k second hsecond hopen').1
    exact ⟨Option.some.inj (hheld.symm.trans hheld'), hcurrent⟩
  case cancelled =>
    intro action hcancels k task htask hopen
    exact h.ending?_of_cancels (change_perform _ action) hcancels htask hopen
  case events => exact h.events
  case later => exact h.extends_performAll
  case latest =>
    intro action
    exact latest_of_change (change_perform _ action)
  case earned =>
    have hearned : new.Earned (.accept · ∈ actions) := by
      obtain rfl := create_eq_ok hnew
      intro run hrun
      cases hrun
    exact hcreated.earned_performAll hearned actions fun run hrun => hrun

/-- A run that is blocked when another starts is cancelled, and the other becomes the latest; that
its reads end afterwards changes nothing. -/
theorem no_stale_overwrite_of_blocked_run :
    ∃ new, create "orders" 20 (.infinite false) .none = .ok new ∧
      let actions : List Action :=
        [.start ⟨[⟨"only", ⟨"$match", .object []⟩⟩], []⟩ 1, .step 0, .start .empty 1,
          .conclude 0 (.fetched [] 0), .step 1]
      NeverStale actions (new.performAll actions) ∧
        (new.performAll actions).ending? 0 = some .cancelled ∧
        (new.performAll actions).latest = some ⟨2, [], none⟩ := by
  have hnew : create "orders" 20 (.infinite false) .none =
      .ok ⟨"orders", 20, .infinite false, .none, [], 0, none, [], none, [], []⟩ := rfl
  exact ⟨_, hnew, no_stale_overwrite hnew _, rfl, rfl⟩

end StageChain.Orchestrator
