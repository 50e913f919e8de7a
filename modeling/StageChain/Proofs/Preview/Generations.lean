import StageChain.Proofs.Preview.Schedule

/-!
# Generations of runs

Each run has a generation of its own, and only the newest one can be running. `Coherent` is the
invariant behind this: only the task that is held can be pending, it has the current generation, and
no result of it has been told that it has not got. `Reachable.coherent` says that it holds of every
state that an orchestrator can come to.
-/

namespace StageChain

/-- An event comes before another: its run is older, or in the same run its result is earlier. -/
def RunEvent.Before (first second : RunEvent) : Prop :=
  first.generation < second.generation ∨
    first.generation = second.generation ∧ first.result.index < second.result.index

namespace Task

@[simp]
theorem generation_cancel (task : Task) : task.cancel.generation = task.generation := by
  unfold cancel
  split <;> rfl

@[simp]
theorem isDone_cancel (task : Task) : task.cancel.isDone = true := by
  unfold cancel
  split
  · assumption
  · rfl

theorem isDone_of_ending? {task : Task} {ending : Ending} (h : task.ending? = some ending) :
    task.isDone = true := by
  unfold ending? at h
  unfold isDone
  cases hphase : task.phase <;> simp_all

theorem isSome_ending? (task : Task) : task.ending?.isSome = task.isDone := by
  unfold ending? isDone
  cases task.phase <;> rfl

theorem cancel_of_isDone {task : Task} (h : task.isDone = true) : task.cancel = task := by
  rw [cancel, if_pos h]

end Task

namespace Orchestrator

variable {o next : Orchestrator} {j k : Nat} {task later : Task} {run : Run}
  {conclusion? : Option Conclusion}

/-! ## The invariant -/

/-- What holds of every state that an orchestrator can come to. -/
structure Coherent (o : Orchestrator) : Prop where
  /-- Only the task that is held can be pending, and it has the current generation. -/
  pending : ∀ (k : Nat) (task : Task), o.tasks[k]? = some task → task.isDone = false →
    o.held = some k ∧ task.generation = o.generation
  /-- Later tasks have later generations. -/
  generations : (o.tasks.map Task.generation).Pairwise (· < ·)
  task_le : ∀ (k : Nat) (task : Task), o.tasks[k]? = some task → task.generation ≤ o.generation
  /-- Listeners are told of results in order. -/
  events : o.events.Pairwise RunEvent.Before
  event_le : ∀ event ∈ o.events, event.generation ≤ o.generation
  /-- A pending task has got every result of its run that was told. -/
  event_lt : ∀ event ∈ o.events, ∀ (k : Nat) (task : Task), o.tasks[k]? = some task →
    task.isDone = false → event.generation = task.generation →
    event.result.index < task.results.length
  latest_le : ∀ run : Run, o.latest = some run → run.generation ≤ o.generation

/-- No task is pending. -/
def Idle (o : Orchestrator) : Prop :=
  ∀ (k : Nat) (task : Task), o.tasks[k]? = some task → task.isDone = true

theorem Idle.not_pending (h : o.Idle) (htask : o.tasks[k]? = some task) :
    task.isDone ≠ false := by
  simp [h k task htask]

theorem create_eq_ok {collection : String} {pageSize : Int} {timeout : Double} {source : Source}
    (h : create collection pageSize timeout source = .ok o) :
    o = ⟨collection, pageSize, timeout, source, [], 0, none, [], none, [], []⟩ := by
  unfold create at h
  split at h
  · cases h
  · exact (Except.ok.inj h).symm

theorem coherent_of_create {collection : String} {pageSize : Int} {timeout : Double}
    {source : Source} (h : create collection pageSize timeout source = .ok o) : o.Coherent := by
  obtain rfl := create_eq_ok h
  constructor <;> simp

/-- Two tasks of one generation are the same. -/
theorem Coherent.index_eq (h : o.Coherent) {first second : Task}
    (hfirst : o.tasks[j]? = some first) (hsecond : o.tasks[k]? = some second)
    (heq : first.generation = second.generation) : j = k := by
  obtain ⟨hj, rfl⟩ := List.getElem?_eq_some_iff.1 hfirst
  obtain ⟨hk, rfl⟩ := List.getElem?_eq_some_iff.1 hsecond
  have hlt := List.pairwise_iff_getElem.1 h.generations
  simp only [List.length_map, List.getElem_map] at hlt
  rcases Nat.lt_trichotomy j k with hjk | hjk | hjk
  · exact absurd heq (Nat.ne_of_lt (hlt j k hj hk hjk))
  · exact hjk
  · exact absurd heq.symm (Nat.ne_of_lt (hlt k j hk hj hjk))

/-! ## Cancelling and starting -/

theorem getElem?_tasks_cancel (o : Orchestrator) (k : Nat) :
    o.cancel.tasks[k]? =
      o.tasks[k]?.map fun task => if o.held = some k then task.cancel else task := by
  unfold cancel
  cases hheld : o.held with
  | none => simp
  | some held =>
      simp only [List.getElem?_modify, Option.some.injEq]
      by_cases hk : held = k <;> simp [hk]

@[simp]
theorem generation_cancel (o : Orchestrator) : o.cancel.generation = o.generation := by
  unfold cancel
  split <;> rfl

@[simp]
theorem events_cancel (o : Orchestrator) : o.cancel.events = o.events := by
  unfold cancel
  split <;> rfl

@[simp]
theorem latest_cancel (o : Orchestrator) : o.cancel.latest = o.latest := by
  unfold cancel
  split <;> rfl

@[simp]
theorem log_cancel (o : Orchestrator) : o.cancel.log = o.log := by
  unfold cancel
  split <;> rfl

theorem map_generation_cancel (o : Orchestrator) :
    o.cancel.tasks.map Task.generation = o.tasks.map Task.generation := by
  refine List.ext_getElem? fun k => ?_
  rw [List.getElem?_map, List.getElem?_map, getElem?_tasks_cancel, Option.map_map]
  refine congrArg (Option.map · o.tasks[k]?) (funext fun task => ?_)
  simp only [Function.comp]
  split <;> simp

theorem length_tasks_cancel (o : Orchestrator) : o.cancel.tasks.length = o.tasks.length := by
  have hmap := congrArg List.length o.map_generation_cancel
  simpa using hmap

/-- After cancelling nothing is pending. -/
theorem Coherent.idle_cancel (h : o.Coherent) : o.cancel.Idle := by
  intro k task htask
  rw [getElem?_tasks_cancel] at htask
  obtain ⟨before, hbefore, rfl⟩ := Option.map_eq_some_iff.1 htask
  split
  · simp
  · rename_i hheld
    cases hdone : before.isDone with
    | true => rfl
    | false => exact absurd (h.pending k before hbefore hdone).1 hheld

theorem Coherent.cancel (h : o.Coherent) : o.cancel.Coherent := by
  have hidle := h.idle_cancel
  constructor
  case pending =>
    intro k task htask hopen
    exact absurd hopen (hidle.not_pending htask)
  case generations =>
    rw [map_generation_cancel]
    exact h.generations
  case task_le =>
    intro k task htask
    rw [getElem?_tasks_cancel] at htask
    obtain ⟨before, hbefore, rfl⟩ := Option.map_eq_some_iff.1 htask
    rw [generation_cancel]
    split
    · simpa using h.task_le k before hbefore
    · exact h.task_le k before hbefore
  case events =>
    rw [events_cancel]
    exact h.events
  case event_le =>
    rw [events_cancel, generation_cancel]
    exact h.event_le
  case event_lt =>
    intro event _ k task htask hopen
    exact absurd hopen (hidle.not_pending htask)
  case latest_le =>
    rw [latest_cancel, generation_cancel]
    exact h.latest_le

/-- Taking the next generation keeps everything in order, since nothing is pending then. -/
theorem Coherent.advance (h : o.Coherent) : o.advance.Coherent := by
  have hidle : o.advance.Idle := h.idle_cancel
  have hcancel := h.cancel
  have hgeneration : o.cancel.generation ≤ o.advance.generation := by
    rw [generation_cancel]
    exact Nat.le_succ _
  constructor
  case pending =>
    intro k task htask hopen
    exact absurd hopen (hidle.not_pending htask)
  case generations => exact hcancel.generations
  case task_le =>
    intro k task htask
    exact Nat.le_trans (hcancel.task_le k task htask) hgeneration
  case events => exact hcancel.events
  case event_le =>
    intro event hevent
    exact Nat.le_trans (hcancel.event_le event hevent) hgeneration
  case event_lt =>
    intro event _ k task htask hopen
    exact absurd hopen (hidle.not_pending htask)
  case latest_le =>
    intro run hrun
    exact Nat.le_trans (hcancel.latest_le run hrun) hgeneration

theorem Coherent.setLatest (h : o.Coherent) (hle : run.generation ≤ o.generation) :
    Coherent { o with latest := some run } where
  pending := h.pending
  generations := h.generations
  task_le := h.task_le
  events := h.events
  event_le := h.event_le
  event_lt := h.event_lt
  latest_le := by
    intro other hother
    obtain rfl := Option.some.inj hother
    exact hle

/-- Where nothing is in flight, nothing is pending. -/
theorem Coherent.idle_of_inFlight (h : o.Coherent) (hfree : o.inFlight = false) : o.Idle := by
  intro k task htask
  cases hdone : task.isDone with
  | true => rfl
  | false =>
      have hheld := (h.pending k task htask hdone).1
      simp [inFlight, hheld, htask, hdone] at hfree

/-- Every task after a start is an old one or the new one. -/
theorem getElem?_append_singleton {tasks : List Task} {new : Task}
    (h : (tasks ++ [new])[k]? = some task) :
    tasks[k]? = some task ∨ k = tasks.length ∧ task = new := by
  rcases Nat.lt_or_ge k tasks.length with hk | hk
  · rw [List.getElem?_append_left hk] at h
    exact .inl h
  · rw [List.getElem?_append_right hk, List.getElem?_singleton] at h
    split at h
    · exact .inr ⟨by omega, (Option.some.inj h).symm⟩
    · cases h

/-- The task that is started is the only pending one. -/
theorem Coherent.start (h : o.Coherent) (pipeline : Pipeline) (page : Int) :
    Coherent { o.advance with
      held := some o.advance.tasks.length
      tasks := o.advance.tasks ++ [⟨o.advance.generation, pipeline, page, [], .ready⟩] } := by
  have hidle : o.advance.Idle := h.idle_cancel
  have hadvance := h.advance
  have hlt : ∀ event ∈ o.advance.events, event.generation < o.advance.generation := by
    intro event hevent
    have hevents : o.advance.events = o.events := o.events_cancel
    rw [hevents] at hevent
    exact Nat.lt_succ_of_le (h.event_le event hevent)
  have htasks : ∀ task ∈ o.advance.tasks, task.generation < o.advance.generation := by
    intro task htask
    obtain ⟨k, hk⟩ := List.getElem?_of_mem htask
    have hle := h.cancel.task_le k task hk
    rw [generation_cancel] at hle
    exact Nat.lt_succ_of_le hle
  constructor
  case pending =>
    intro k task htask hopen
    rcases getElem?_append_singleton htask with hold | ⟨rfl, rfl⟩
    · exact absurd hopen (hidle.not_pending hold)
    · exact ⟨rfl, rfl⟩
  case generations =>
    rw [List.map_append, List.pairwise_append]
    refine ⟨hadvance.generations, by simp, ?_⟩
    intro first hfirst second hsecond
    obtain ⟨task, htask, rfl⟩ := List.mem_map.1 hfirst
    obtain rfl : second = o.advance.generation := by simpa using hsecond
    exact htasks task htask
  case task_le =>
    intro k task htask
    rcases getElem?_append_singleton htask with hold | ⟨rfl, rfl⟩
    · exact hadvance.task_le k task hold
    · exact Nat.le_refl _
  case events => exact hadvance.events
  case event_le => exact hadvance.event_le
  case event_lt =>
    intro event hevent k task htask hopen heq
    rcases getElem?_append_singleton htask with hold | ⟨rfl, rfl⟩
    · exact absurd hopen (hidle.not_pending hold)
    · exact absurd heq (Nat.ne_of_lt (hlt event hevent))
  case latest_le => exact hadvance.latest_le

/-- What is pending after a start is the run that was started. -/
theorem Coherent.eq_of_start {pipeline : Pipeline} {page : Int} (h : o.Coherent) (hpage : 1 ≤ page)
    (htask : (o.perform (.start pipeline page)).tasks[k]? = some task)
    (hopen : task.isDone = false) : task = ⟨o.generation + 1, pipeline, page, [], .ready⟩ := by
  have hidle : o.advance.Idle := h.idle_cancel
  rw [perform_start o pipeline hpage] at htask
  rcases getElem?_append_singleton htask with hold | ⟨-, hnew⟩
  · exact absurd hopen (hidle.not_pending hold)
  · exact hnew

/-- Nothing is pending once a refused run has been recorded. -/
theorem Coherent.idle_reject (h : o.Coherent) (failure : Failure) :
    (o.perform (.reject failure)).Idle := by
  rw [perform_reject]
  exact h.idle_cancel

theorem log_start (o : Orchestrator) (pipeline : Pipeline) (page : Int) :
    (o.perform (.start pipeline page)).log = o.log := by
  by_cases hpage : 1 ≤ page
  · rw [perform_start o pipeline hpage]
    exact o.log_cancel
  · simp [perform, start, Int.not_le.1 hpage, Except.toOption]

theorem log_reject (o : Orchestrator) (failure : Failure) :
    (o.perform (.reject failure)).log = o.log := by
  rw [perform_reject]
  exact o.log_cancel

/-! ## Steps of tasks -/

/-- The invariant does not look at the reads, nor at what they meet. -/
theorem Coherent.congr (h : o.Coherent) (hgeneration : next.generation = o.generation)
    (hheld : next.held = o.held) (htasks : next.tasks = o.tasks) (hevents : next.events = o.events)
    (hlatest : next.latest = o.latest) : next.Coherent := by
  constructor
  case pending =>
    rw [hgeneration, hheld, htasks]
    exact h.pending
  case generations =>
    rw [htasks]
    exact h.generations
  case task_le =>
    rw [hgeneration, htasks]
    exact h.task_le
  case events =>
    rw [hevents]
    exact h.events
  case event_le =>
    rw [hgeneration, hevents]
    exact h.event_le
  case event_lt =>
    rw [hevents, htasks]
    exact h.event_lt
  case latest_le =>
    rw [hgeneration, hlatest]
    exact h.latest_le

theorem getElem?_setTask (htask : o.tasks[k]? = some task) (later : Task) (j : Nat) :
    (o.setTask k later).tasks[j]? = if k = j then some later else o.tasks[j]? := by
  obtain ⟨hk, -⟩ := List.getElem?_eq_some_iff.1 htask
  simp only [setTask, List.getElem?_set, hk, if_true]

theorem getElem?_setTask_self (htask : o.tasks[k]? = some task) (later : Task) :
    (o.setTask k later).tasks[k]? = some later := by
  rw [getElem?_setTask htask, if_pos rfl]

theorem map_generation_setTask (htask : o.tasks[k]? = some task)
    (hgeneration : later.generation = task.generation) :
    (o.setTask k later).tasks.map Task.generation = o.tasks.map Task.generation := by
  refine List.ext_getElem? fun j => ?_
  rw [List.getElem?_map, List.getElem?_map, getElem?_setTask htask]
  split
  · rename_i hj
    rw [← hj, htask, Option.map_some, Option.map_some, hgeneration]
  · rfl

/-- A pending task may get more results and may end. -/
theorem Coherent.setTask (h : o.Coherent) (htask : o.tasks[k]? = some task)
    (hopen : task.isDone = false) (hgeneration : later.generation = task.generation)
    (hresults : task.results.length ≤ later.results.length) : (o.setTask k later).Coherent := by
  obtain ⟨hheld, hcurrent⟩ := h.pending k task htask hopen
  constructor
  case pending =>
    intro j other hother hpending
    rw [getElem?_setTask htask] at hother
    split at hother
    · rename_i hj
      obtain rfl := Option.some.inj hother
      exact ⟨hj ▸ hheld, hgeneration.trans hcurrent⟩
    · exact h.pending j other hother hpending
  case generations =>
    rw [map_generation_setTask htask hgeneration]
    exact h.generations
  case task_le =>
    intro j other hother
    rw [getElem?_setTask htask] at hother
    split at hother
    · obtain rfl := Option.some.inj hother
      exact Nat.le_of_eq (hgeneration.trans hcurrent)
    · exact h.task_le j other hother
  case events => exact h.events
  case event_le => exact h.event_le
  case event_lt =>
    intro event hevent j other hother hpending heq
    rw [getElem?_setTask htask] at hother
    split at hother
    · obtain rfl := Option.some.inj hother
      have hlt := h.event_lt event hevent k task htask hopen (heq.trans hgeneration)
      omega
    · exact h.event_lt event hevent j other hother hpending heq
  case latest_le => exact h.latest_le

/-- A pending task may get its next result, of which listeners are told. -/
theorem Coherent.tell {result : StageResult} (h : o.Coherent) (htask : o.tasks[k]? = some task)
    (hopen : task.isDone = false) (hgeneration : later.generation = task.generation)
    (hindex : result.index = task.results.length)
    (hresults : later.results.length = task.results.length + 1) :
    Coherent { o.setTask k later with events := o.events ++ [⟨task.generation, result⟩] } := by
  obtain ⟨-, hcurrent⟩ := h.pending k task htask hopen
  have hset : (o.setTask k later).Coherent := h.setTask htask hopen hgeneration (by omega)
  constructor
  case pending => exact hset.pending
  case generations => exact hset.generations
  case task_le => exact hset.task_le
  case events =>
    refine List.pairwise_append.2 ⟨h.events, List.pairwise_singleton _ _, ?_⟩
    intro event hevent new hnew
    obtain rfl := List.mem_singleton.1 hnew
    -- an earlier event of the same run is of one of the results that the task already has
    rcases Nat.lt_or_eq_of_le (h.event_le event hevent) with hlt | heq
    · exact .inl (hcurrent ▸ hlt)
    · have hsame : event.generation = task.generation := by omega
      have hlt := h.event_lt event hevent k task htask hopen hsame
      exact .inr ⟨hsame, by simpa [hindex] using hlt⟩
  case event_le =>
    intro event hevent
    rcases List.mem_append.1 hevent with hold | hnew
    · exact h.event_le event hold
    · obtain rfl := List.mem_singleton.1 hnew
      exact Nat.le_of_eq hcurrent
  case event_lt =>
    intro event hevent j other hother hpending heq
    rcases List.mem_append.1 hevent with hold | hnew
    · exact hset.event_lt event hold j other hother hpending heq
    · obtain rfl := List.mem_singleton.1 hnew
      have hlater := getElem?_setTask_self htask later
      obtain rfl : k = j := hset.index_eq hlater hother (hgeneration.trans heq)
      obtain rfl : later = other := Option.some.inj (hlater.symm.trans hother)
      simp only [hindex, hresults]
      omega
  case latest_le => exact hset.latest_le

theorem Coherent.move (h : o.Coherent) (htask : o.tasks[k]? = some task)
    (hmove : o.Move k task conclusion? next) : next.Coherent := by
  have hopen := hmove.isDone_eq_false
  cases hmove with
  | began =>
      have hset : (o.setTask k { task with
          phase := .reading (o.readsFor task.pipeline task.page task.results.length) }).Coherent :=
        h.setTask htask hopen rfl (Nat.le_refl _)
      exact hset.congr rfl rfl rfl rfl rfl
  | dropped => exact h.setTask htask hopen rfl (Nat.le_refl _)
  | told reads conclusion result hphase hcurrent houtcome =>
      have hgives := StageRequest.gives_of_outcome houtcome
      exact h.tell htask hopen rfl hgives.index_eq (by simp)
  | finished reads conclusion result failure hphase hcurrent houtcome =>
      have hgives := StageRequest.gives_of_outcome houtcome
      refine Coherent.setLatest (h.tell htask hopen ?_ hgives.index_eq ?_) (Nat.le_of_eq hcurrent)
      · rfl
      · simp
  | completed hphase hcurrent =>
      refine Coherent.setLatest (h.setTask htask hopen ?_ ?_) (Nat.le_of_eq hcurrent)
      · rfl
      · exact Nat.le_refl _

theorem Coherent.change {action : Action} (h : o.Coherent) (hchange : o.Change action next) :
    next.Coherent := by
  cases hchange with
  | started pipeline page => exact h.start pipeline page
  | cancelled => exact h.cancel
  | rejected failure => exact h.advance.setLatest (Nat.le_refl _)
  | accepted run hcurrent => exact h.setLatest (Nat.le_of_eq hcurrent)
  | moved k task conclusion? next action haction htask hmove => exact h.move htask hmove
  | unchanged => exact h.congr rfl rfl rfl rfl rfl

theorem Coherent.performAll (h : o.Coherent) (actions : List Action) :
    (o.performAll actions).Coherent := by
  induction actions generalizing o with
  | nil => exact h
  | cons action rest ih => exact ih (h.change (o.change_perform action))

/-- The invariant holds of every state that can be reached. -/
theorem Reachable.coherent (h : o.Reachable) : o.Coherent := by
  obtain ⟨_, _, _, _, new, actions, hnew, rfl⟩ := h
  exact (coherent_of_create hnew).performAll actions

end Orchestrator

end StageChain
