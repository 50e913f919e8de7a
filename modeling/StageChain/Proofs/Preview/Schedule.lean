import StageChain.Preview.Orchestrator

/-!
# What can happen to an orchestrator

An `Action` is an operation on an orchestrator, a change of what its reads meet, or a step of one of
its tasks; a schedule is a list of actions in any order. Reads may end in any way and at any time.
`Move` says in one place everything that a step of a task can do, and `move_of_step?` and
`move_of_conclude` that it does say so. All that is waited for by `Orchestrator.settle` and
`Orchestrator.await` are schedules as well.
-/

namespace StageChain

namespace StageRequest

/-- A result that a request can lead to: what was fetched, or a failure that says something. -/
def Gives (request : StageRequest) (result : StageResult) : Prop :=
  (∃ documents count, result = request.fetched documents count) ∨
    ∃ message, message ≠ "" ∧ result = request.failed message

theorem refusalText_ne_empty (message : String) : refusalText message ≠ "" := by
  by_cases h : message.isEmpty
  · rw [refusalText, if_pos h]
    simp
  · rw [refusalText, if_neg h]
    simpa using h

theorem timeoutText_ne_empty (timeout : Double) : timeoutText timeout ≠ "" := by
  intro h
  have htext : "Stage timed out after " ++ timeout.brief ++ "s" = "" := h
  have hstart := (String.append_eq_empty_iff.1 (String.append_eq_empty_iff.1 htext).1).1
  simp at hstart

variable {request : StageRequest} {result : StageResult} {conclusion : Conclusion}

theorem gives_of_outcome (h : request.outcome conclusion = .result result) :
    request.Gives result := by
  cases conclusion with
  | fetched documents count =>
      cases h
      exact .inl ⟨documents, count, rfl⟩
  | failed fault =>
      cases fault with
      | refused message =>
          cases h
          exact .inr ⟨_, refusalText_ne_empty message, rfl⟩
      | crashed crash => cases h
  | interrupted interruption =>
      cases interruption with
      | cancelled => cases h
      | timedOut =>
          cases h
          exact .inr ⟨_, timeoutText_ne_empty _, rfl⟩

namespace Gives

theorem index_eq (h : request.Gives result) : result.index = request.index := by
  rcases h with ⟨_, _, rfl⟩ | ⟨_, _, rfl⟩ <;> rfl

theorem nodeId_eq (h : request.Gives result) : result.nodeId = request.nodeId := by
  rcases h with ⟨_, _, rfl⟩ | ⟨_, _, rfl⟩ <;> rfl

theorem page_eq (h : request.Gives result) : result.page = request.page := by
  rcases h with ⟨_, _, rfl⟩ | ⟨_, _, rfl⟩ <;> rfl

end Gives

end StageRequest

namespace Orchestrator

/-! ## Actions and schedules -/

/-- What can happen to an orchestrator. -/
inductive Action where
  | start (pipeline : Pipeline) (page : Int)
  | cancel
  | reject (failure : Failure)
  | accept (run : Run)
  | release (gate : String)
  /-- Reads that begin later are answered by another source. -/
  | script (source : Source)
  /-- A task goes on, if it can. -/
  | step (task : Nat)
  /-- The reads that a task waits for end in some way. -/
  | conclude (task : Nat) (conclusion : Conclusion)

namespace Action

/-- Whether the action takes the next generation: a start of a run, if its page is at least 1, and
the record of a refused one. -/
def advances : Action → Bool
  | .start _ page => decide (1 ≤ page)
  | .reject _ => true
  | _ => false

/-- Whether the action cancels what is pending. -/
def cancels : Action → Bool
  | .cancel => true
  | action => action.advances

/-- The task that the action lets go on, if any. -/
def task? : Action → Option Nat
  | .step k => some k
  | .conclude k _ => some k
  | _ => none

end Action

/-- Lets the reads of a task end, if it waits for reads. -/
def concludeReads (o : Orchestrator) (k : Nat) (conclusion : Conclusion) : Orchestrator :=
  match o.tasks[k]? with
  | none => o
  | some task =>
    match task.phase with
    | .reading _ => o.conclude k task conclusion
    | _ => o

/-- The orchestrator after an action; an operation that fails and a step that is not possible leave
it as it is. -/
def perform (o : Orchestrator) : Action → Orchestrator
  | .start pipeline page => (o.start pipeline page).toOption.getD o
  | .cancel => o.cancel
  | .reject failure => o.reject failure
  | .accept run => o.accept run
  | .release gate => o.release gate
  | .script source => { o with source := source }
  | .step k => (o.step? k).getD o
  | .conclude k conclusion => o.concludeReads k conclusion

/-- The orchestrator after a schedule. -/
def performAll (o : Orchestrator) (actions : List Action) : Orchestrator := actions.foldl perform o

theorem performAll_cons (o : Orchestrator) (action : Action) (actions : List Action) :
    o.performAll (action :: actions) = (o.perform action).performAll actions := rfl

theorem performAll_append (o : Orchestrator) (first second : List Action) :
    o.performAll (first ++ second) = (o.performAll first).performAll second := List.foldl_append

/-- The states that an orchestrator can come to from its creation. -/
def Reachable (o : Orchestrator) : Prop :=
  ∃ collection pageSize timeout source new actions,
    create collection pageSize timeout source = .ok new ∧ o = new.performAll actions

theorem Reachable.performAll {o : Orchestrator} (h : o.Reachable) (actions : List Action) :
    (o.performAll actions).Reachable := by
  obtain ⟨collection, pageSize, timeout, source, new, before, hnew, rfl⟩ := h
  exact ⟨collection, pageSize, timeout, source, new, before ++ actions, hnew,
    (performAll_append new before actions).symm⟩

/-! ## Everything that a step of a task can do -/

/-- The two reads of a prefix, the page first. -/
def readsAt (o : Orchestrator) (pipeline : Pipeline) (page : Int) (length : Nat) : List Read :=
  [Source.pageRead o.collection (pipeline.take length).documents o.pageSize page,
    Source.countRead o.collection (pipeline.take length).documents]

/-- What a run ends with after a result: the failure of a failed result, or nothing after the good
result of the last prefix. -/
def Closes (task : Task) (result : StageResult) (failure : Option Failure) : Prop :=
  (result.error = none ∧ task.pipeline.size ≤ task.results.length + 1 ∧ failure = none) ∨
    ∃ message, result.error = some message ∧ failure = some (.execution result.nodeId message)

/-- What the two reads of a prefix wait for and how they end, given the index of its last stage. -/
def readsFor (o : Orchestrator) (pipeline : Pipeline) (page : Int) (index : Nat) :
    ReadsInProgress :=
  let stages := (pipeline.take (index + 1)).documents
  { barrier := o.source.barrier stages
    page := o.source.documents (Source.pageRead o.collection stages o.pageSize page)
    count := o.source.total (Source.countRead o.collection stages) }

/-- How reads end if they are waited for: by running out of time where they are blocked. -/
def conclusionOf (o : Orchestrator) (reads : ReadsInProgress) : Conclusion :=
  if o.isInstant || !o.isOpen reads.barrier then .interrupted .timedOut
  else ReadPair.outcome reads.page reads.count

/-- The steps of a task that has not ended, each with how reads ended in it, if they did. -/
inductive Move (o : Orchestrator) (k : Nat) (task : Task) : Option Conclusion → Orchestrator → Prop
    where
  /-- The reads of the next prefix begin. -/
  | began (hphase : task.phase = .ready) (hmore : task.results.length < task.pipeline.size) :
      Move o k task none
        { o.setTask k { task with
            phase := .reading (o.readsFor task.pipeline task.page task.results.length) } with
          log := o.log ++ o.readsAt task.pipeline task.page (task.results.length + 1) }
  /-- The task ends without a run that counts. -/
  | dropped (conclusion : Option Conclusion) (ending : Ending) (hopen : task.isDone = false)
      (hending : ∀ run, ending ≠ .finished run)
      (hwhy : task.generation ≠ o.generation ∨ ∃ concluded, conclusion = some concluded ∧
        ∀ result, (o.request task).outcome concluded ≠ .result result) :
      Move o k task conclusion (o.setTask k { task with phase := .ended ending })
  /-- A good result comes in, and prefixes remain. -/
  | told (reads : ReadsInProgress) (conclusion : Conclusion) (result : StageResult)
      (hphase : task.phase = .reading reads) (hcurrent : task.generation = o.generation)
      (houtcome : (o.request task).outcome conclusion = .result result)
      (hgood : result.error = none) (hmore : task.results.length + 1 < task.pipeline.size) :
      Move o k task (some conclusion)
        { o.setTask k { task with results := task.results ++ [result], phase := .ready } with
          events := o.events ++ [⟨task.generation, result⟩] }
  /-- The last result comes in, and the run becomes the latest. -/
  | finished (reads : ReadsInProgress) (conclusion : Conclusion) (result : StageResult)
      (failure : Option Failure) (hphase : task.phase = .reading reads)
      (hcurrent : task.generation = o.generation)
      (houtcome : (o.request task).outcome conclusion = .result result)
      (hcloses : Closes task result failure) :
      Move o k task (some conclusion)
        { o.setTask k { task with
            results := task.results ++ [result]
            phase := .ended (.finished ⟨task.generation, task.results ++ [result], failure⟩) } with
          events := o.events ++ [⟨task.generation, result⟩]
          latest := some ⟨task.generation, task.results ++ [result], failure⟩ }
  /-- Nothing is left to run, and the run becomes the latest. -/
  | completed (hphase : task.phase = .ready) (hcurrent : task.generation = o.generation)
      (hall : task.pipeline.size ≤ task.results.length) :
      Move o k task none
        { o.setTask k { task with phase := .ended (.finished (task.run none)) } with
          latest := some (task.run none) }

variable {o next : Orchestrator} {k : Nat} {task : Task} {conclusion? : Option Conclusion}

theorem finish_of_current (failure : Option Failure) (hcurrent : task.generation = o.generation) :
    o.finish k task failure =
      { o.setTask k { task with phase := .ended (.finished (task.run failure)) } with
        latest := some (task.run failure) } := by
  simp [finish, accept, isCurrent, Task.run, setTask, hcurrent]

theorem finish_of_not_current (failure : Option Failure)
    (hcurrent : task.generation ≠ o.generation) :
    o.finish k task failure = o.setTask k { task with phase := .ended .discarded } := by
  simp [finish, accept, isCurrent, Task.run, setTask, hcurrent]

theorem record_of_more {result : StageResult} (hgood : result.error = none)
    (hmore : task.results.length + 1 < task.pipeline.size) :
    o.record k task result =
      { o.setTask k { task with results := task.results ++ [result], phase := .ready } with
        events := o.events ++ [⟨task.generation, result⟩] } := by
  simp [record, hgood, hmore, setTask]

theorem record_of_closes {result : StageResult} {failure : Option Failure}
    (hcurrent : task.generation = o.generation) (hcloses : Closes task result failure) :
    o.record k task result =
      { o.setTask k { task with
          results := task.results ++ [result]
          phase := .ended (.finished ⟨task.generation, task.results ++ [result], failure⟩) } with
        events := o.events ++ [⟨task.generation, result⟩]
        latest := some ⟨task.generation, task.results ++ [result], failure⟩ } := by
  rcases hcloses with ⟨hgood, hlast, rfl⟩ | ⟨message, herror, rfl⟩
  · simp [record, hgood, Nat.not_lt.2 hlast, finish, accept, isCurrent, Task.run, setTask, hcurrent]
  · simp [record, herror, finish, accept, isCurrent, Task.run, setTask, hcurrent]

theorem move_of_record {reads : ReadsInProgress} {conclusion : Conclusion} {result : StageResult}
    (hphase : task.phase = .reading reads) (hcurrent : task.generation = o.generation)
    (houtcome : (o.request task).outcome conclusion = .result result) :
    o.Move k task (some conclusion) (o.record k task result) := by
  cases herror : result.error with
  | some message =>
      have hcloses : Closes task result (some (.execution result.nodeId message)) :=
        .inr ⟨message, herror, rfl⟩
      rw [record_of_closes hcurrent hcloses]
      exact .finished reads conclusion result _ hphase hcurrent houtcome hcloses
  | none =>
      by_cases hmore : task.results.length + 1 < task.pipeline.size
      · rw [record_of_more herror hmore]
        exact .told reads conclusion result hphase hcurrent houtcome herror hmore
      · have hcloses : Closes task result none := .inl ⟨herror, Nat.not_lt.1 hmore, rfl⟩
        rw [record_of_closes hcurrent hcloses]
        exact .finished reads conclusion result _ hphase hcurrent houtcome hcloses

/-- However the reads of a task end, that is a step in the sense of `Move`. -/
theorem move_of_conclude {reads : ReadsInProgress} (conclusion : Conclusion)
    (hphase : task.phase = .reading reads) :
    o.Move k task (some conclusion) (o.conclude k task conclusion) := by
  have hopen : task.isDone = false := by simp [Task.isDone, hphase]
  unfold conclude
  cases houtcome : (o.request task).outcome conclusion with
  | crashed crash =>
      exact .dropped _ _ hopen (fun _ h => by cases h) (.inr ⟨conclusion, rfl, by simp [houtcome]⟩)
  | cancelled =>
      exact .dropped _ _ hopen (fun _ h => by cases h) (.inr ⟨conclusion, rfl, by simp [houtcome]⟩)
  | result result =>
      by_cases hcurrent : task.generation = o.generation
      · simp only [hcurrent, if_true]
        exact move_of_record hphase hcurrent houtcome
      · simp only [hcurrent, if_false]
        exact .dropped _ _ hopen (fun _ h => by cases h) (.inl hcurrent)

/-- A step of a task is one of those that `Move` lists, and what its reads end with in it is what
they end with if they are waited for. -/
theorem move_of_step? (h : o.step? k = some next) :
    ∃ task conclusion?, o.tasks[k]? = some task ∧ o.Move k task conclusion? next ∧
      ∀ conclusion, conclusion? = some conclusion → ∃ reads, task.phase = .reading reads ∧
        conclusion = o.conclusionOf reads := by
  unfold step? at h
  cases htask : o.tasks[k]? with
  | none => simp [htask] at h
  | some task =>
      simp only [htask] at h
      cases hphase : task.phase with
      | ended ending => simp [hphase] at h
      | ready =>
          refine ⟨task, none, rfl, ?_, fun _ h => by cases h⟩
          simp only [hphase] at h
          split at h
          · rename_i hmore
            cases h
            exact .began hphase hmore
          · rename_i hmore
            cases h
            by_cases hcurrent : task.generation = o.generation
            · rw [finish_of_current _ hcurrent]
              exact .completed hphase hcurrent (Nat.not_lt.1 hmore)
            · rw [finish_of_not_current _ hcurrent]
              exact .dropped _ _ (by simp [Task.isDone, hphase]) (fun _ h => by cases h)
                (.inl hcurrent)
      | reading reads =>
          refine ⟨task, some (o.conclusionOf reads), rfl, ?_, fun conclusion h => ?_⟩
          · simp only [hphase] at h
            split at h
            · rename_i hinstant
              cases h
              simp only [conclusionOf, hinstant, Bool.true_or, if_true]
              exact move_of_conclude _ hphase
            · rename_i hinstant
              split at h
              · rename_i hbarrier
                cases h
                simp only [conclusionOf, hinstant, hbarrier]
                exact move_of_conclude _ hphase
              · cases h
          · exact ⟨reads, hphase, (Option.some.inj h).symm⟩

namespace Move

/-- Only a task that has not ended moves. -/
theorem isDone_eq_false (h : o.Move k task conclusion? next) : task.isDone = false := by
  cases h with
  | dropped _ ending hopen => exact hopen
  | began hphase => simp [Task.isDone, hphase]
  | told reads conclusion result hphase => simp [Task.isDone, hphase]
  | finished reads conclusion result failure hphase => simp [Task.isDone, hphase]
  | completed hphase => simp [Task.isDone, hphase]

theorem generation_eq (h : o.Move k task conclusion? next) : next.generation = o.generation := by
  cases h <;> rfl

theorem held_eq (h : o.Move k task conclusion? next) : next.held = o.held := by
  cases h <;> rfl

/-- A step leaves alone what reads meet. -/
theorem limits_eq (h : o.Move k task conclusion? next) :
    next.collection = o.collection ∧ next.pageSize = o.pageSize ∧ next.timeout = o.timeout ∧
      next.source = o.source ∧ next.released = o.released := by
  cases h <;> exact ⟨rfl, rfl, rfl, rfl, rfl⟩

/-- A step changes its own task only, and neither its generation nor what it runs. -/
theorem tasks_eq (h : o.Move k task conclusion? next) :
    ∃ later, next.tasks = o.tasks.set k later ∧ later.generation = task.generation ∧
      later.pipeline = task.pipeline ∧ later.page = task.page := by
  cases h <;> exact ⟨_, rfl, rfl, rfl, rfl⟩

/-- A step tells of at most one result, of the generation of its task. -/
theorem events_eq (h : o.Move k task conclusion? next) :
    next.events = o.events ∨ ∃ result, next.events = o.events ++ [⟨task.generation, result⟩] := by
  cases h with
  | began | dropped | completed => exact .inl rfl
  | told reads conclusion result | finished reads conclusion result => exact .inr ⟨result, rfl⟩

/-- A step gives a latest run only where its task ends with that run. -/
theorem latest_eq (h : o.Move k task conclusion? next) (htask : o.tasks[k]? = some task) :
    next.latest = o.latest ∨
      ∃ run, next.latest = some run ∧ run.generation = o.generation ∧
        next.ending? k = some (.finished run) := by
  obtain ⟨hk, -⟩ := List.getElem?_eq_some_iff.1 htask
  cases h with
  | began | dropped | told => exact .inl rfl
  | finished reads conclusion result failure hphase hcurrent =>
      refine .inr ⟨_, rfl, hcurrent, ?_⟩
      simp [ending?, setTask, hk, Task.ending?]
  | completed hphase hcurrent =>
      refine .inr ⟨_, rfl, hcurrent, ?_⟩
      simp [ending?, setTask, hk, Task.ending?]

/-- A task that a step ends with a run has made that run the latest. -/
theorem latest_of_finished {run : Run} (h : o.Move k task conclusion? next)
    (htask : o.tasks[k]? = some task) (hending : next.ending? k = some (.finished run)) :
    next.latest = some run ∧ run.generation = task.generation := by
  obtain ⟨hk, -⟩ := List.getElem?_eq_some_iff.1 htask
  cases h with
  | began | told => simp [ending?, setTask, hk, Task.ending?] at hending
  | dropped _ ending hopen hnot =>
      simp only [ending?, setTask, List.getElem?_set, hk, if_true, Option.bind_some, Task.ending?,
        Option.some.injEq] at hending
      exact absurd hending (hnot run)
  | finished | completed =>
      simp only [ending?, setTask, List.getElem?_set, hk, if_true, Option.bind_some, Task.ending?,
        Option.some.injEq, Ending.finished.injEq] at hending
      subst hending
      exact ⟨rfl, rfl⟩

/-- A step adds at most one result to its task, and then it tells of that result. -/
theorem results_eq (h : o.Move k task conclusion? next) :
    ∃ later news, next.tasks = o.tasks.set k later ∧ later.generation = task.generation ∧
      later.results = task.results ++ news ∧
      next.events = o.events ++ news.map (RunEvent.mk task.generation) ∧
      (news = [] ∨ task.generation = o.generation ∧ ∃ result, news = [result]) := by
  cases h with
  | began | dropped | completed =>
      exact ⟨_, [], rfl, rfl, (List.append_nil _).symm, (List.append_nil _).symm, .inl rfl⟩
  | told reads conclusion result _ hcurrent | finished reads conclusion result _ _ hcurrent =>
      exact ⟨_, [result], rfl, rfl, rfl, rfl, .inr ⟨hcurrent, result, rfl⟩⟩

end Move

/-! ## Everything that an action can do -/

/-- What actions do. -/
inductive Change (o : Orchestrator) : Action → Orchestrator → Prop where
  /-- A run is started, and its task is the last one. -/
  | started (pipeline : Pipeline) (page : Int) (hpage : 1 ≤ page) :
      Change o (.start pipeline page)
        { o.advance with
          held := some o.advance.tasks.length
          tasks := o.advance.tasks ++ [⟨o.advance.generation, pipeline, page, [], .ready⟩] }
  | cancelled : Change o .cancel o.cancel
  /-- A refused run becomes the latest. -/
  | rejected (failure : Failure) :
      Change o (.reject failure) { o.advance with latest := some (o.refusedRun failure) }
  /-- An offered run of the current generation becomes the latest. -/
  | accepted (run : Run) (hcurrent : run.generation = o.generation) :
      Change o (.accept run) { o with latest := some run }
  /-- A pending task goes on. -/
  | moved (k : Nat) (task : Task) (conclusion? : Option Conclusion) (next : Orchestrator)
      (action : Action) (haction : action.task? = some k) (htask : o.tasks[k]? = some task)
      (hmove : o.Move k task conclusion? next) : Change o action next
  /-- Nothing but what later reads meet. -/
  | unchanged (action : Action) (released : List String) (source : Source)
      (haction : action.cancels = false) :
      Change o action { o with released := released, source := source }

theorem accept_eq (o : Orchestrator) (run : Run) :
    o.accept run = if run.generation = o.generation then { o with latest := some run } else o := by
  simp [accept, isCurrent]

theorem perform_start (o : Orchestrator) (pipeline : Pipeline) {page : Int} (hpage : 1 ≤ page) :
    o.perform (.start pipeline page) =
      { o.advance with
        held := some o.advance.tasks.length
        tasks := o.advance.tasks ++ [⟨o.advance.generation, pipeline, page, [], .ready⟩] } := by
  simp [perform, start, Int.not_lt.2 hpage, Except.toOption]

theorem perform_reject (o : Orchestrator) (failure : Failure) :
    o.perform (.reject failure) = { o.advance with latest := some (o.refusedRun failure) } := by
  have hcurrent : (o.refusedRun failure).generation = o.advance.generation := rfl
  rw [perform, reject, accept_eq, if_pos hcurrent]

theorem change_start (o : Orchestrator) (pipeline : Pipeline) (page : Int) :
    o.Change (.start pipeline page) (o.perform (.start pipeline page)) := by
  by_cases hpage : 1 ≤ page
  · rw [perform_start o pipeline hpage]
    exact .started pipeline page hpage
  · have hperform : o.perform (.start pipeline page) = o := by
      simp [perform, start, Int.not_le.1 hpage, Except.toOption]
    rw [hperform]
    exact .unchanged _ o.released o.source (by simpa [Action.cancels, Action.advances] using hpage)

theorem change_step (o : Orchestrator) (k : Nat) : o.Change (.step k) (o.perform (.step k)) := by
  cases hstep : o.step? k with
  | none =>
      have hperform : o.perform (.step k) = o := by simp [perform, hstep]
      rw [hperform]
      exact .unchanged _ o.released o.source rfl
  | some next =>
      have hperform : o.perform (.step k) = next := by simp [perform, hstep]
      obtain ⟨task, conclusion?, htask, hmove, -⟩ := move_of_step? hstep
      rw [hperform]
      exact .moved k task conclusion? next _ rfl htask hmove

/-- That reads end is a step of their task, if there is a task that waits for them. -/
theorem concludeReads_cases (o : Orchestrator) (k : Nat) (conclusion : Conclusion) :
    o.concludeReads k conclusion = o ∨ ∃ task, o.tasks[k]? = some task ∧
      o.Move k task (some conclusion) (o.concludeReads k conclusion) := by
  unfold concludeReads
  cases htask : o.tasks[k]? with
  | none => exact .inl rfl
  | some task =>
      cases hphase : task.phase with
      | ready => exact .inl (by simp only [hphase])
      | ended ending => exact .inl (by simp only [hphase])
      | reading reads =>
          refine .inr ⟨task, rfl, ?_⟩
          simp only [hphase]
          exact move_of_conclude conclusion hphase

theorem change_conclude (o : Orchestrator) (k : Nat) (conclusion : Conclusion) :
    o.Change (.conclude k conclusion) (o.perform (.conclude k conclusion)) := by
  rcases o.concludeReads_cases k conclusion with hsame | ⟨task, htask, hmove⟩
  · rw [perform, hsame]
    exact .unchanged _ o.released o.source rfl
  · exact .moved k task _ _ _ rfl htask hmove

/-- An action does one of the things that `Change` lists. -/
theorem change_perform (o : Orchestrator) (action : Action) :
    o.Change action (o.perform action) := by
  cases action with
  | start pipeline page => exact o.change_start pipeline page
  | cancel => exact .cancelled
  | reject failure =>
      rw [perform_reject]
      exact .rejected failure
  | accept run =>
      rw [perform, accept_eq]
      split
      · rename_i hcurrent
        exact .accepted run hcurrent
      · exact .unchanged _ o.released o.source rfl
  | release gate => exact .unchanged _ _ o.source rfl
  | script source => exact .unchanged _ o.released _ rfl
  | step k => exact o.change_step k
  | conclude k conclusion => exact o.change_conclude k conclusion

/-! ## Waiting is a schedule -/

theorem settleTask_eq_performAll (fuel : Nat) (k : Nat) (o : Orchestrator) :
    settleTask fuel k o = o.performAll (List.replicate fuel (.step k)) := by
  induction fuel generalizing o with
  | zero => rfl
  | succ fuel ih =>
      rw [List.replicate_succ, performAll_cons, ← ih]
      cases hstep : o.step? k with
      | none =>
          -- the schedule goes on with steps of a task that can not go on
          have hstuck : ∀ fuel, settleTask fuel k o = o := by
            intro fuel
            cases fuel <;> simp [settleTask, hstep]
          simp [perform, hstep, hstuck]
      | some next => simp [settleTask, perform, hstep]

theorem expire?_eq_some {o next : Orchestrator} {k : Nat} (h : o.expire? k = some next) :
    next = o.perform (.conclude k (.interrupted .timedOut)) := by
  unfold expire? at h
  simp only [perform, concludeReads]
  cases htask : o.tasks[k]? with
  | none => simp [htask] at h
  | some task =>
      simp only [htask] at h
      cases hphase : task.phase with
      | ready => simp [hphase] at h
      | ended ending => simp [hphase] at h
      | reading reads =>
          simp only [hphase] at h ⊢
          split at h
          · exact (Option.some.inj h).symm
          · cases h

/-- To let all tasks go on is a schedule of their steps. -/
theorem settle_eq_performAll (o : Orchestrator) :
    ∃ actions, (∀ action ∈ actions, ∃ k, action = .step k) ∧ o.settle = o.performAll actions := by
  have hfold : ∀ (tasks : List Nat) (o : Orchestrator), ∃ actions,
      (∀ action ∈ actions, ∃ k, action = .step k) ∧
        tasks.foldl settleOne o = o.performAll actions := by
    intro tasks
    induction tasks with
    | nil =>
        intro o
        exact ⟨[], by simp, rfl⟩
    | cons k rest ih =>
        intro o
        obtain ⟨actions, hsteps, hactions⟩ := ih (o.settleOne k)
        refine ⟨List.replicate (o.stepBound k) (.step k) ++ actions, ?_, ?_⟩
        · intro action haction
          rcases List.mem_append.1 haction with hmem | hmem
          · exact ⟨k, List.eq_of_mem_replicate hmem⟩
          · exact hsteps action hmem
        · rw [List.foldl_cons, hactions, performAll_append, ← settleTask_eq_performAll]
          rfl
  exact hfold _ o

/-- To wait for a task is a schedule of steps, with its time running out where it is blocked. -/
theorem await_eq_performAll (o : Orchestrator) (k : Nat) :
    ∃ actions, o.await k = o.performAll actions := by
  obtain ⟨first, -, hfirst⟩ := o.settle_eq_performAll
  simp only [await]
  cases hexpire : o.settle.expire? k with
  | none => exact ⟨first, hfirst⟩
  | some expired =>
      obtain ⟨second, -, hsecond⟩ := expired.settle_eq_performAll
      refine ⟨first ++ .conclude k (.interrupted .timedOut) :: second, ?_⟩
      rw [performAll_append, performAll_cons, ← hfirst, ← expire?_eq_some hexpire, ← hsecond]

/-- What is reached by waiting is reachable. -/
theorem Reachable.await {o : Orchestrator} (h : o.Reachable) (k : Nat) : (o.await k).Reachable := by
  obtain ⟨actions, hactions⟩ := o.await_eq_performAll k
  rw [hactions]
  exact h.performAll actions

end Orchestrator

end StageChain
