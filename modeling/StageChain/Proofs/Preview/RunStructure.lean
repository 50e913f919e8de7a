import StageChain.Proofs.Preview.Progress
import StageChain.Proofs.Preview.Staleness
import StageChain.Source.Scripted

/-!
# The structure of a run

A run that is waited for ends with one result for each prefix, up to the first that fails. `Sourced`
is the invariant of a run that meets one source only: it ends with its results or by a crash, as
`Sourced.concludes` says, and waiting ends it unless it `Hangs`, which is `Sourced.await`.
The main theorem is `run_structure`.
-/

namespace StageChain.Orchestrator

variable {o s next : Orchestrator} {pipeline : Pipeline} {page : Int} {k : Nat} {task : Task}
  {conclusion? : Option Conclusion}

/-- How the reads of each prefix end if they are waited for and nothing else happens. -/
def answerAt (o : Orchestrator) (pipeline : Pipeline) (page : Int) (index : Nat) : Conclusion :=
  o.conclusionOf (o.readsFor pipeline page index)

/-- No read of the pipeline crashes. -/
def NeverCrashes (o : Orchestrator) (pipeline : Pipeline) (page : Int) : Prop :=
  ∀ index < pipeline.size, ∀ crash, o.answerAt pipeline page index ≠ .failed (.crashed crash)

/-- No reads of the pipeline are waited for without end: what they wait for is there, or their time is
limited. -/
def EndsInTime (o : Orchestrator) (pipeline : Pipeline) (page : Int) : Prop :=
  ∀ index < pipeline.size,
    o.isOpen (o.readsFor pipeline page index).barrier = true ∨ o.isLimited = true

/-- A task waits for reads that do not end, since what they wait for is not there and their time is
not limited. -/
def Hangs (o : Orchestrator) (k : Nat) : Prop :=
  o.isLimited = false ∧ ∃ task reads, o.tasks[k]? = some task ∧ task.phase = .reading reads ∧
    o.isOpen reads.barrier = false

theorem Hangs.ending?_eq_none (h : o.Hangs k) : o.ending? k = none := by
  obtain ⟨-, task, reads, htask, hphase, -⟩ := h
  simp [ending?, htask, Task.ending?, hphase]

/-- Reads that are waited for are not cancelled, so they give a result or crash. -/
theorem outcome_answerAt_cases (o : Orchestrator) (pipeline : Pipeline) (page : Int)
    (request : StageRequest) (index : Nat) :
    (∃ result, request.outcome (o.answerAt pipeline page index) = .result result) ∨
      ∃ crash, o.answerAt pipeline page index = .failed (.crashed crash) := by
  cases hanswer : o.answerAt pipeline page index with
  | fetched documents count => exact .inl ⟨_, rfl⟩
  | failed fault =>
      cases fault with
      | refused message => exact .inl ⟨_, rfl⟩
      | crashed crash => exact .inr ⟨crash, rfl⟩
  | interrupted interruption =>
      cases interruption with
      | timedOut => exact .inl ⟨_, rfl⟩
      | cancelled =>
          rw [answerAt, conclusionOf] at hanswer
          split at hanswer
          · cases hanswer
          · exact absurd hanswer (ReadPair.outcome_ne_interrupted _ _ _)

/-- How a run ends that is waited for: with its results, or by the crash of a read. -/
inductive Concludes (o : Orchestrator) (pipeline : Pipeline) (page : Int) : Ending → Prop where
  | finished (run : Run) : Concludes o pipeline page (.finished run)
  | crashed (crash : Crash) (index : Nat) (hindex : index < pipeline.size)
      (hanswer : o.answerAt pipeline page index = .failed (.crashed crash)) :
      Concludes o pipeline page (.crashed crash)

theorem Concludes.exists_run {ending : Ending} (h : o.Concludes pipeline page ending)
    (hnever : o.NeverCrashes pipeline page) : ∃ run, ending = .finished run := by
  cases h with
  | finished run => exact ⟨run, rfl⟩
  | crashed crash index hindex hanswer => exact absurd hanswer (hnever index hindex crash)

/-- How far a run has come that was started in `o` and meets the source of `o` only. -/
structure Sourced (o : Orchestrator) (pipeline : Pipeline) (page : Int) (k : Nat)
    (s : Orchestrator) : Prop extends Progress o pipeline page (o.answerAt pipeline page) k s where
  source_eq : s.source = o.source
  released_eq : s.released = o.released
  reading : ∀ (task : Task) (reads : ReadsInProgress), s.tasks[k]? = some task →
    task.phase = .reading reads → reads = o.readsFor pipeline page task.results.length
  ended : ∀ (task : Task) (ending : Ending), s.tasks[k]? = some task →
    task.phase = .ended ending → o.Concludes pipeline page ending

/-- A task that waits for reads goes on by taking in how they end. -/
theorem eq_conclude_of_step? {reads : ReadsInProgress} (htask : s.tasks[k]? = some task)
    (hphase : task.phase = .reading reads) (hstep : s.step? k = some next) :
    next = s.conclude k task (s.conclusionOf reads) := by
  unfold Orchestrator.step? at hstep
  simp only [htask, hphase] at hstep
  split at hstep
  · rename_i hinstant
    simp [conclusionOf, hinstant, ← Option.some.inj hstep]
  · rename_i hinstant
    split at hstep
    · rename_i hopen
      simp [conclusionOf, hinstant, hopen, ← Option.some.inj hstep]
    · cases hstep

namespace Sourced

theorem isOpen_eq (h : Sourced o pipeline page k s) (barrier : Barrier) :
    s.isOpen barrier = o.isOpen barrier := by
  cases barrier <;> simp [isOpen, h.released_eq]

theorem isInstant_eq (h : Sourced o pipeline page k s) : s.isInstant = o.isInstant := by
  simp only [isInstant, h.timeout_eq]

theorem conclusionOf_eq (h : Sourced o pipeline page k s) (reads : ReadsInProgress) :
    s.conclusionOf reads = o.conclusionOf reads := by
  simp only [conclusionOf, h.isOpen_eq, h.isInstant_eq]

theorem readsFor_eq (h : Sourced o pipeline page k s) (index : Nat) :
    s.readsFor pipeline page index = o.readsFor pipeline page index := by
  simp only [readsFor, h.source_eq, h.collection_eq, h.pageSize_eq]

/-- The task of the run, with what holds of it. -/
theorem runs (h : Sourced o pipeline page k s) (htask : s.tasks[k]? = some task) :
    o.Runs pipeline page (o.answerAt pipeline page) task s.log := by
  obtain ⟨same, hsame, hruns⟩ := h.task
  obtain rfl : task = same := Option.some.inj (htask.symm.trans hsame)
  exact hruns

/-- A run that is reading has a prefix left. -/
theorem length_lt (h : Sourced o pipeline page k s) (htask : s.tasks[k]? = some task)
    {reads : ReadsInProgress} (hphase : task.phase = .reading reads) :
    task.results.length < task.pipeline.size := by
  obtain ⟨begun, hstanding, -⟩ := (h.runs htask).standing
  rw [hphase] at hstanding
  cases hstanding with
  | reading _ hgood hmore => exact (h.runs htask).pipeline_eq ▸ hmore

theorem move (h : Sourced o pipeline page k s) (htask : s.tasks[k]? = some task)
    (hmove : s.Move k task conclusion? next)
    (hconclusion : ∀ conclusion, conclusion? = some conclusion → ∃ reads,
      task.phase = .reading reads ∧ conclusion = s.conclusionOf reads ∧
        next = s.conclude k task conclusion) :
    Sourced o pipeline page k next := by
  have hanswer : ∀ conclusion, conclusion? = some conclusion →
      conclusion = o.answerAt pipeline page task.results.length := by
    intro conclusion hsome
    obtain ⟨reads, hphase, rfl, -⟩ := hconclusion conclusion hsome
    rw [h.conclusionOf_eq, h.reading task reads htask hphase]
    rfl
  have hput := getElem?_setTask_self htask
  have hcurrent := (h.coherent.pending k task htask hmove.isDone_eq_false).2
  have hruns := h.runs htask
  obtain ⟨-, -, -, hsource, hreleased⟩ := hmove.limits_eq
  refine ⟨h.toProgress.move htask hmove hanswer, hsource.trans h.source_eq,
    hreleased.trans h.released_eq, ?_, ?_⟩
  · intro later reads hlater hphase
    cases hmove with
    | began =>
        obtain rfl := Option.some.inj ((hput _).symm.trans hlater)
        cases hphase
        rw [hruns.pipeline_eq, hruns.page_eq, h.readsFor_eq]
    | dropped | told | finished | completed =>
        obtain rfl := Option.some.inj ((hput _).symm.trans hlater)
        cases hphase
  · intro later ending hlater hphase
    cases hmove with
    | finished | completed =>
        obtain rfl := Option.some.inj ((hput _).symm.trans hlater)
        cases hphase
        exact .finished _
    | began | told =>
        obtain rfl := Option.some.inj ((hput _).symm.trans hlater)
        cases hphase
    | dropped _ _ hopen hending hwhy =>
        -- the run is current, so it is dropped only if its reads have crashed
        rcases hwhy with hstale | ⟨conclusion, rfl, hnone⟩
        · exact absurd hcurrent hstale
        · obtain ⟨reads, hreading, -, hnext⟩ := hconclusion conclusion rfl
          obtain rfl := hanswer conclusion rfl
          rcases o.outcome_answerAt_cases pipeline page (s.request task) task.results.length with
            ⟨result, hresult⟩ | ⟨crash, hcrash⟩
          · exact absurd hresult (hnone result)
          · rw [hnext, hcrash] at hlater
            obtain rfl := Option.some.inj ((hput _).symm.trans hlater)
            cases hphase
            exact .crashed crash _ (hruns.pipeline_eq ▸ h.length_lt htask hreading) hcrash

/-- Only the task of the run can go on. -/
theorem eq_of_pending (h : Sourced o pipeline page k s) {j : Nat} (htask : s.tasks[j]? = some task)
    (hopen : task.isDone = false) : j = k := by
  have hheld := (h.coherent.pending j task htask hopen).1
  exact Option.some.inj (hheld.symm.trans h.held)

theorem step? (h : Sourced o pipeline page k s) {j : Nat} (hstep : s.step? j = some next) :
    Sourced o pipeline page k next := by
  obtain ⟨task, conclusion?, htask, hmove, hconclusion⟩ := move_of_step? hstep
  obtain rfl := h.eq_of_pending htask hmove.isDone_eq_false
  refine h.move htask hmove fun conclusion hsome => ?_
  obtain ⟨reads, hphase, rfl⟩ := hconclusion conclusion hsome
  exact ⟨reads, hphase, rfl, eq_conclude_of_step? htask hphase hstep⟩

theorem settleTask (h : Sourced o pipeline page k s) (fuel j : Nat) :
    Sourced o pipeline page k (settleTask fuel j s) := by
  induction fuel generalizing s with
  | zero => exact h
  | succ fuel ih =>
      unfold Orchestrator.settleTask
      cases hstep : s.step? j with
      | none => exact h
      | some next => exact ih (h.step? hstep)

end Sourced

/-! ## Waiting ends a run -/

/-- How many steps a task still has to take at most. -/
def stepsLeft (task : Task) : Nat :=
  match task.phase with
  | .ready => 2 * (task.pipeline.size - task.results.length) + 1
  | .reading _ => 2 * (task.pipeline.size - task.results.length)
  | .ended _ => 0

theorem stepsLeft_of_move (htask : o.tasks[k]? = some task)
    (hmove : o.Move k task conclusion? next)
    (hreading : ∀ reads, task.phase = .reading reads → task.results.length < task.pipeline.size) :
    ∃ later, next.tasks[k]? = some later ∧ stepsLeft later < stepsLeft task := by
  have hput := getElem?_setTask_self htask
  cases hmove with
  | began hphase hmore =>
      refine ⟨_, hput _, ?_⟩
      simp only [stepsLeft, hphase]
      omega
  | dropped _ ending hopen =>
      refine ⟨_, hput _, ?_⟩
      cases hphase : task.phase with
      | ready => simp [stepsLeft, hphase]
      | reading reads =>
          have hless := hreading reads hphase
          simp only [stepsLeft, hphase]
          omega
      | ended other => simp [Task.isDone, hphase] at hopen
  | told reads _ result hphase =>
      have hless := hreading reads hphase
      refine ⟨_, hput _, ?_⟩
      simp only [stepsLeft, hphase, List.length_append, List.length_singleton]
      omega
  | finished reads _ result failure hphase =>
      have hless := hreading reads hphase
      refine ⟨_, hput _, ?_⟩
      simp only [stepsLeft, hphase]
      omega
  | completed hphase =>
      refine ⟨_, hput _, ?_⟩
      simp [stepsLeft, hphase]

namespace Sourced

/-- With enough fuel a run goes on until it can not. -/
theorem step?_settleTask (h : Sourced o pipeline page k s) (htask : s.tasks[k]? = some task)
    {fuel : Nat} (hfuel : stepsLeft task ≤ fuel) :
    (Orchestrator.settleTask fuel k s).step? k = none := by
  induction fuel generalizing s task with
  | zero =>
      unfold Orchestrator.settleTask
      cases hstep : s.step? k with
      | none => rfl
      | some next =>
          obtain ⟨same, conclusion?, hsame, hmove, -⟩ := move_of_step? hstep
          obtain rfl : task = same := Option.some.inj (htask.symm.trans hsame)
          -- a task with no step left can not take one
          obtain ⟨later, -, hless⟩ := stepsLeft_of_move htask hmove fun _ => h.length_lt htask
          omega
  | succ fuel ih =>
      unfold Orchestrator.settleTask
      cases hstep : s.step? k with
      | none => exact hstep
      | some next =>
          obtain ⟨same, conclusion?, hsame, hmove, -⟩ := move_of_step? hstep
          obtain rfl : task = same := Option.some.inj (htask.symm.trans hsame)
          obtain ⟨later, hlater, hless⟩ :=
            stepsLeft_of_move htask hmove fun _ => h.length_lt htask
          exact ih (h.step? hstep) hlater (by omega)

theorem stepsLeft_le_stepBound (htask : s.tasks[k]? = some task) :
    stepsLeft task ≤ s.stepBound k := by
  simp only [stepsLeft, stepBound, htask]
  cases task.phase with
  | ready =>
      show 2 * (task.pipeline.size - task.results.length) + 1 ≤ _
      omega
  | reading reads =>
      show 2 * (task.pipeline.size - task.results.length) ≤ _
      omega
  | ended ending => exact Nat.zero_le _

/-- Once all tasks have had their turn, the run can not go on. -/
theorem foldl_settleOne (tasks : List Nat) (h : Sourced o pipeline page k s)
    (hk : k ∈ tasks ∨ s.step? k = none) :
    Sourced o pipeline page k (tasks.foldl settleOne s) ∧
      (tasks.foldl settleOne s).step? k = none := by
  induction tasks generalizing s with
  | nil =>
      rcases hk with hmem | hstuck
      · cases hmem
      · exact ⟨h, hstuck⟩
  | cons j rest ih =>
      refine ih (h.settleTask (s.stepBound j) j) ?_
      by_cases hj : j = k
      · subst hj
        obtain ⟨task, htask, -⟩ := h.task
        exact .inr (h.step?_settleTask htask (stepsLeft_le_stepBound htask))
      · -- another task can not go on, so its turn changes nothing
        have hnone : s.step? j = none := by
          cases hstep : s.step? j with
          | none => rfl
          | some next =>
              obtain ⟨task, conclusion?, htask, hmove, -⟩ := move_of_step? hstep
              exact absurd (h.eq_of_pending htask hmove.isDone_eq_false) hj
        have hsame : s.settleOne j = s := by
          unfold Orchestrator.settleOne
          cases s.stepBound j <;> simp [Orchestrator.settleTask, hnone]
        rw [hsame]
        rcases hk with hmem | hstuck
        · rcases List.mem_cons.1 hmem with hhead | htail
          · exact absurd hhead.symm hj
          · exact .inl htail
        · exact .inr hstuck

theorem settle (h : Sourced o pipeline page k s) :
    Sourced o pipeline page k s.settle ∧ s.settle.step? k = none := by
  obtain ⟨task, htask, -⟩ := h.task
  obtain ⟨hk, -⟩ := List.getElem?_eq_some_iff.1 htask
  exact foldl_settleOne _ h (.inl (List.mem_range.2 hk))

/-- However a run ends, it is with its results or by a crash. -/
theorem concludes (h : Sourced o pipeline page k s) {ending : Ending}
    (hending : s.ending? k = some ending) : o.Concludes pipeline page ending := by
  obtain ⟨task, htask, hended⟩ := Option.bind_eq_some_iff.1 hending
  unfold Task.ending? at hended
  split at hended
  · rename_i hphase
    exact h.ended task ending htask (hphase.trans (congrArg _ (Option.some.inj hended)))
  · cases hended

theorem isLimited_eq (h : Sourced o pipeline page k s) : s.isLimited = o.isLimited := by
  simp only [isLimited, h.timeout_eq]

/-- A run that can not go on and whose time does not run out has ended, or it hangs. -/
theorem ending_or_hangs (h : Sourced o pipeline page k s) (hstuck : s.step? k = none)
    (hexpire : s.expire? k = none) : (∃ ending, s.ending? k = some ending) ∨ s.Hangs k := by
  obtain ⟨task, htask, -⟩ := h.task
  unfold Orchestrator.step? at hstuck
  unfold Orchestrator.expire? at hexpire
  simp only [htask] at hstuck hexpire
  cases hphase : task.phase with
  | ready =>
      simp only [hphase] at hstuck
      split at hstuck <;> cases hstuck
  | reading reads =>
      simp only [hphase] at hstuck hexpire
      split at hexpire
      · cases hexpire
      rename_i hwaits
      cases hopen : s.isOpen reads.barrier with
      | true =>
          simp only [hopen, if_true] at hstuck
          split at hstuck <;> cases hstuck
      | false => exact .inr ⟨by simpa [hopen] using hwaits, task, reads, htask, hphase, hopen⟩
  | ended ending => exact .inl ⟨ending, by simp [ending?, htask, Task.ending?, hphase]⟩

/-- A run does not hang if no reads are waited for without end. -/
theorem not_hangs (h : Sourced o pipeline page k s) (hends : o.EndsInTime pipeline page) :
    ¬ s.Hangs k := by
  rintro ⟨hlimited, task, reads, htask, hphase, hblocked⟩
  have hless := (h.runs htask).pipeline_eq ▸ h.length_lt htask hphase
  have hreads := hends task.results.length hless
  rw [← h.reading task reads htask hphase, ← h.isOpen_eq, ← h.isLimited_eq, hlimited,
    hblocked] at hreads
  simp at hreads

/-- A run that is blocked ends once its time runs out. -/
theorem exists_ending_of_expire (h : Sourced o pipeline page k s)
    (hexpire : s.expire? k = some next) :
    Sourced o pipeline page k next ∧ ∃ ending, next.ending? k = some ending := by
  obtain ⟨task, htask, -⟩ := h.task
  unfold Orchestrator.expire? at hexpire
  simp only [htask] at hexpire
  cases hphase : task.phase with
  | ready => simp [hphase] at hexpire
  | ended ending => simp [hphase] at hexpire
  | reading reads =>
      simp only [hphase] at hexpire
      split at hexpire
      case isFalse => cases hexpire
      rename_i hblocked
      have hconclusion : s.conclusionOf reads = .interrupted .timedOut := by
        rw [Bool.and_eq_true, Bool.not_eq_true'] at hblocked
        simp [conclusionOf, hblocked.2]
      have hmove : s.Move k task (some (.interrupted .timedOut)) next := by
        rw [← Option.some.inj hexpire]
        exact move_of_conclude _ hphase
      have hnext : Sourced o pipeline page k next := by
        refine h.move htask hmove fun conclusion hsome => ⟨reads, hphase, ?_⟩
        rw [hconclusion, ← Option.some.inj hsome]
        exact ⟨rfl, (Option.some.inj hexpire).symm⟩
      refine ⟨hnext, ?_⟩
      -- the result says that the time has run out, so no prefix is left
      have hended : ∃ later ending, next.tasks[k]? = some later ∧ later.phase = .ended ending := by
        have hput := getElem?_setTask_self htask
        cases hmove with
        | dropped => exact ⟨_, _, hput _, rfl⟩
        | finished => exact ⟨_, _, hput _, rfl⟩
        | told _ _ result _ _ houtcome hgood =>
            cases houtcome
            cases hgood
      obtain ⟨later, ending, hlater, hphase⟩ := hended
      exact ⟨ending, by simp [ending?, hlater, Task.ending?, hphase]⟩

/-- Waiting ends a run, unless it hangs. -/
theorem await (h : Sourced o pipeline page k s) :
    Sourced o pipeline page k (s.await k) ∧
      ((∃ ending, (s.await k).ending? k = some ending) ∨ (s.await k).Hangs k) := by
  obtain ⟨hsettled, hstuck⟩ := h.settle
  cases hexpire : s.settle.expire? k with
  | none =>
      have hawait : s.await k = s.settle := by simp [Orchestrator.await, hexpire]
      rw [hawait]
      exact ⟨hsettled, hsettled.ending_or_hangs hstuck hexpire⟩
  | some expired =>
      have hawait : s.await k = expired.settle := by simp [Orchestrator.await, hexpire]
      obtain ⟨hexpired, ending, hending⟩ := hsettled.exists_ending_of_expire hexpire
      obtain ⟨actions, -, hactions⟩ := expired.settle_eq_performAll
      rw [hawait]
      refine ⟨hexpired.settle.1, .inl ⟨ending, ?_⟩⟩
      rw [hactions]
      exact (hexpired.coherent.extends_performAll actions).ending?_eq hending

end Sourced

/-- A run that has been started meets the source that is there. -/
theorem Coherent.sourced_start (h : o.Coherent) (pipeline : Pipeline) (hpage : 1 ≤ page) :
    ∃ next, o.start pipeline page = .ok next ∧ Sourced o pipeline page o.tasks.length next := by
  obtain ⟨next, hstart, hsource, hreleased, htask, hprogress⟩ :=
    @Coherent.progress_of_start o pipeline page h hpage
  refine ⟨next, hstart, hprogress _, hsource, hreleased, ?_, ?_⟩
  · intro task reads hsame hphase
    obtain rfl := Option.some.inj (htask.symm.trans hsame)
    cases hphase
  · intro task ending hsame hphase
    obtain rfl := Option.some.inj (htask.symm.trans hsame)
    cases hphase

/-- The orchestrator after a run of some page that is waited for. -/
def afterPage (o : Orchestrator) (pipeline : Pipeline) (page : Int) : Orchestrator :=
  (o.perform (.start pipeline page)).await o.tasks.length

/-- A run that is waited for meets one source, and it ends unless it hangs. -/
theorem Coherent.sourced_afterPage (h : o.Coherent) (pipeline : Pipeline) (hpage : 1 ≤ page) :
    Sourced o pipeline page o.tasks.length (o.afterPage pipeline page) ∧
      ((∃ ending, (o.afterPage pipeline page).ending? o.tasks.length = some ending) ∨
        (o.afterPage pipeline page).Hangs o.tasks.length) := by
  obtain ⟨next, hstart, hnew⟩ := h.sourced_start pipeline hpage
  have hnext : o.perform (.start pipeline page) = next := by
    simp [perform, hstart, Except.toOption]
  rw [afterPage, hnext]
  exact hnew.await

/-! ## What a run consists of -/

/-- A finished run and the reads that have begun when it has ended, given how the reads of each
prefix end. -/
structure RunStructure (o : Orchestrator) (pipeline : Pipeline) (page : Int)
    (answer : Nat → Conclusion) (run : Run) (log : List Read) : Prop where
  generation : run.generation = o.generation + 1
  length_le : run.results.length ≤ pipeline.size
  /-- The results are those of the first prefixes, each for the owner of the last stage. -/
  owner : ∀ (index : Nat) (result : StageResult), run.results[index]? = some result →
    result.index = index ∧ pipeline.nodeIds[index]? = some result.nodeId ∧
      (o.requestAt pipeline page index).outcome (answer index) = .result result
  /-- If every prefix succeeds, there is a good result for each. -/
  complete : (∀ index < pipeline.size, (answer index).Succeeds) →
    run.results.length = pipeline.size ∧ run.failure = none ∧
      ∀ result ∈ run.results, result.error = none
  /-- Otherwise the last result is that of the first prefix that fails. -/
  halted : (∃ index < pipeline.size, ¬ (answer index).Succeeds) →
    ∃ before last message, run.results = before ++ [last] ∧
      ¬ (answer before.length).Succeeds ∧ (∀ index < before.length, (answer index).Succeeds) ∧
      (∀ result ∈ before, result.error = none) ∧
      last.error = some message ∧ message ≠ "" ∧ last.documents = [] ∧ last.count = none ∧
      run.failure = some (.execution last.nodeId message)
  /-- The reads are those of the prefixes that have a result, in order. -/
  reads : log = o.log ++ o.readsUpTo pipeline page run.results.length

namespace Runs

variable {answer : Nat → Conclusion} {log : List Read} {index : Nat} {result : StageResult}

theorem owner (h : o.Runs pipeline page answer task log)
    (hresult : task.results[index]? = some result) :
    result.index = index ∧ pipeline.nodeIds[index]? = some result.nodeId := by
  have hgives := StageRequest.gives_of_outcome (h.outcome index result hresult)
  obtain ⟨hindex, -⟩ := List.getElem?_eq_some_iff.1 hresult
  have hlength : index < pipeline.nodeIds.length := by
    rw [Pipeline.nodeIds, List.length_map]
    exact Nat.lt_of_lt_of_le hindex h.length_le
  refine ⟨hgives.index_eq, ?_⟩
  rw [hgives.nodeId_eq, requestAt, List.getElem?_eq_getElem hlength, Option.getD_some]

/-- A result is good if and only if both reads of its prefix succeed. -/
theorem error_eq_none_iff (h : o.Runs pipeline page answer task log)
    (hresult : task.results[index]? = some result) :
    result.error = none ↔ (answer index).Succeeds :=
  ⟨StageRequest.succeeds_of_outcome (h.outcome index result hresult),
    StageRequest.outcome_of_succeeds (h.outcome index result hresult)⟩

/-- The last result of a run that was halted is of the first prefix that fails. -/
theorem halted {before : List StageResult} {last : StageResult} {message : String}
    (h : o.Runs pipeline page answer task log) (hresults : task.results = before ++ [last])
    (hgood : ∀ result ∈ before, result.error = none) (herror : last.error = some message) :
    ¬ (answer before.length).Succeeds ∧ (∀ index < before.length, (answer index).Succeeds) ∧
      message ≠ "" ∧ last.documents = [] ∧ last.count = none := by
  have hlast : task.results[before.length]? = some last := by
    rw [hresults, List.getElem?_concat_length]
  refine ⟨fun hsucceeds => ?_, fun index hindex => ?_, ?_⟩
  · have hnone := (h.error_eq_none_iff hlast).2 hsucceeds
    exact absurd (hnone.symm.trans herror) (by simp)
  · have hearlier : task.results[index]? = some before[index] := by
      rw [hresults, List.getElem?_append_left hindex, List.getElem?_eq_getElem hindex]
    exact (h.error_eq_none_iff hearlier).1 (hgood _ (List.getElem_mem hindex))
  · exact StageRequest.failed_of_outcome (h.outcome _ last hlast) herror

theorem runStructure {run : Run} (h : o.Runs pipeline page answer task log)
    (hphase : task.phase = .ended (.finished run)) :
    RunStructure o pipeline page answer run log := by
  obtain ⟨begun, hstanding, hlog⟩ := h.standing
  rw [hphase] at hstanding
  cases hstanding with
  | dropped _ _ hending => exact absurd rfl (hending run)
  | finished failure hclosed =>
      constructor
      case generation => exact h.generation_eq
      case length_le => exact h.length_le
      case owner =>
        intro index result hresult
        obtain ⟨hindex, howner⟩ := h.owner hresult
        exact ⟨hindex, howner, h.outcome index result hresult⟩
      case complete =>
        intro hall
        cases hclosed with
        | complete hlength hgood => exact ⟨hlength, rfl, hgood⟩
        | halted before last message hresults hgood herror =>
            have hle := h.length_le
            have hless : before.length < pipeline.size := by
              rw [hresults, List.length_append, List.length_singleton] at hle
              exact hle
            exact absurd (hall _ hless) (h.halted hresults hgood herror).1
      case halted =>
        rintro ⟨index, hindex, hfails⟩
        cases hclosed with
        | complete hlength hgood =>
            have hindex' : index < task.results.length := hlength ▸ hindex
            have hresult := List.getElem?_eq_getElem hindex'
            have hnone := hgood _ (List.getElem_mem hindex')
            exact absurd ((h.error_eq_none_iff hresult).1 hnone) hfails
        | halted before last message hresults hgood herror =>
            obtain ⟨hlast, hearlier, hmessage, hdocuments, hcount⟩ :=
              h.halted hresults hgood herror
            exact ⟨before, last, message, hresults, hlast, hearlier, hgood, herror, hmessage,
              hdocuments, hcount, rfl⟩
      case reads => exact hlog

end Runs

/-- A run that has ended with results has the structure of a run. -/
theorem Sourced.runStructure {run : Run} (h : Sourced o pipeline page k s)
    (hending : s.ending? k = some (.finished run)) :
    RunStructure o pipeline page (o.answerAt pipeline page) run s.log := by
  obtain ⟨task, htask, hended⟩ := Option.bind_eq_some_iff.1 hending
  refine (h.runs htask).runStructure ?_
  unfold Task.ending? at hended
  split at hended
  · rename_i hphase
    rw [hphase, Option.some.inj hended]
  · cases hended

/-- At any moment of a run the reads that have begun are those of its first prefixes, in order, and
both reads of each of these prefixes but the last have succeeded. -/
structure ReadsInOrder (o : Orchestrator) (pipeline : Pipeline) (page : Int) (k : Nat)
    (s : Orchestrator) (begun : Nat) : Prop where
  size : begun ≤ pipeline.size
  log : s.log = o.log ++ o.readsUpTo pipeline page begun
  earlier : ∀ index, index + 1 < begun → ∃ task result conclusion, s.tasks[k]? = some task ∧
    task.results[index]? = some result ∧ conclusion.Succeeds ∧
      (o.requestAt pipeline page index).outcome conclusion = .result result

theorem Progress.readsInOrder {answer : Nat → Conclusion}
    (h : Progress o pipeline page answer k s) :
    ∃ begun, ReadsInOrder o pipeline page k s begun := by
  obtain ⟨task, htask, hruns⟩ := h.task
  obtain ⟨begun, hstanding, hlog⟩ := hruns.standing
  refine ⟨begun, hstanding.begun_le_size hruns.length_le, hlog, fun index hindex => ?_⟩
  have hless : index < task.results.length := by
    have hle := hstanding.begun_le_succ
    omega
  have hresult := List.getElem?_eq_getElem hless
  have hgood := hstanding.error_eq_none hindex hresult
  exact ⟨task, _, answer index, htask, hresult, (hruns.error_eq_none_iff hresult).1 hgood,
    hruns.outcome index _ hresult⟩

/-- The structure of a run that is started on some page and waited for: it ends, and its results,
its failure and its reads follow from how the reads of each prefix end. Whatever happens meanwhile
that does not cancel the run, the reads of a prefix begin only when those of the prefix before have
succeeded. -/
theorem run_structure (h : o.Reachable) (hpage : 1 ≤ page) (hnever : o.NeverCrashes pipeline page)
    (hends : o.EndsInTime pipeline page) :
    ∃ next run, o.start pipeline page = .ok next ∧
      (next.await o.tasks.length).ending? o.tasks.length = some (.finished run) ∧
      RunStructure o pipeline page (o.answerAt pipeline page) run
        (next.await o.tasks.length).log ∧
      ∀ actions : List Action, (∀ action ∈ actions, action.cancels = false) →
        ∃ begun, ReadsInOrder o pipeline page o.tasks.length (next.performAll actions) begun := by
  obtain ⟨next, hstart, hnew⟩ := h.coherent.sourced_start pipeline hpage
  obtain ⟨hawait, hended⟩ := hnew.await
  obtain ⟨ending, hending⟩ := hended.resolve_right (hawait.not_hangs hends)
  obtain ⟨run, rfl⟩ := (hawait.concludes hending).exists_run hnever
  refine ⟨next, run, hstart, hending, hawait.runStructure hending, fun actions hactions => ?_⟩
  obtain ⟨answer, hlater⟩ := hnew.toProgress.performAll actions hactions
  exact hlater.readsInOrder

/-- An orchestrator whose source has a document for the first prefix and refuses the second. -/
def refusingSecond : Orchestrator where
  collection := "orders"
  pageSize := 20
  timeout := .infinite false
  source := Script.source [some ⟨.ok [.int 1], .ok (.int 1), .open⟩,
    some ⟨.error (.refused "no such field"), .ok (.int 0), .open⟩] Script.echo
  released := []
  generation := 0
  held := none
  tasks := []
  latest := none
  log := []
  events := []

/-- A pipeline of three stages. -/
def threeStages : Pipeline where
  stages := [⟨"first", ⟨"$match", .object []⟩⟩, ⟨"second", ⟨"$unset", .text "x"⟩⟩,
    ⟨"third", ⟨"$match", .object []⟩⟩]
  skipped := []

/-- A run whose second prefix is refused ends with two results and the failure of the second
node. -/
theorem run_structure_refusingSecond :
    refusingSecond.Reachable ∧ refusingSecond.NeverCrashes threeStages 1 ∧
      refusingSecond.EndsInTime threeStages 1 ∧
      (∃ next run, refusingSecond.start threeStages 1 = .ok next ∧
        (next.await 0).ending? 0 = some (.finished run) ∧
        RunStructure refusingSecond threeStages 1 (refusingSecond.answerAt threeStages 1) run
          (next.await 0).log) ∧
      ((refusingSecond.perform (.start threeStages 1)).await 0).ending? 0 =
        some (.finished ⟨1, [⟨0, "first", [.int 1], some 1, none, 1, false⟩,
          ⟨1, "second", [], none, some "no such field", 1, false⟩],
          some (.execution "second" "no such field")⟩) := by
  have hcreate : create "orders" 20 (.infinite false) refusingSecond.source = .ok refusingSecond :=
    rfl
  have hreachable : refusingSecond.Reachable := ⟨_, _, _, _, _, [], hcreate, rfl⟩
  have hcases : ∀ index < threeStages.size, index = 0 ∨ index = 1 ∨ index = 2 := by decide
  have hnever : refusingSecond.NeverCrashes threeStages 1 := by
    intro index hindex crash hcrash
    rcases hcases index hindex with rfl | rfl | rfl <;> cases hcrash
  have hends : refusingSecond.EndsInTime threeStages 1 := by
    intro index hindex
    rcases hcases index hindex with rfl | rfl | rfl <;> exact .inl rfl
  obtain ⟨next, run, hstart, hending, hstructure, -⟩ :=
    run_structure hreachable (by decide) hnever hends
  exact ⟨hreachable, hnever, hends, ⟨next, run, hstart, hending, hstructure⟩, rfl⟩

end StageChain.Orchestrator
