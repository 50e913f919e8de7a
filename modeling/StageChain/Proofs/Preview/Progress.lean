import StageChain.Proofs.Preview.Generations

/-!
# How far a run has come

`Progress` is the invariant of a run from its start on: which results it has, which reads have
begun, and how it can have ended, given how the pair of reads of each prefix ends. It holds whatever
happens besides, as long as nothing cancels the run: `Progress.performAll`.
-/

namespace StageChain

/-- Both reads have succeeded. -/
def Conclusion.Succeeds (conclusion : Conclusion) : Prop :=
  ∃ documents count, conclusion = .fetched documents count

namespace StageRequest

variable {request : StageRequest} {result : StageResult} {conclusion : Conclusion}

/-- A result is good only if both reads have succeeded. -/
theorem succeeds_of_outcome (h : request.outcome conclusion = .result result)
    (hgood : result.error = none) : conclusion.Succeeds := by
  cases conclusion with
  | fetched documents count => exact ⟨documents, count, rfl⟩
  | failed fault =>
      cases fault with
      | refused message =>
          cases h
          cases hgood
      | crashed crash => cases h
  | interrupted interruption =>
      cases interruption with
      | cancelled => cases h
      | timedOut =>
          cases h
          cases hgood

theorem outcome_of_succeeds (h : request.outcome conclusion = .result result)
    (hsucceeds : conclusion.Succeeds) : result.error = none := by
  obtain ⟨documents, count, rfl⟩ := hsucceeds
  cases h
  rfl

/-- A failed result has a message, and nothing that was read. -/
theorem failed_of_outcome {message : String} (h : request.outcome conclusion = .result result)
    (herror : result.error = some message) :
    message ≠ "" ∧ result.documents = [] ∧ result.count = none := by
  rcases gives_of_outcome h with ⟨_, _, rfl⟩ | ⟨text, htext, rfl⟩
  · cases herror
  · obtain rfl := Option.some.inj herror
    exact ⟨htext, rfl, rfl⟩

end StageRequest

namespace Orchestrator

/-- What the result of a prefix is about. -/
def requestAt (o : Orchestrator) (pipeline : Pipeline) (page : Int) (index : Nat) :
    StageRequest where
  index := index
  nodeId := pipeline.nodeIds[index]?.getD ""
  pageSize := o.pageSize
  page := page
  timeout := o.timeout

/-- The reads of the first prefixes, the shortest first. -/
def readsUpTo (o : Orchestrator) (pipeline : Pipeline) (page : Int) (count : Nat) : List Read :=
  (List.range count).flatMap fun index => o.readsAt pipeline page (index + 1)

theorem readsUpTo_succ (o : Orchestrator) (pipeline : Pipeline) (page : Int) (count : Nat) :
    o.readsUpTo pipeline page (count + 1) =
      o.readsUpTo pipeline page count ++ o.readsAt pipeline page (count + 1) := by
  simp [readsUpTo, List.range_succ]

/-- The last owner of a prefix is the owner of its last stage. -/
theorem request_eq_requestAt (o : Orchestrator) {task : Task}
    (h : task.results.length < task.pipeline.size) :
    o.request task = o.requestAt task.pipeline task.page task.results.length := by
  have howner :
      (nextPrefix task).nodeIds.getLast? = task.pipeline.nodeIds[task.results.length]? := by
    have hlength : task.results.length < task.pipeline.stages.length := h
    simp only [nextPrefix, Pipeline.nodeIds, Pipeline.take, List.getLast?_map, List.getElem?_map,
      List.getLast?_take]
    simp [hlength]
  simp only [request, requestAt, howner]

/-- How the run of a task can have ended: all prefixes have good results, or the last result is the
first that failed. -/
inductive Closed (pipeline : Pipeline) (results : List StageResult) : Option Failure → Prop where
  | complete (hall : results.length = pipeline.size)
      (hgood : ∀ result ∈ results, result.error = none) : Closed pipeline results none
  | halted (before : List StageResult) (last : StageResult) (message : String)
      (hresults : results = before ++ [last]) (hgood : ∀ result ∈ before, result.error = none)
      (herror : last.error = some message) :
      Closed pipeline results (some (.execution last.nodeId message))

/-- Where a run stands with some results: what its phase can be, and of how many prefixes the reads
have begun. -/
inductive Standing (pipeline : Pipeline) (generation : Nat) (results : List StageResult) :
    Phase → Nat → Prop where
  | ready (hgood : ∀ result ∈ results, result.error = none) :
      Standing pipeline generation results .ready results.length
  | reading (reads : ReadsInProgress) (hgood : ∀ result ∈ results, result.error = none)
      (hmore : results.length < pipeline.size) :
      Standing pipeline generation results (.reading reads) (results.length + 1)
  | finished (failure : Option Failure) (hclosed : Closed pipeline results failure) :
      Standing pipeline generation results (.ended (.finished ⟨generation, results, failure⟩))
        results.length
  | dropped (ending : Ending) (begun : Nat) (hending : ∀ run, ending ≠ .finished run)
      (hgood : ∀ result ∈ results, result.error = none) (hbegun : begun ≤ results.length + 1)
      (hsize : begun ≤ pipeline.size) :
      Standing pipeline generation results (.ended ending) begun

namespace Standing

variable {pipeline : Pipeline} {generation : Nat} {results : List StageResult} {phase : Phase}
  {begun : Nat}

theorem begun_le_size (h : Standing pipeline generation results phase begun)
    (hle : results.length ≤ pipeline.size) : begun ≤ pipeline.size := by
  cases h with
  | ready | finished => exact hle
  | reading _ _ hmore => exact hmore
  | dropped _ _ _ _ _ hsize => exact hsize

/-- Every prefix whose reads have begun has a result, but perhaps the last. -/
theorem begun_le_succ (h : Standing pipeline generation results phase begun) :
    begun ≤ results.length + 1 := by
  cases h with
  | ready | finished => exact Nat.le_succ _
  | reading => exact Nat.le_refl _
  | dropped _ _ _ _ hbegun => exact hbegun

/-- All results are good, or the run has ended with the last, and those before are good. -/
theorem good_or_halted (h : Standing pipeline generation results phase begun) :
    (∀ result ∈ results, result.error = none) ∨
      begun = results.length ∧ ∃ before last, results = before ++ [last] ∧
        ∀ result ∈ before, result.error = none := by
  cases h with
  | ready hgood | reading _ hgood | dropped _ _ _ hgood => exact .inl hgood
  | finished failure hclosed =>
      cases hclosed with
      | complete _ hgood => exact .inl hgood
      | halted before last message hresults hgood => exact .inr ⟨rfl, before, last, hresults, hgood⟩

/-- The results are good, but perhaps for the last one. -/
theorem error_eq_none_of_lt (h : Standing pipeline generation results phase begun) {index : Nat}
    {result : StageResult} (hindex : index + 1 < results.length)
    (hresult : results[index]? = some result) : result.error = none := by
  rcases h.good_or_halted with hgood | ⟨-, before, last, rfl, hgood⟩
  · exact hgood result (List.mem_of_getElem? hresult)
  · rw [List.length_append, List.length_singleton] at hindex
    rw [List.getElem?_append_left (by omega)] at hresult
    exact hgood result (List.mem_of_getElem? hresult)

/-- The results are good, but perhaps for the last prefix whose reads have begun. -/
theorem error_eq_none (h : Standing pipeline generation results phase begun) {index : Nat}
    {result : StageResult} (hindex : index + 1 < begun) (hresult : results[index]? = some result) :
    result.error = none := by
  rcases h.good_or_halted with hgood | ⟨hbegun, -⟩
  · exact hgood result (List.mem_of_getElem? hresult)
  · exact h.error_eq_none_of_lt (hbegun ▸ hindex) hresult

end Standing

/-- What holds of the task of a run, and of the reads, once the run has been started in `o`. The
pair of reads of each prefix ends in the way that `answer` says. -/
structure Runs (o : Orchestrator) (pipeline : Pipeline) (page : Int) (answer : Nat → Conclusion)
    (task : Task) (log : List Read) : Prop where
  pipeline_eq : task.pipeline = pipeline
  page_eq : task.page = page
  generation_eq : task.generation = o.generation + 1
  length_le : task.results.length ≤ pipeline.size
  outcome : ∀ (index : Nat) (result : StageResult), task.results[index]? = some result →
    (o.requestAt pipeline page index).outcome (answer index) = .result result
  standing : ∃ begun, Standing pipeline task.generation task.results task.phase begun ∧
    log = o.log ++ o.readsUpTo pipeline page begun

/-- How far the run has come that was started in `o` and has the task `k`. -/
structure Progress (o : Orchestrator) (pipeline : Pipeline) (page : Int) (answer : Nat → Conclusion)
    (k : Nat) (s : Orchestrator) : Prop where
  coherent : s.Coherent
  held : s.held = some k
  collection_eq : s.collection = o.collection
  pageSize_eq : s.pageSize = o.pageSize
  timeout_eq : s.timeout = o.timeout
  task : ∃ task, s.tasks[k]? = some task ∧ o.Runs pipeline page answer task s.log

variable {o s next : Orchestrator} {pipeline : Pipeline} {page : Int} {answer : Nat → Conclusion}
  {k : Nat} {task : Task} {conclusion? : Option Conclusion}

theorem outcome_append {results : List StageResult} {result : StageResult}
    (h : ∀ (index : Nat) (result : StageResult), results[index]? = some result →
      (o.requestAt pipeline page index).outcome (answer index) = .result result)
    (hlast : (o.requestAt pipeline page results.length).outcome (answer results.length) =
      .result result) (index : Nat) (other : StageResult)
    (hother : (results ++ [result])[index]? = some other) :
    (o.requestAt pipeline page index).outcome (answer index) = .result other := by
  rcases Nat.lt_or_ge index results.length with hindex | hindex
  · rw [List.getElem?_append_left hindex] at hother
    exact h index other hother
  · rw [List.getElem?_append_right hindex, List.getElem?_singleton] at hother
    split at hother
    · obtain rfl : index = results.length := by omega
      rw [← Option.some.inj hother]
      exact hlast
    · cases hother

theorem closed_of_closes {result : StageResult} {failure : Option Failure}
    (hgood : ∀ result ∈ task.results, result.error = none)
    (hmore : task.results.length < task.pipeline.size) (hcloses : Closes task result failure) :
    Closed task.pipeline (task.results ++ [result]) failure := by
  rcases hcloses with ⟨herror, hlast, rfl⟩ | ⟨message, herror, rfl⟩
  · refine .complete ?_ ?_
    · rw [List.length_append, List.length_singleton]
      omega
    · intro other hother
      rcases List.mem_append.1 hother with hmem | hmem
      · exact hgood other hmem
      · rw [List.mem_singleton.1 hmem, herror]
  · exact .halted task.results result message rfl hgood herror

/-- A run that is started has nothing yet. -/
theorem Coherent.progress_of_start (h : o.Coherent) (hpage : 1 ≤ page) :
    ∃ next, o.start pipeline page = .ok next ∧ next.source = o.source ∧
      next.released = o.released ∧
      next.tasks[o.tasks.length]? = some ⟨o.generation + 1, pipeline, page, [], .ready⟩ ∧
      ∀ answer, Progress o pipeline page answer o.tasks.length next := by
  have hkept : o.cancel.collection = o.collection ∧ o.cancel.pageSize = o.pageSize ∧
      o.cancel.timeout = o.timeout ∧ o.cancel.source = o.source ∧
      o.cancel.released = o.released ∧ o.cancel.log = o.log := by
    unfold Orchestrator.cancel
    split <;> exact ⟨rfl, rfl, rfl, rfl, rfl, rfl⟩
  obtain ⟨hcollection, hsize, htimeout, hsource, hreleased, hlog⟩ := hkept
  have hlength : o.advance.tasks.length = o.tasks.length := o.length_tasks_cancel
  have hnew :
      (o.advance.tasks ++ [⟨o.advance.generation, pipeline, page, [], .ready⟩])[o.tasks.length]? =
        some ⟨o.generation + 1, pipeline, page, [], .ready⟩ := by
    rw [← hlength, List.getElem?_concat_length]
    rfl
  refine ⟨_, if_neg (Int.not_lt.2 hpage), hsource, hreleased, hnew, fun answer => ?_⟩
  refine ⟨h.start pipeline page, congrArg some hlength, hcollection, hsize, htimeout, _, hnew, ?_⟩
  refine ⟨rfl, rfl, rfl, Nat.zero_le _, fun _ _ hnone => by simp at hnone, 0, .ready (by simp), ?_⟩
  exact hlog.trans (List.append_nil _).symm

namespace Progress

theorem readsAt_eq (h : Progress o pipeline page answer k s) (length : Nat) :
    s.readsAt pipeline page length = o.readsAt pipeline page length := by
  simp only [readsAt, h.collection_eq, h.pageSize_eq]

theorem requestAt_eq (h : Progress o pipeline page answer k s) (index : Nat) :
    s.requestAt pipeline page index = o.requestAt pipeline page index := by
  simp only [requestAt, h.pageSize_eq, h.timeout_eq]

/-- A step of the run keeps its invariant, if its reads end in the way that `answer` says. -/
theorem move (h : Progress o pipeline page answer k s) (htask : s.tasks[k]? = some task)
    (hmove : s.Move k task conclusion? next)
    (hanswer : ∀ conclusion, conclusion? = some conclusion →
      conclusion = answer task.results.length) : Progress o pipeline page answer k next := by
  have hcoherent := h.coherent.move htask hmove
  have hheld := hmove.held_eq.trans h.held
  have hcurrent := (h.coherent.pending k task htask hmove.isDone_eq_false).2
  obtain ⟨same, hsame, hruns⟩ := h.task
  obtain rfl : task = same := Option.some.inj (htask.symm.trans hsame)
  obtain ⟨begun, hstanding, hlog⟩ := hruns.standing
  obtain rfl := hruns.pipeline_eq
  obtain rfl := hruns.page_eq
  have hput := getElem?_setTask_self htask
  obtain ⟨hcollection, hsize, htimeout, -, -⟩ := hmove.limits_eq
  refine ⟨hcoherent, hheld, hcollection.trans h.collection_eq, hsize.trans h.pageSize_eq,
    htimeout.trans h.timeout_eq, ?_⟩
  cases hmove with
  | began hphase hmore =>
      rw [hphase] at hstanding
      cases hstanding with
      | ready hgood =>
          refine ⟨_, hput _, rfl, rfl, hruns.generation_eq, hruns.length_le, hruns.outcome, _,
            .reading _ hgood hmore, ?_⟩
          rw [hlog, h.readsAt_eq, readsUpTo_succ, List.append_assoc]
  | dropped _ ending hopen hending hwhy =>
      refine ⟨_, hput _, rfl, rfl, hruns.generation_eq, hruns.length_le, hruns.outcome, begun, ?_,
        hlog⟩
      have hle := hruns.length_le
      -- the reads of one more prefix than there are results may have begun
      cases hphase : task.phase with
      | ended other => simp [Task.isDone, hphase] at hopen
      | ready =>
          rw [hphase] at hstanding
          cases hstanding with
          | ready hgood => exact .dropped ending _ hending hgood (Nat.le_succ _) hle
      | reading reads =>
          rw [hphase] at hstanding
          cases hstanding with
          | reading _ hgood hmore => exact .dropped ending _ hending hgood (Nat.le_refl _) hmore
  | told reads conclusion result hphase _ houtcome herror hmore =>
      rw [hphase] at hstanding
      cases hstanding with
      | reading _ hgood hless =>
          obtain rfl := hanswer conclusion rfl
          rw [s.request_eq_requestAt hless, h.requestAt_eq] at houtcome
          refine ⟨_, hput _, rfl, rfl, hruns.generation_eq, ?_,
            outcome_append hruns.outcome houtcome, _, .ready ?_, ?_⟩
          · simp only [List.length_append, List.length_singleton]
            omega
          · intro other hother
            rcases List.mem_append.1 hother with hmem | hmem
            · exact hgood other hmem
            · rw [List.mem_singleton.1 hmem, herror]
          · rw [List.length_append, List.length_singleton]
            exact hlog
  | finished reads conclusion result failure hphase _ houtcome hcloses =>
      rw [hphase] at hstanding
      cases hstanding with
      | reading _ hgood hless =>
          obtain rfl := hanswer conclusion rfl
          rw [s.request_eq_requestAt hless, h.requestAt_eq] at houtcome
          refine ⟨_, hput _, rfl, rfl, hruns.generation_eq, ?_,
            outcome_append hruns.outcome houtcome, _,
            .finished failure (closed_of_closes hgood hless hcloses), ?_⟩
          · simp only [List.length_append, List.length_singleton]
            omega
          · rw [List.length_append, List.length_singleton]
            exact hlog
  | completed hphase _ hall =>
      rw [hphase] at hstanding
      cases hstanding with
      | ready hgood =>
          exact ⟨_, hput _, rfl, rfl, hruns.generation_eq, hruns.length_le, hruns.outcome, _,
            .finished none (.complete (Nat.le_antisymm hruns.length_le hall) hgood), hlog⟩

/-- How the reads of a prefix end may be said once it is known. -/
theorem setAnswer (h : Progress o pipeline page answer k s) (htask : s.tasks[k]? = some task)
    (conclusion : Conclusion) :
    Progress o pipeline page
      (fun index => if index = task.results.length then conclusion else answer index) k s := by
  obtain ⟨same, hsame, hruns⟩ := h.task
  obtain rfl : task = same := Option.some.inj (htask.symm.trans hsame)
  refine ⟨h.coherent, h.held, h.collection_eq, h.pageSize_eq, h.timeout_eq, task, htask, ?_⟩
  refine { hruns with outcome := fun index result hresult => ?_ }
  obtain ⟨hindex, -⟩ := List.getElem?_eq_some_iff.1 hresult
  rw [if_neg (Nat.ne_of_lt hindex)]
  exact hruns.outcome index result hresult

theorem change {action : Action} (h : Progress o pipeline page answer k s)
    (hchange : s.Change action next) (hcancels : action.cancels = false) :
    ∃ answer, Progress o pipeline page answer k next := by
  have hcoherent := h.coherent.change hchange
  cases hchange with
  | started pipeline page hpage => simp [Action.cancels, Action.advances, hpage] at hcancels
  | cancelled | rejected => cases hcancels
  | accepted | unchanged =>
      exact ⟨answer, hcoherent, h.held, h.collection_eq, h.pageSize_eq, h.timeout_eq, h.task⟩
  | moved j task conclusion? next action haction htask hmove =>
      -- only the task of the run can be pending
      have hheld := (h.coherent.pending j task htask hmove.isDone_eq_false).1
      obtain rfl : j = k := Option.some.inj (hheld.symm.trans h.held)
      cases conclusion? with
      | none => exact ⟨answer, h.move htask hmove fun _ hnone => by cases hnone⟩
      | some conclusion =>
          -- how these reads end is known only now, and no result depends on it yet
          refine ⟨_, (h.setAnswer htask conclusion).move htask hmove fun other hother => ?_⟩
          rw [if_pos rfl, Option.some.inj hother]

/-- Whatever happens that does not cancel the run, its reads end in some way. -/
theorem performAll (h : Progress o pipeline page answer k s) (actions : List Action)
    (hactions : ∀ action ∈ actions, action.cancels = false) :
    ∃ answer, Progress o pipeline page answer k (s.performAll actions) := by
  induction actions generalizing s answer with
  | nil => exact ⟨answer, h⟩
  | cons action rest ih =>
      have hfirst := hactions action (List.mem_cons_self ..)
      obtain ⟨answer, hnext⟩ := h.change (s.change_perform action) hfirst
      exact ih hnext fun other hother => hactions other (List.mem_cons_of_mem _ hother)

end Progress

end Orchestrator

end StageChain
