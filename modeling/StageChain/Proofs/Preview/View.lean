import StageChain.Proofs.Preview.RunStructure
import StageChain.Proofs.Preview.Settling

/-!
# What a session shows

The results that a session has stored are those that the run of its generation has so far, each
under its node: `Stored` is the invariant. They are of the page of the session, unless a preview has
been missed since the run was started, because the graph had no report: `PageAgrees`. Together with
what `Settled` says of errors this is `shows_present`, for sessions that are left to settle after
each action. That previews can be missed is `not_ofPage`.
-/

namespace StageChain

namespace Orchestrator

variable {o : Orchestrator} {pipeline : Pipeline} {page : Int} {answer : Nat → Conclusion}
  {task : Task} {log : List Read}

/-- The results of a run are those of its first stages. -/
theorem Runs.map_nodeId (h : o.Runs pipeline page answer task log) :
    task.results.map StageResult.nodeId = pipeline.nodeIds.take task.results.length := by
  refine List.ext_getElem? fun index => ?_
  rw [List.getElem?_map, List.getElem?_take]
  split
  · rename_i hindex
    rw [List.getElem?_eq_getElem hindex, Option.map_some]
    exact (h.owner (List.getElem?_eq_getElem hindex)).2.symm
  · rename_i hindex
    rw [List.getElem?_eq_none (Nat.not_lt.1 hindex), Option.map_none]

theorem Runs.page_of_result (h : o.Runs pipeline page answer task log) {index : Nat}
    {result : StageResult} (hresult : task.results[index]? = some result) : result.page = page :=
  (StageRequest.gives_of_outcome (h.outcome index result hresult)).page_eq

/-- A new result of a run is that of a node that has none so far. -/
theorem Runs.nodeId_not_mem (h : o.Runs pipeline page answer task log)
    (hnodup : pipeline.nodeIds.Nodup) {results : List StageResult} {result : StageResult}
    (hresults : task.results = results ++ [result]) :
    result.nodeId ∉ results.map StageResult.nodeId := by
  have hdistinct : (task.results.map StageResult.nodeId).Nodup := by
    rw [h.map_nodeId]
    exact hnodup.sublist (List.take_sublist _ _)
  rw [hresults, List.map_append, List.nodup_append] at hdistinct
  exact fun hmem => hdistinct.2.2 _ hmem _ (List.mem_singleton_self _) rfl

end Orchestrator

namespace Session

variable {s next : Session} {k : Nat} {action : Action} {task : Task}

/-! ## Stored results -/

/-- The entries under which results are stored. -/
def entriesOf (results : List StageResult) : Entries StageResult :=
  results.map fun result => (result.nodeId, result)

theorem keys_entriesOf (results : List StageResult) :
    Entries.keys (entriesOf results) = results.map StageResult.nodeId := by
  rw [Entries.keys, entriesOf, List.map_map]
  rfl

/-- The results that are stored are those of the run of the current generation, or there are
none. -/
inductive Stored (s : Session) : Prop where
  | nothing (hempty : s.previews.entries = [])
      (hnone : ∀ (k : Nat) (task : Task), s.orchestrator.tasks[k]? = some task →
        task.generation ≠ s.orchestrator.generation) : Stored s
  | run (o : Orchestrator) (pipeline : Pipeline) (page : Int) (answer : Nat → Conclusion) (k : Nat)
      (task : Task) (hprogress : Orchestrator.Progress o pipeline page answer k s.orchestrator)
      (htask : s.orchestrator.tasks[k]? = some task)
      (hcurrent : task.generation = s.orchestrator.generation) (hnodup : pipeline.nodeIds.Nodup)
      (hstored : s.previews.entries = entriesOf task.results) : Stored s

/-- What is stored does not depend on what later reads meet. -/
theorem Stored.of_unchanged (h : s.Stored) (released : List String) (source : Source)
    (horchestrator : next.orchestrator =
      { s.orchestrator with released := released, source := source })
    (hpreviews : next.previews = s.previews) : next.Stored := by
  cases h with
  | nothing hempty hnone =>
      refine .nothing (by rw [hpreviews]; exact hempty) ?_
      rw [horchestrator]
      exact hnone
  | run o pipeline page answer k task hprogress htask hcurrent hnodup hstored =>
      have hchange : s.orchestrator.Change (.release "")
          { s.orchestrator with released := released, source := source } :=
        .unchanged _ _ _ rfl
      obtain ⟨answer, hlater⟩ := hprogress.change hchange rfl
      rw [← horchestrator] at hlater
      refine .run o pipeline page answer k task hlater ?_ ?_ hnodup ?_
      · rw [horchestrator]
        exact htask
      · rw [horchestrator]
        exact hcurrent
      · rw [hpreviews]
        exact hstored

theorem Stored.congr (h : s.Stored) (horchestrator : next.orchestrator = s.orchestrator)
    (hpreviews : next.previews = s.previews) : next.Stored :=
  h.of_unchanged s.orchestrator.released s.orchestrator.source horchestrator hpreviews

/-- Once a refused run has been recorded, no task has the current generation. -/
theorem generation_ne_of_reject {o : Orchestrator} (h : o.Coherent) (failure : Failure)
    (htask : (o.perform (.reject failure)).tasks[k]? = some task) :
    task.generation ≠ (o.perform (.reject failure)).generation := by
  rw [o.perform_reject] at htask ⊢
  have hle := h.cancel.task_le k task htask
  rw [Orchestrator.generation_cancel] at hle
  show task.generation ≠ o.generation + 1
  omega

/-- A run that is started has no results, and nothing is stored. -/
theorem stored_starting (h : s.Sound) {editor : Editor} {page : Int} {report : Report}
    {pipeline : Pipeline} (hpage : 1 ≤ page) (hcompile : editor.graph.compile = .ok report)
    (hresult : report.result = .ok pipeline) :
    (starting { s with editor := editor } page report pipeline).Stored := by
  obtain ⟨next, hstart, -, -, hnew, hprogress⟩ :=
    @Orchestrator.Coherent.progress_of_start s.orchestrator pipeline page h.coherent hpage
  have hperform : s.orchestrator.perform (.start pipeline page) = next := by
    simp [Orchestrator.perform, hstart, Except.toOption]
  have hadvanced : next.generation = s.orchestrator.generation + 1 := by
    rw [← hperform, s.orchestrator.perform_start pipeline hpage]
    rfl
  subst hperform
  exact .run s.orchestrator pipeline page (fun _ => .interrupted .cancelled) _ _ (hprogress _) hnew
    hadvanced.symm (Graph.nodup_of_result hcompile hresult) rfl

/-- A step of the run stores its new result, if there is one, behind those that are there. -/
theorem Stored.observe (h : s.Stored) (hcoherent : s.orchestrator.Coherent)
    {conclusion? : Option Conclusion} {later : Orchestrator}
    (htask : s.orchestrator.tasks[k]? = some task)
    (hmove : s.orchestrator.Move k task conclusion? later) : (s.observe later).Stored := by
  obtain ⟨hheld, hcurrent⟩ := hcoherent.pending k task htask hmove.isDone_eq_false
  cases h with
  | nothing hempty hnone => exact absurd hcurrent (hnone k task htask)
  | run o pipeline page answer j other hprogress hother _ hnodup hstored =>
      obtain rfl : j = k := Option.some.inj (hprogress.held.symm.trans hheld)
      obtain rfl : other = task := Option.some.inj (hother.symm.trans htask)
      obtain ⟨answer, hlater⟩ :=
        hprogress.change (.moved j other conclusion? later (.step j) rfl htask hmove) rfl
      obtain ⟨moved, news, htasks, hgeneration, hresults, hevents, hnews⟩ := hmove.results_eq
      have hmoved : later.tasks[j]? = some moved := by
        rw [htasks, List.getElem?_set_self (List.getElem?_eq_some_iff.1 htask).1]
      have hcurrent' : moved.generation = later.generation := by
        rw [hgeneration, hcurrent, hmove.generation_eq]
      refine .run o pipeline page answer j moved hlater hmoved hcurrent' hnodup ?_
      show ((later.events.drop s.orchestrator.events.length).foldl (absorb later.generation)
        s.previews).entries = entriesOf moved.results
      rw [hevents, List.drop_left, hresults]
      rcases hnews with rfl | ⟨-, result, rfl⟩
      · rw [List.append_nil]
        exact hstored
      · have hfresh : result.nodeId ∉ Entries.keys s.previews.entries := by
          obtain ⟨same, hsame, hruns⟩ := hlater.task
          obtain rfl : same = moved := Option.some.inj (hsame.symm.trans hmoved)
          rw [hstored, keys_entriesOf]
          exact hruns.nodeId_not_mem hnodup hresults
        have hold : other.generation = later.generation := hgeneration.symm.trans hcurrent'
        simp only [List.map_cons, List.map_nil, List.foldl_cons, List.foldl_nil, absorb, hold,
          if_true, OrderedMap.insert]
        rw [Entries.insert_of_not_mem hfresh, hstored, entriesOf, entriesOf, List.map_append]
        rfl

theorem Stored.change (h : s.Stored) (hsound : s.Sound) (hchange : s.Change action next) :
    next.Stored := by
  cases hchange with
  | unchanged action released source => exact h.of_unchanged released source rfl rfl
  | reported | edited | missed | noted => exact h.congr rfl rfl
  | refused action editor page report failure =>
      refine .nothing (by simp [refusing, OrderedMap.empty]) ?_
      simp only [orchestrator_refusing]
      exact fun _ _ htask => generation_ne_of_reject hsound.coherent failure htask
  | started action editor page report pipeline hasks hcompile hresult =>
      exact stored_starting hsound hasks.one_le hcompile hresult
  | moved action k task conclusion? later haction htask hmove =>
      exact h.observe hsound.coherent htask hmove
  | marked => exact h.congr (orchestrator_mark _ _) (previews_mark _ _)

/-! ## Pages -/

/-- The run of the current generation is of the page of the session. -/
def PageAgrees (s : Session) : Prop :=
  ∀ (k : Nat) (task : Task), s.orchestrator.tasks[k]? = some task →
    task.generation = s.orchestrator.generation → task.page = s.page

/-- An action asks for a preview of a graph that has no report. -/
def Misses (s : Session) (action : Action) : Prop :=
  ∃ editor page numeral, s.Asks action editor page ∧ editor.graph.compile = .error numeral

/-- A preview that is missed sets the page, and what is shown stays as it is. -/
theorem Asks.perform_of_overlong {editor : Editor} {page : Int} {numeral : Text.OverlongNumeral}
    (hkept : s.Kept) (h : s.Asks action editor page)
    (hcompile : editor.graph.compile = .error numeral) :
    s.perform action = { s with editor := editor, page := page } := by
  rw [h.perform_eq, (h.kept hkept).startPreview_of_overlong h.one_le hcompile]

theorem pageAgrees_refusing (hcoherent : s.orchestrator.Coherent) (editor : Editor) (page : Int)
    (report : Report) (failure : Failure) :
    (refusing { s with editor := editor } page report failure).PageAgrees := by
  intro k task htask hcurrent
  simp only [orchestrator_refusing] at htask hcurrent
  exact absurd hcurrent (generation_ne_of_reject hcoherent failure htask)

/-- A run that is started is of the page that was asked for, and no other task has its
generation. -/
theorem pageAgrees_starting (hcoherent : s.orchestrator.Coherent) (editor : Editor) {page : Int}
    (hpage : 1 ≤ page) (report : Report) (pipeline : Pipeline) :
    (starting { s with editor := editor } page report pipeline).PageAgrees := by
  intro k task htask hcurrent
  change (s.orchestrator.perform (.start pipeline page)).tasks[k]? = some task at htask
  change task.generation = (s.orchestrator.perform (.start pipeline page)).generation at hcurrent
  rw [s.orchestrator.perform_start pipeline hpage] at htask hcurrent
  rcases Orchestrator.getElem?_append_singleton htask with hold | ⟨-, rfl⟩
  · have hle := hcoherent.cancel.task_le k task hold
    rw [Orchestrator.generation_cancel] at hle
    have hnew : task.generation = s.orchestrator.generation + 1 := hcurrent
    omega
  · rfl

/-- A step of a task leaves the pages of all tasks alone. -/
theorem PageAgrees.observe (h : s.PageAgrees) {conclusion? : Option Conclusion}
    {later : Orchestrator} (htask : s.orchestrator.tasks[k]? = some task)
    (hmove : s.orchestrator.Move k task conclusion? later) : (s.observe later).PageAgrees := by
  intro j other hother hcurrent
  obtain ⟨moved, htasks, hgeneration, -, hpage⟩ := hmove.tasks_eq
  change later.tasks[j]? = some other at hother
  change other.generation = later.generation at hcurrent
  rw [hmove.generation_eq] at hcurrent
  rw [htasks, List.getElem?_set] at hother
  split at hother
  · split at hother
    · obtain rfl := Option.some.inj hother
      rw [hpage]
      exact h k task htask (hgeneration.symm.trans hcurrent)
    · cases hother
  · exact h j other hother hcurrent

/-- The page goes on to agree, unless a preview is missed. -/
theorem PageAgrees.change (h : s.PageAgrees) (hcoherent : s.orchestrator.Coherent)
    (hchange : s.Change action next) (hmisses : ¬ s.Misses action) : next.PageAgrees := by
  cases hchange with
  | unchanged | reported | edited | noted => exact h
  | missed action editor page numeral hasks hcompile =>
      exact absurd ⟨editor, page, numeral, hasks, hcompile⟩ hmisses
  | refused action editor page report failure =>
      exact pageAgrees_refusing hcoherent editor page report failure
  | started action editor page report pipeline hasks =>
      exact pageAgrees_starting hcoherent editor hasks.one_le report pipeline
  | moved action k task conclusion? later haction htask hmove => exact h.observe htask hmove
  | marked k run failure =>
      intro j other hother hcurrent
      rw [orchestrator_mark] at hother hcurrent
      rw [page_mark]
      exact h j other hother hcurrent

/-- Where a generation is taken, the page agrees again. -/
theorem pageAgrees_of_generation_ne (hcoherent : s.orchestrator.Coherent)
    (hchange : s.Change action next)
    (hne : next.orchestrator.generation ≠ s.orchestrator.generation) : next.PageAgrees := by
  cases hchange with
  | unchanged | reported | edited | missed | noted => exact absurd rfl hne
  | refused action editor page report failure =>
      exact pageAgrees_refusing hcoherent editor page report failure
  | started action editor page report pipeline hasks =>
      exact pageAgrees_starting hcoherent editor hasks.one_le report pipeline
  | moved action k task conclusion? later _ _ hmove => exact absurd hmove.generation_eq hne
  | marked => exact absurd (by rw [orchestrator_mark]) hne

theorem generation_settle (s : Session) :
    s.settle.orchestrator.generation = s.orchestrator.generation := by
  refine settle_of_changes
    (P := fun next => next.orchestrator.generation = s.orchestrator.generation) ?_ rfl
  intro before action after hsame hchange hasks
  exact (hchange.generation_eq hasks).trans hsame

theorem PageAgrees.settle (h : s.PageAgrees) (hsound : s.Sound) : s.settle.PageAgrees := by
  have hboth : s.settle.Sound ∧ s.settle.PageAgrees := by
    refine settle_of_changes (P := fun next => next.Sound ∧ next.PageAgrees) ?_ ⟨hsound, h⟩
    rintro before action after ⟨hbefore, hagrees⟩ hchange hasks
    refine ⟨hbefore.change hchange, hagrees.change hbefore.coherent hchange ?_⟩
    rintro ⟨editor, page, numeral, hmissed, -⟩
    exact hasks editor page hmissed
  exact hboth.2

/-- During the run of the current generation a preview has been missed. -/
def HasMissed (s : Session) (actions : List Action) : Prop :=
  ∃ first action rest, actions = first ++ action :: rest ∧
    (s.performSettled first).Misses action ∧
      (s.performSettled first).orchestrator.generation =
        (s.performSettled actions).orchestrator.generation

theorem performSettled_concat (s : Session) (actions : List Action) (action : Action) :
    s.performSettled (actions ++ [action]) = ((s.performSettled actions).perform action).settle :=
  s.performSettled_append actions [action]

/-- The page agrees, unless a preview has been missed since the current generation was taken. -/
theorem Settled.pageAgrees_or_hasMissed (h : s.Settled) (hagrees : s.PageAgrees)
    (actions : List Action) : (s.performSettled actions).PageAgrees ∨ s.HasMissed actions := by
  induction actions using List.reverseRecOn with
  | nil => exact .inl hagrees
  | append_singleton actions action ih =>
      have hsettled := h.performSettled actions
      have hchange := hsettled.sound.kept.change_perform action
      have hsound := hsettled.sound.change hchange
      rw [HasMissed, performSettled_concat, generation_settle]
      by_cases hsame : ((s.performSettled actions).perform action).orchestrator.generation =
          (s.performSettled actions).orchestrator.generation
      case neg =>
        have hcoherent := hsettled.sound.coherent
        exact .inl ((pageAgrees_of_generation_ne hcoherent hchange hsame).settle hsound)
      by_cases hmisses : (s.performSettled actions).Misses action
      · exact .inr ⟨actions, action, [], rfl, hmisses, hsame.symm⟩
      rcases ih with hbefore | ⟨first, missed, rest, rfl, hmissed, hgeneration⟩
      · have hafter := hbefore.change hsettled.sound.coherent hchange hmisses
        exact .inl (hafter.settle hsound)
      · refine .inr ⟨first, missed, rest ++ [action], by simp, hmissed, ?_⟩
        rw [hgeneration, hsame]

/-! ## The main theorem -/

/-- The results that are stored are those of the run of a task so far. -/
structure StoresRun (s : Session) (task : Task) : Prop where
  current : task.generation = s.orchestrator.generation
  /-- Each result is stored under its node, in the order of the run, and nothing else is. -/
  stored : s.previews.entries = entriesOf task.results
  /-- The results are those of the first stages, each for the node that owns the stage. -/
  owner : ∀ (index : Nat) (result : StageResult), task.results[index]? = some result →
    result.index = index ∧ task.pipeline.nodeIds[index]? = some result.nodeId ∧
      result.page = task.page
  nodup : task.pipeline.nodeIds.Nodup
  /-- At most the last result is a failed one. -/
  good : ∀ (index : Nat) (result : StageResult), index + 1 < task.results.length →
    task.results[index]? = some result → result.error = none
  /-- The run that the task ends with has the same results. -/
  finished : ∀ run, task.ending? = some (.finished run) → run.results = task.results

/-- The results that are stored are of the page of the session. -/
def OfPage (s : Session) : Prop := ∀ result ∈ s.previews.values, result.page = s.page

/-- What a session shows is present. -/
structure ShowsPresent (s : Session) : Prop where
  /-- What is stored are the results of the run of the current generation. -/
  stored : s.previews.entries = [] ∨
    ∃ (k : Nat) (task : Task), s.orchestrator.tasks[k]? = some task ∧ s.StoresRun task
  /-- A preview that is missed sets the page and leaves what is stored as it is. -/
  missed : ∀ action editor page numeral, s.Asks action editor page →
    editor.graph.compile = .error numeral →
      s.perform action = { s with editor := editor, page := page }
  /-- A node with an error is the one that the latest run has failed at. -/
  flags : s.FlagsLatest
  /-- At most one node has an error. -/
  flagged_eq : ∀ id other, s.editor.graph.errorAt id ≠ .null →
    s.editor.graph.errorAt other ≠ .null → id = other

theorem Stored.storesRun (h : s.Stored) : s.previews.entries = [] ∨
    ∃ (k : Nat) (task : Task), s.orchestrator.tasks[k]? = some task ∧ s.StoresRun task := by
  cases h with
  | nothing hempty => exact .inl hempty
  | run o pipeline page answer k task hprogress htask hcurrent hnodup hstored =>
      obtain ⟨same, hsame, hruns⟩ := hprogress.task
      obtain rfl : same = task := Option.some.inj (hsame.symm.trans htask)
      obtain ⟨begun, hstanding, -⟩ := hruns.standing
      obtain rfl := hruns.pipeline_eq
      refine .inr ⟨k, same, htask, ?_⟩
      constructor
      case current => exact hcurrent
      case stored => exact hstored
      case owner =>
        intro index result hresult
        obtain ⟨hindex, howner⟩ := hruns.owner hresult
        exact ⟨hindex, howner, (hruns.page_of_result hresult).trans hruns.page_eq.symm⟩
      case nodup => exact hnodup
      case good =>
        intro index result hindex hresult
        exact hstanding.error_eq_none_of_lt hindex hresult
      case finished =>
        intro run hending
        have hphase : same.phase = .ended (.finished run) := by
          unfold Task.ending? at hending
          split at hending
          · rename_i ending hphase
            rw [hphase, Option.some.inj hending]
          · cases hending
        rw [hphase] at hstanding
        cases hstanding with
        | finished => rfl
        | dropped _ _ hnot => exact absurd rfl (hnot run)

theorem Stored.step (h : s.Stored) (hsound : s.Sound) (action : Action) :
    (s.perform action).settle.Stored := by
  have hboth : (s.perform action).settle.Sound ∧ (s.perform action).settle.Stored := by
    refine settle_of_changes (P := fun next => next.Sound ∧ next.Stored) ?_ ?_
    · rintro before other after ⟨hbefore, hstored⟩ hchange -
      exact ⟨hbefore.change hchange, hstored.change hbefore hchange⟩
    · exact ⟨hsound.perform action, h.change hsound (hsound.kept.change_perform action)⟩
  exact hboth.2

theorem Settled.stored (h : s.Settled) (hstored : s.Stored) (actions : List Action) :
    (s.performSettled actions).Stored := by
  induction actions generalizing s with
  | nil => exact hstored
  | cons action rest ih => exact ih (h.step action) (hstored.step h.sound action)

theorem settled_create {collection : String} {pageSize : Int} {timeout : Double} {source : Source}
    {o : Orchestrator} (hnew : Orchestrator.create collection pageSize timeout source = .ok o)
    {editor : Editor} (hclean : ∀ id, editor.graph.errorAt id = .null) :
    (create editor o).Settled :=
  ⟨sound_create editor hnew, fun _ hk => absurd hk List.not_mem_nil,
    fun id hid => absurd (hclean id) hid⟩

theorem Settled.showsPresent (h : s.Settled) (hstored : s.Stored) : s.ShowsPresent where
  stored := hstored.storesRun
  missed := fun _ _ _ _ hasks hcompile => hasks.perform_of_overlong h.sound.kept hcompile
  flags := h.flags
  flagged_eq := by
    intro id other hid hother
    obtain ⟨run, -, hrun, -, -, hnode, -⟩ := h.flags id hid
    obtain ⟨same, -, hsame, -, -, hnode', -⟩ := h.flags other hother
    obtain rfl : run = same := Option.some.inj (hrun.symm.trans hsame)
    exact Option.some.inj (hnode.symm.trans hnode')

theorem PageAgrees.ofPage (h : s.PageAgrees) (hstored : s.Stored) : s.OfPage := by
  intro result hresult
  unfold OrderedMap.values at hresult
  rcases hstored.storesRun with hempty | ⟨k, task, htask, hstores⟩
  · rw [hempty] at hresult
    cases hresult
  · rw [hstores.stored, entriesOf, List.map_map] at hresult
    obtain ⟨same, hmem, rfl⟩ := List.mem_map.1 hresult
    obtain ⟨index, hindex⟩ := List.getElem?_of_mem hmem
    exact (hstores.owner index same hindex).2.2.trans (h k task htask hstores.current)

/-- Whatever happens to a session that is left to settle after each action, it shows the results of
the run of the current generation so far, of its own page unless a preview has been missed, and at
most one error, which is that of the latest run. -/
theorem shows_present {collection : String} {pageSize : Int} {timeout : Double} {source : Source}
    {o : Orchestrator} (hnew : Orchestrator.create collection pageSize timeout source = .ok o)
    {editor : Editor} (hclean : ∀ id, editor.graph.errorAt id = .null) (actions : List Action) :
    ((create editor o).performSettled actions).ShowsPresent ∧
      (((create editor o).performSettled actions).OfPage ∨
        (create editor o).HasMissed actions) := by
  have hcreated := settled_create hnew hclean
  have hnone : ∀ (k : Nat) (task : Task), (create editor o).orchestrator.tasks[k]? ≠ some task := by
    obtain rfl := Orchestrator.create_eq_ok hnew
    simp [create]
  have hempty : (create editor o).Stored :=
    .nothing rfl fun k task htask => absurd htask (hnone k task)
  have hagrees : (create editor o).PageAgrees := fun k task htask => absurd htask (hnone k task)
  have hstored := hcreated.stored hempty actions
  refine ⟨(hcreated.performSettled actions).showsPresent hstored, ?_⟩
  rcases hcreated.pageAgrees_or_hasMissed hagrees actions with hafter | hmissed
  · exact .inl (hafter.ofPage hstored)
  · exact .inr hmissed

/-! ## A page that is not shown -/

/-- A preview of the limit of five, an edit that leaves the graph without a report, and a preview of
the second page, which is missed. -/
def missingSecond (digits : List Char) : List Action :=
  [.preview 1, .edit (putDigits digits), .preview 2]

/-- The run of the limit of five. -/
def runOfFive : Run := ⟨1, [⟨0, "limit", [], some 0, none, 1, false⟩], none⟩

/-- The session once the preview of the first page has settled. -/
def previewedFive : Session where
  editor := .ofGraph (onlyLimit (.int 5))
  orchestrator := { newOrchestrator with
    generation := 1
    held := some 0
    tasks := [⟨1, ⟨[⟨"limit", ⟨"$limit", .int 5⟩⟩], []⟩, 1, runOfFive.results,
      .ended (.finished runOfFive)⟩]
    latest := some runOfFive
    log := [Source.pageRead "orders" [.object [("$limit", .int 5)]] 20 1,
      Source.countRead "orders" [.object [("$limit", .int 5)]]]
    events := runOfFive.results.map (RunEvent.mk 1) }
  cached := previewingFive.cached
  previews := OrderedMap.empty.insert "limit" ⟨0, "limit", [], some 0, none, 1, false⟩
  page := 1
  pending := some (.following 0)
  following := []

theorem settle_previewingFive : previewingFive.settle = previewedFive := rfl

theorem performSettled_preview_newFive : newFive.performSettled [.preview 1] = previewedFive := by
  show (newFive.perform (.preview 1)).settle = previewedFive
  rw [perform_preview_newFive, settle_previewingFive]

theorem idle_previewedFive : previewedFive.orchestrator.Idle := by
  intro k task htask
  cases k with
  | zero =>
      obtain rfl := Option.some.inj htask
      rfl
  | succ k => cases htask

/-- The session shows the first page, and nothing is wrong. -/
theorem shows_present_of_previewedFive :
    Orchestrator.create "orders" 20 (.infinite false) .none = .ok newOrchestrator ∧
      (∀ id, (onlyLimit (.int 5)).errorAt id = .null) ∧
        previewedFive.ShowsPresent ∧ previewedFive.OfPage ∧
          previewedFive.previews.entries = entriesOf runOfFive.results := by
  have hclean : ∀ id, (Editor.ofGraph (onlyLimit (.int 5))).graph.errorAt id = .null :=
    errorAt_onlyLimit _
  have hshows : (newFive.performSettled [.preview 1]).ShowsPresent :=
    (shows_present create_newOrchestrator hclean [.preview 1]).1
  have hpage : previewedFive.OfPage := by
    intro result hresult
    obtain rfl := List.mem_singleton.1 hresult
    rfl
  rw [performSettled_preview_newFive] at hshows
  exact ⟨create_newOrchestrator, hclean, hshows, hpage, rfl⟩

/-- Once overlong digits have been put in place of the limit, a preview of the second page is
missed, and the first page is still shown. -/
theorem performSettled_missingSecond {digits : List Char}
    (hdigits : ∀ c ∈ digits, Text.isAsciiDigit c = true) (hlong : Text.maxDigits < digits.length) :
    ∃ editor, newFive.performSettled (missingSecond digits) =
      { previewedFive with editor := editor, page := 2 } := by
  have hnew : newFive.Sound := sound_create _ create_newOrchestrator
  have hpreviewed : previewedFive.Sound := by
    rw [← settle_previewingFive, ← perform_preview_newFive]
    exact (hnew.perform _).settle
  let editor := (previewedFive.perform (.edit (putDigits digits))).editor
  let edited : Session := { previewedFive with editor := editor }
  have hedit : previewedFive.perform (.edit (putDigits digits)) = edited := rfl
  have hsettle : edited.settle = edited := settle_of_idle idle_previewedFive rfl
  have hkept : edited.Kept := hedit ▸ (hpreviewed.perform (.edit (putDigits digits))).kept
  have hcompile : editor.graph.compile = .error ⟨digits.length⟩ :=
    compile_onlyLimit_of_overlong hdigits hlong
  refine ⟨editor, ?_⟩
  calc newFive.performSettled (missingSecond digits)
      = previewedFive.performSettled [.edit (putDigits digits), .preview 2] := by
        rw [← performSettled_preview_newFive, ← performSettled_append]
        rfl
    _ = edited.performSettled [.preview 2] := by
        rw [performSettled_cons, hedit, hsettle]
    _ = { edited with page := 2 }.settle := by
        rw [performSettled_cons, Asks.perform_of_overlong hkept (.request 2 (by decide)) hcompile]
        rfl
    _ = { edited with page := 2 } :=
        @settle_of_idle { edited with page := 2 } idle_previewedFive rfl

/-- The page of the session is not always the one that is shown. -/
theorem not_ofPage : ¬ ∀ actions : List Action, (newFive.performSettled actions).OfPage := by
  intro hall
  obtain ⟨digits, hlength, hdigits⟩ := exists_overlong
  obtain ⟨editor, hmissed⟩ := performSettled_missingSecond hdigits (by rw [hlength]; decide)
  have hpage := hall (missingSecond digits)
  rw [hmissed] at hpage
  have hsame : (1 : Int) = 2 := hpage _ (List.mem_singleton_self _)
  exact absurd hsame (by decide)

end Session

end StageChain
