import StageChain.Proofs.Pipeline.Compilation
import StageChain.Proofs.Preview.SessionChange

/-!
# Only the present graph is run

A run that is in flight is a run of the graph as it is, as long as the graph has a report at all.
`InStep` is the invariant behind this: it relates the pipeline of a pending task to the graph, by
way of the report that is kept and of what the session does when it hears of a change. A graph with
an overlong numeral has no report, and then a run of an earlier graph goes on, since nothing cancels
it: `InStep.perform_edit_of_unreported`.
-/

namespace StageChain

theorem Orchestrator.Move.pending {o next : Orchestrator} {j k : Nat} {task later : Task}
    {conclusion? : Option Conclusion} (h : o.Move k task conclusion? next)
    (htask : o.tasks[k]? = some task) (hlater : next.tasks[j]? = some later)
    (hopen : later.isDone = false) :
    ∃ earlier, o.tasks[j]? = some earlier ∧ earlier.isDone = false ∧
      later.pipeline = earlier.pipeline := by
  obtain ⟨moved, htasks, -, hpipeline, -⟩ := h.tasks_eq
  obtain ⟨hk, -⟩ := List.getElem?_eq_some_iff.1 htask
  rw [htasks, List.getElem?_set] at hlater
  by_cases hj : k = j
  · subst hj
    simp only [hk, if_true] at hlater
    obtain rfl := Option.some.inj hlater
    exact ⟨task, htask, h.isDone_eq_false, hpipeline⟩
  · rw [if_neg hj] at hlater
    exact ⟨later, hlater, hopen, rfl⟩

namespace Session

variable {s next : Session} {k : Nat} {page : Int}

/-! ## The invariant -/

/-- A pending task runs the pipeline of the graph, if the graph has a report. -/
structure InStep (s : Session) : Prop where
  coherent : s.orchestrator.Coherent
  kept : s.Kept
  result_eq : ∀ (k : Nat) (task : Task), s.orchestrator.tasks[k]? = some task →
    task.isDone = false → ∀ report, s.editor.graph.compile = .ok report →
      report.result = .ok task.pipeline

theorem inStep_create {collection : String} {pageSize : Int} {timeout : Double} {source : Source}
    {orchestrator : Orchestrator} (editor : Editor)
    (h : Orchestrator.create collection pageSize timeout source = .ok orchestrator) :
    (create editor orchestrator).InStep := by
  have hcoherent := Orchestrator.coherent_of_create h
  obtain rfl := Orchestrator.create_eq_ok h
  refine ⟨hcoherent, kept_create editor _, ?_⟩
  intro k task htask
  simp [create] at htask

/-- Every action keeps the session in step. -/
theorem InStep.change {action : Action} (h : s.InStep) (hchange : s.Change action next) :
    next.InStep := by
  obtain ⟨inner, -, hinner⟩ := hchange.orchestrator
  refine ⟨h.coherent.change hinner, h.kept.change hchange, ?_⟩
  intro k task htask hopen present hpresent
  -- a graph that compiles otherwise than before has no pending task, unless it is a new one
  cases hchange with
  | unchanged | reported | noted => exact h.result_eq k task htask hopen present hpresent
  | edited edit editor hkeeps hquiet =>
      rcases hquiet with ⟨hsame, -⟩ | ⟨hfree, -⟩
      · rw [hsame.compile_eq] at hpresent
        exact h.result_eq k task htask hopen present hpresent
      · exact absurd hopen ((h.coherent.idle_of_inFlight hfree).not_pending htask)
  | missed action editor page numeral hasks hcompile => cases hcompile.symm.trans hpresent
  | refused action editor page report failure =>
      rw [orchestrator_refusing] at htask
      exact absurd hopen ((h.coherent.idle_reject failure).not_pending htask)
  | started action editor page report pipeline hasks hcompile hresult =>
      have hretains : Retains { s with editor := editor }
          (starting { s with editor := editor } page report pipeline) := retains_starting hcompile
      rw [hretains.sameStages.compile_eq] at hpresent
      obtain rfl := Except.ok.inj (hcompile.symm.trans hpresent)
      rw [h.coherent.eq_of_start hasks.one_le htask hopen]
      exact hresult
  | moved action j moved conclusion? later haction hmoved hmove =>
      obtain ⟨earlier, hearlier, hopen', hpipeline⟩ := hmove.pending hmoved htask hopen
      rw [hpipeline]
      exact h.result_eq k earlier hearlier hopen' present hpresent
  | marked j run failure =>
      have hnoted : Kept { s with following := s.following.erase j } :=
        ⟨h.kept.revision_le, h.kept.compile_eq⟩
      rw [orchestrator_mark] at htask
      rw [(hnoted.retains_mark failure).sameStages.compile_eq] at hpresent
      exact h.result_eq k task htask hopen present hpresent

theorem InStep.perform (h : s.InStep) (action : Action) : (s.perform action).InStep :=
  h.change (h.kept.change_perform action)

theorem InStep.performAll (h : s.InStep) (actions : List Action) :
    (s.performAll actions).InStep := by
  induction actions generalizing s with
  | nil => exact h
  | cons action rest ih => exact ih (h.perform action)

/-- The invariant holds of every state that can be reached. -/
theorem Reachable.inStep (h : s.Reachable) : s.InStep := by
  obtain ⟨editor, _, _, _, _, o, actions, hnew, rfl⟩ := h
  exact (inStep_create editor hnew).performAll actions

/-! ## What is run -/

/-- The graph has a report: no numeral in it is overlong. -/
def IsReported (s : Session) : Prop := ∃ report, s.editor.graph.compile = .ok report

/-- A read of a prefix of the pipeline that compiling the graph gives. -/
def IsPresent (s : Session) (read : Read) : Prop :=
  ∃ report pipeline page length, s.editor.graph.compile = .ok report ∧
    report.outcome = .ok pipeline ∧ 0 < length ∧ length ≤ pipeline.size ∧
      read ∈ s.orchestrator.readsAt pipeline page length

/-- A pipeline with stages that is run is the one of the report. -/
theorem outcome_of_result {report : Report} {pipeline : Pipeline}
    (h : report.result = .ok pipeline) (hsize : 0 < pipeline.size) :
    report.outcome = .ok pipeline := by
  unfold Report.result at h
  cases houtcome : report.outcome with
  | error failure => simp [houtcome, Except.map] at h
  | ok compiled =>
      simp only [houtcome, Except.map, Except.ok.injEq] at h
      split at h
      · rw [← h] at hsize
        exact absurd hsize (by decide)
      · rw [h]

/-! ## A graph without a report -/

/-- An edit that leaves the graph without a report stops nothing: the attempt to start a fresh
preview fails before anything is cancelled. -/
theorem InStep.perform_edit_of_unreported (h : s.InStep) {edit : Edit} {edited : Edited}
    {numeral : Text.OverlongNumeral} (hedit : s.editor.apply edit = .ok edited)
    (hnone : edited.editor.graph.compile = .error numeral) :
    ∃ page, s.perform (.edit edit) = { s with editor := edited.editor, page := page } := by
  cases Editor.gives_of_apply hedit with
  | quiet hnotices => exact ⟨s.page, perform_edit_of_ok (edit_of_quiet hedit hnotices)⟩
  | announced hnotices hrevision =>
      have hkept := kept_of_revision_lt h.kept hrevision
      cases hflight : s.orchestrator.inFlight with
      | true =>
          rw [perform_edit_of_ok (edit_of_inFlight hedit hnotices hflight),
            hkept.startPreview_of_overlong (by decide) hnone]
          exact ⟨1, rfl⟩
      | false => exact ⟨s.page, perform_edit_of_ok (edit_of_free hedit hflight)⟩

/-- A graph of a single limit. -/
def onlyLimit (amount : Value) : Graph where
  nodes := OrderedMap.empty.insert "limit"
    ⟨"limit", "$limit", .object [("limit", amount)], Value.origin, .null⟩
  edges := .empty

theorem compile_onlyLimit_five : (onlyLimit (.int 5)).compile =
    .ok ⟨["limit"], .ok ⟨[⟨"limit", ⟨"$limit", .int 5⟩⟩], []⟩⟩ :=
  @Graph.compile_single_of_ok (Graph.limitNode (.int 5)) _ rfl

theorem compile_onlyLimit_of_overlong {digits : List Char}
    (hdigits : ∀ c ∈ digits, Text.isAsciiDigit c = true) (hlong : Text.maxDigits < digits.length) :
    (onlyLimit (.text (String.ofList digits))).compile = .error ⟨digits.length⟩ :=
  Graph.compile_limit_of_overlong hdigits hlong

/-- A session on a graph of a single limit, whose first preview has been started. -/
def previewingFive : Session where
  editor := .ofGraph (onlyLimit (.int 5))
  orchestrator := ⟨"orders", 20, .infinite false, .none, [], 1, some 0,
    [⟨1, ⟨[⟨"limit", ⟨"$limit", .int 5⟩⟩], []⟩, 1, [], .ready⟩], none, [], []⟩
  cached := some (⟨["limit"], .ok ⟨[⟨"limit", ⟨"$limit", .int 5⟩⟩], []⟩⟩, 0)
  previews := .empty
  page := 1
  pending := some (.following 0)
  following := [0]

/-- The orchestrator of such a session before its first run. -/
def newOrchestrator : Orchestrator :=
  ⟨"orders", 20, .infinite false, .none, [], 0, none, [], none, [], []⟩

theorem create_newOrchestrator :
    Orchestrator.create "orders" 20 (.infinite false) .none = .ok newOrchestrator := rfl

/-- Such a session before its first preview. -/
def newFive : Session := create (.ofGraph (onlyLimit (.int 5))) newOrchestrator

theorem perform_preview_newFive : newFive.perform (.preview 1) = previewingFive := by
  simp only [newFive, perform, startPreview, report, kept?, create, Editor.ofGraph,
    compile_onlyLimit_five]
  rfl

theorem reachable_previewingFive : previewingFive.Reachable :=
  ⟨_, "orders", 20, .infinite false, .none, newOrchestrator, [.preview 1], create_newOrchestrator,
    perform_preview_newFive.symm⟩

/-- The edit that puts a limit of digits in place of the old one. -/
def putDigits (digits : List Char) : Edit :=
  .updateConfig "limit" (.object [("limit", .text (String.ofList digits))])

/-- There are digits that are one too many. They are only known by their length, so that nothing
writes them out. -/
theorem exists_overlong :
    ∃ digits : List Char, digits.length = 4301 ∧ ∀ c ∈ digits, Text.isAsciiDigit c = true := by
  refine ⟨List.replicate 4301 '7', List.length_replicate, fun c hc => ?_⟩
  rw [List.eq_of_mem_replicate hc]
  decide

end Session

end StageChain
