import StageChain.Preview.Once
import StageChain.Proofs.Preview.RunStructure
import StageChain.Proofs.Preview.Settling

/-!
# Two ways to preview a graph

A graph can be run once, or an editor of it can be given to a fresh session that previews it. The
session keeps the report, replaces a pipeline without stages by the empty one and takes note of how
the run ends; none of this can be seen from outside. `orchestrator_await` says that waiting in a
session is waiting in its orchestrator, and `agree_preview` that both ways start the same reads and
end in the same way.
-/

namespace StageChain

/-- What is run of a report is its pipeline, or in place of one without stages another one without
stages. -/
theorem Report.exists_result {report : Report} {pipeline : Pipeline}
    (h : report.outcome = .ok pipeline) :
    ∃ shown, report.result = .ok shown ∧
      (shown = pipeline ∨ shown.stages = [] ∧ pipeline.stages = []) := by
  by_cases hempty : pipeline.stages = []
  · exact ⟨.empty, by simp [Report.result, h, Except.map, hempty], .inr ⟨rfl, hempty⟩⟩
  · exact ⟨pipeline, by simp [Report.result, h, Except.map, hempty], .inl rfl⟩

namespace Session

variable {s : Session} {k : Nat}

/-! ## Waiting in a session -/

theorem orchestrator_step? (s : Session) (k : Nat) :
    (s.step? k).map orchestrator = s.orchestrator.step? k := by
  rw [step?, Option.map_map]
  exact congrFun Option.map_id _

theorem orchestrator_settleTask (fuel k : Nat) (s : Session) :
    (settleTask fuel k s).orchestrator = Orchestrator.settleTask fuel k s.orchestrator := by
  induction fuel generalizing s with
  | zero => rfl
  | succ fuel ih =>
      unfold settleTask Orchestrator.settleTask
      rw [← orchestrator_step?]
      cases s.step? k with
      | none => rfl
      | some next => exact ih next

theorem orchestrator_settle (s : Session) : s.settle.orchestrator = s.orchestrator.settle := by
  have hfold : ∀ (tasks : List Nat) (s : Session),
      (tasks.foldl settleOne s).orchestrator =
        tasks.foldl Orchestrator.settleOne s.orchestrator := by
    intro tasks
    induction tasks with
    | nil => exact fun _ => rfl
    | cons k rest ih =>
        intro s
        have hone : (s.settleOne k).orchestrator = s.orchestrator.settleOne k :=
          (orchestrator_resume _ k).trans (orchestrator_settleTask _ k s)
        rw [List.foldl_cons, List.foldl_cons, ih, hone]
  exact hfold _ s

theorem pending_resume (s : Session) (k : Nat) : (s.resume k).pending = s.pending := by
  by_cases hk : k ∈ s.following
  case neg => rw [resume_of_not_mem hk]
  cases hending : s.orchestrator.ending? k with
  | none => rw [resume_of_none hending]
  | some ending =>
      rcases resume_cases hk hending with ⟨-, hresume⟩ | ⟨run, failure, -, -, hresume⟩
      · rw [hresume]
      · rw [hresume, mark_eq]

/-- What is waited for stays the same while a session settles. -/
theorem pending_settle (s : Session) : s.settle.pending = s.pending := by
  refine settle_induction (P := fun next => next.pending = s.pending) ?_ ?_ rfl
  · intro next k hnext
    simp only [perform, step?]
    cases next.orchestrator.step? k with
    | none => exact hnext
    | some later => exact hnext
  · intro next k hnext
    exact (pending_resume next k).trans hnext

/-- To wait for a task in a session is to wait for it in the orchestrator of the session. -/
theorem orchestrator_await (hpending : s.pending = some (.following k)) :
    s.await.orchestrator = s.orchestrator.await k ∧ s.await.pending = some (.following k) := by
  have hsettle := s.pending_settle.trans hpending
  unfold await Orchestrator.await
  simp only [hsettle, expire?, orchestrator_settle]
  cases s.orchestrator.settle.expire? k with
  | none => exact ⟨orchestrator_settle s, hsettle⟩
  | some expired => exact ⟨orchestrator_settle _, (pending_settle _).trans hsettle⟩

/-! ## Previews that are waited for -/

/-- A preview of one page that is waited for: the session afterwards, and how the preview ended. -/
def preview (s : Session) (page : Int) : Session × Except RunFault (Option Ending) :=
  match s.startPreview page with
  | (next, some fault) => (next, .error fault)
  | (next, none) => (next.await, .ok next.await.pendingEnding?)

variable {page : Int} {report : Report}

theorem Kept.preview_of_overlong {numeral : Text.OverlongNumeral} (h : s.Kept) (hpage : 1 ≤ page)
    (hcompile : s.editor.graph.compile = .error numeral) :
    s.preview page = ({ s with page := page }, .error (.overlong numeral)) := by
  rw [preview, h.startPreview_of_overlong hpage hcompile]

/-- A session in which nothing is running has nothing to wait for when a graph is refused. -/
theorem Kept.preview_of_refused {failure : Failure} (h : s.Kept) (hpage : 1 ≤ page)
    (hidle : s.orchestrator.tasks = []) (hcompile : s.editor.graph.compile = .ok report)
    (hresult : report.result = .error failure) :
    s.preview page = (s.refusing page report failure,
      .ok (some (.finished (s.orchestrator.refusedRun failure)))) := by
  have htasks : (s.refusing page report failure).orchestrator.tasks = [] := by
    have hlength := s.orchestrator.length_tasks_cancel
    rw [hidle] at hlength
    rw [orchestrator_refusing, Orchestrator.perform_reject]
    exact List.eq_nil_of_length_eq_zero hlength
  have hsettle : (s.refusing page report failure).settle = s.refusing page report failure := by
    rw [settle, htasks]
    rfl
  have hawait : (s.refusing page report failure).await = s.refusing page report failure := by
    unfold await
    simp only [hsettle]
    rfl
  rw [preview, h.startPreview_of_refused hpage hcompile hresult]
  simp only [hawait]
  rfl

/-- A preview that is started ends as its task does. -/
theorem Kept.preview_of_started {pipeline : Pipeline} (h : s.Kept) (hpage : 1 ≤ page)
    (hcompile : s.editor.graph.compile = .ok report) (hresult : report.result = .ok pipeline) :
    ∃ next, next.orchestrator = s.orchestrator.afterPage pipeline page ∧
      s.preview page =
        (next, .ok (next.orchestrator.ending? s.orchestrator.tasks.length)) := by
  obtain ⟨hawait, hpending⟩ :=
    orchestrator_await (s := s.starting page report pipeline) (k := s.orchestrator.tasks.length) rfl
  refine ⟨_, hawait, ?_⟩
  rw [preview, h.startPreview_of_started hpage hcompile hresult]
  simp only [pendingEnding?, hpending]

end Session

namespace Graph

variable {graph : Graph} {o : Orchestrator} {page : Int} {report : Report}

theorem preview_of_overlong {numeral : Text.OverlongNumeral}
    (hcompile : graph.compile = .error numeral) :
    graph.preview o page = .error (.overlong numeral) := by
  simp [preview, hcompile, Except.mapError, bind, Except.bind]

theorem preview_of_refused {failure : Failure} (hcompile : graph.compile = .ok report)
    (houtcome : report.outcome = .error failure) :
    graph.preview o page =
      .ok (o.reject failure, some (.finished (o.refusedRun failure))) := by
  simp [preview, hcompile, houtcome, Except.mapError, bind, Except.bind]

theorem preview_of_started {pipeline : Pipeline} (hpage : 1 ≤ page)
    (hcompile : graph.compile = .ok report) (houtcome : report.outcome = .ok pipeline) :
    graph.preview o page = .ok (o.afterPage pipeline page,
      (o.afterPage pipeline page).ending? o.tasks.length) := by
  have hstart : o.start pipeline page = .ok (o.perform (.start pipeline page)) := by
    simp [Orchestrator.start, Orchestrator.perform, Int.not_lt.2 hpage, Except.toOption]
  have hlast : (o.perform (.start pipeline page)).tasks.length - 1 = o.tasks.length := by
    rw [o.perform_start pipeline hpage, List.length_append, List.length_singleton]
    exact o.length_tasks_cancel
  simp [preview, hcompile, houtcome, hstart, hlast, Except.mapError, bind, Except.bind,
    Orchestrator.afterPage]

end Graph

namespace Orchestrator

variable {o : Orchestrator} {pipeline : Pipeline} {page : Int}

/-- A run of no stages ends with no results, and no read begins. -/
theorem Coherent.afterPage_of_isEmpty (h : o.Coherent) (hpage : 1 ≤ page)
    (hempty : pipeline.stages = []) :
    (o.afterPage pipeline page).ending? o.tasks.length =
        some (.finished ⟨o.generation + 1, [], none⟩) ∧
      (o.afterPage pipeline page).log = o.log := by
  have hsize : pipeline.size = 0 := by rw [Pipeline.size, hempty, List.length_nil]
  obtain ⟨hawait, hended⟩ := h.sourced_afterPage pipeline hpage
  obtain ⟨ending, hending⟩ := hended.resolve_right (hawait.not_hangs fun index hindex =>
    absurd hindex (by omega))
  obtain ⟨run, rfl⟩ :=
    (hawait.concludes hending).exists_run fun index hindex => absurd hindex (by omega)
  have hstructure := hawait.runStructure hending
  obtain ⟨hlength, hfailure, -⟩ := hstructure.complete fun index hindex => absurd hindex (by omega)
  have hresults : run.results = [] := List.eq_nil_of_length_eq_zero (hlength.trans hsize)
  have hrun : run = ⟨o.generation + 1, [], none⟩ := by
    rw [← hstructure.generation, ← hresults, ← hfailure]
  refine ⟨hrun ▸ hending, ?_⟩
  rw [hstructure.reads, hresults]
  exact List.append_nil _

end Orchestrator

/-! ## Both ways agree -/

/-- What comes of running a graph once agrees with what comes of previewing it in a session: both
fail before any read with the same fault; or the same reads are started, and both end with the same
run or by the same crash, or wait for the last of the reads without end. -/
inductive Agree (o : Orchestrator) :
    Except RunFault (Orchestrator × Option Ending) → Session × Except RunFault (Option Ending) →
      Prop where
  | failed (fault : RunFault) (s : Session) (hlog : s.orchestrator.log = o.log) :
      Agree o (.error fault) (s, .error fault)
  | ran (done : Orchestrator) (s : Session) (run : Run) (hlog : s.orchestrator.log = done.log) :
      Agree o (.ok (done, some (.finished run))) (s, .ok (some (.finished run)))
  | crashed (done : Orchestrator) (s : Session) (crash : Crash)
      (hlog : s.orchestrator.log = done.log) :
      Agree o (.ok (done, some (.crashed crash))) (s, .ok (some (.crashed crash)))
  | hangs (done : Orchestrator) (s : Session) (hlog : s.orchestrator.log = done.log)
      (hhangs : done.Hangs o.tasks.length) : Agree o (.ok (done, none)) (s, .ok none)

namespace Agree

variable {o done : Orchestrator} {s : Session} {pipeline : Pipeline} {page : Int} {ending : Ending}

theorem of_concludes (h : o.Concludes pipeline page ending) (hlog : s.orchestrator.log = done.log) :
    Agree o (.ok (done, some ending)) (s, .ok (some ending)) := by
  cases h with
  | finished run => exact .ran done s run hlog
  | crashed crash => exact .crashed done s crash hlog

end Agree

/-- To run a graph once and to preview it in a fresh session start the same reads and have the same
outcome, whether the graph is valid or not and however the reads end. -/
theorem agree_preview {collection : String} {pageSize : Int} {timeout : Double} {source : Source}
    {o : Orchestrator} (editor : Editor) {page : Int}
    (hcreate : Orchestrator.create collection pageSize timeout source = .ok o) (hpage : 1 ≤ page) :
    Agree o (editor.graph.preview o page) ((Session.create editor o).preview page) := by
  have hcoherent := Orchestrator.coherent_of_create hcreate
  have hkept := Session.kept_create editor o
  cases hcompile : editor.graph.compile with
  | error numeral =>
      rw [hkept.preview_of_overlong hpage hcompile, Graph.preview_of_overlong hcompile]
      exact .failed _ _ rfl
  | ok report =>
      cases houtcome : report.outcome with
      | error failure =>
          have hresult : report.result = .error failure := by
            rw [Report.result, houtcome]
            rfl
          have hidle : o.tasks = [] := by rw [Orchestrator.create_eq_ok hcreate]
          rw [hkept.preview_of_refused hpage hidle hcompile hresult,
            Graph.preview_of_refused hcompile houtcome]
          refine .ran _ _ _ ?_
          rw [Session.orchestrator_refusing]
          rfl
      | ok pipeline =>
          obtain ⟨shown, hresult, hshown⟩ := report.exists_result houtcome
          obtain ⟨next, hnext, hsession⟩ := hkept.preview_of_started hpage hcompile hresult
          rw [hsession, hnext, Graph.preview_of_started hpage hcompile houtcome]
          rcases hshown with rfl | ⟨hempty, hempty'⟩
          · obtain ⟨hsourced, hended⟩ := hcoherent.sourced_afterPage shown hpage
            have hlog := congrArg Orchestrator.log hnext
            rw [show (Session.create editor o).orchestrator = o from rfl]
            rcases hended with ⟨ending, hending⟩ | hhangs
            · rw [hending]
              exact .of_concludes (hsourced.concludes hending) hlog
            · rw [hhangs.ending?_eq_none]
              exact .hangs _ _ hlog hhangs
          · -- neither pipeline has a stage, so nothing is read
            obtain ⟨hending, hlog⟩ := hcoherent.afterPage_of_isEmpty hpage hempty
            obtain ⟨hending', hlog'⟩ := hcoherent.afterPage_of_isEmpty hpage hempty'
            rw [show (Session.create editor o).orchestrator = o from rfl, hending, hending']
            refine .ran _ _ _ ?_
            rw [hnext]
            exact hlog.trans hlog'.symm

/-- An orchestrator whose source crashes on the first prefix. -/
def crashingFirst : Orchestrator where
  collection := "orders"
  pageSize := 20
  timeout := .infinite false
  source := Script.source [some ⟨.ok [], .error (.crashed (.raised "lost")), .open⟩] Script.echo
  released := []
  generation := 0
  held := none
  tasks := []
  latest := none
  log := []
  events := []

/-- The crash of a read ends a preview in a session as well. -/
theorem agree_preview_crashingFirst :
    Orchestrator.create "orders" 20 (.infinite false) crashingFirst.source = .ok crashingFirst ∧
      ((Session.create (.ofGraph (.single (Graph.limitNode (.int 5)))) crashingFirst).preview 1).2 =
        .ok (some (.crashed (.raised "lost"))) := by
  have hcreate : Orchestrator.create "orders" 20 (.infinite false) crashingFirst.source =
      .ok crashingFirst := rfl
  have hpage : (1 : Int) ≤ 1 := by decide
  have hagree := agree_preview (.ofGraph (.single (Graph.limitNode (.int 5)))) hcreate hpage
  have hcompile : (Graph.single (Graph.limitNode (.int 5))).compile =
      .ok ⟨["limit"], .ok ⟨[⟨"limit", ⟨"$limit", .int 5⟩⟩], []⟩⟩ :=
    Graph.compile_single_of_ok rfl
  have honce := Graph.preview_of_started (o := crashingFirst) hpage hcompile rfl
  refine ⟨hcreate, ?_⟩
  rw [show (Editor.ofGraph (.single (Graph.limitNode (.int 5)))).graph.preview crashingFirst 1 = _
    from honce, show (crashingFirst.afterPage _ 1).ending? crashingFirst.tasks.length =
      some (.crashed (.raised "lost")) from rfl] at hagree
  generalize (Session.create (.ofGraph (.single (Graph.limitNode (.int 5)))) crashingFirst).preview
    1 = result at hagree ⊢
  cases hagree
  rfl

end StageChain
