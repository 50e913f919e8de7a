import StageChain.Preview.Session
import StageChain.Proofs.Graph.Edits
import StageChain.Proofs.Preview.Generations

/-!
# What can happen to a session

As for orchestrators, an `Action` is an operation on a session, a change of what its reads meet, or
a step of one of its tasks, and a schedule is a list of actions. `Kept` says that the report that is
kept is right; then the lemmas `Kept.startPreview_of_overlong`, `Kept.startPreview_of_refused` and
`Kept.startPreview_of_started` say what an attempt to start a preview does.
-/

namespace StageChain.Session

/-! ## Actions and schedules -/

/-- What can happen to a session. -/
inductive Action where
  | preview (page : Int)
  | edit (edit : Edit)
  /-- The report of the graph is asked for. -/
  | report
  | release (gate : String)
  /-- Reads that begin later are answered by another source. -/
  | script (source : Source)
  /-- A task goes on, if it can. -/
  | step (task : Nat)
  /-- The reads that a task waits for end in some way. -/
  | conclude (task : Nat) (conclusion : Conclusion)
  /-- The session takes note of the end of a task. -/
  | resume (task : Nat)

/-- The task that the action lets go on, if any. -/
def Action.task? : Action → Option Nat
  | .step k => some k
  | .conclude k _ => some k
  | _ => none

/-- The session after an action; what fails leaves it as far as it had come. -/
def perform (s : Session) : Action → Session
  | .preview page => (s.startPreview page).1
  | .edit edit =>
    match s.edit edit with
    | .ok (next, _) => next
    | .error _ => s
  | .report =>
    match s.report with
    | .ok (_, next) => next
    | .error _ => s
  | .release gate => { s with orchestrator := s.orchestrator.release gate }
  | .script source => { s with orchestrator := { s.orchestrator with source := source } }
  | .step k => (s.step? k).getD s
  | .conclude k conclusion => s.observe (s.orchestrator.concludeReads k conclusion)
  | .resume k => s.resume k

/-- The session after a schedule. -/
def performAll (s : Session) (actions : List Action) : Session := actions.foldl perform s

theorem performAll_cons (s : Session) (action : Action) (actions : List Action) :
    s.performAll (action :: actions) = (s.perform action).performAll actions := rfl

theorem performAll_append (s : Session) (first second : List Action) :
    s.performAll (first ++ second) = (s.performAll first).performAll second := List.foldl_append

/-- The states that a session of any editor can come to from its creation. -/
def Reachable (s : Session) : Prop :=
  ∃ editor collection pageSize timeout source orchestrator actions,
    Orchestrator.create collection pageSize timeout source = .ok orchestrator ∧
      s = (create editor orchestrator).performAll actions

theorem Reachable.performAll {s : Session} (h : s.Reachable) (actions : List Action) :
    (s.performAll actions).Reachable := by
  obtain ⟨editor, collection, pageSize, timeout, source, o, before, hnew, rfl⟩ := h
  exact ⟨editor, collection, pageSize, timeout, source, o, before ++ actions, hnew,
    (performAll_append _ before actions).symm⟩

theorem Reachable.perform {s : Session} (h : s.Reachable) (action : Action) :
    (s.perform action).Reachable := h.performAll [action]

/-! ## The report that is kept -/

variable {s next : Session}

/-- The report that is kept is right: it is the report of the graph, if the graph has not been
changed since. -/
structure Kept (s : Session) : Prop where
  revision_le : ∀ report revision, s.cached = some (report, revision) →
    revision ≤ s.editor.revision
  compile_eq : ∀ report, s.cached = some (report, s.editor.revision) →
    s.editor.graph.compile = .ok report

/-- The later session has the same stages to compile, and the report that it keeps is right. -/
structure Retains (s next : Session) : Prop where
  sameStages : s.editor.graph.SameStages next.editor.graph
  revision_eq : next.editor.revision = s.editor.revision
  kept : next.Kept

theorem kept_create (editor : Editor) (orchestrator : Orchestrator) :
    (create editor orchestrator).Kept := by
  constructor <;> simp [create]

theorem Kept.of_cached_eq (h : s.Kept)
    (hsame : s.editor.graph.SameStages next.editor.graph)
    (hrevision : next.editor.revision = s.editor.revision) (hcached : next.cached = s.cached) :
    s.Retains next := by
  refine ⟨hsame, hrevision, ?_, ?_⟩
  · rw [hcached, hrevision]
    exact h.revision_le
  · rw [hcached, hrevision, hsame.compile_eq]
    exact h.compile_eq

/-- The report of the graph may be kept. -/
theorem retains_of_cached {report : Report}
    (hsame : s.editor.graph.SameStages next.editor.graph)
    (hrevision : next.editor.revision = s.editor.revision)
    (hcached : next.cached = some (report, s.editor.revision))
    (hcompile : s.editor.graph.compile = .ok report) : s.Retains next := by
  refine ⟨hsame, hrevision, ?_, ?_⟩
  · intro other revision hother
    cases hcached.symm.trans hother
    exact Nat.le_of_eq hrevision.symm
  · intro other hother
    rw [hcached, hrevision] at hother
    cases hother
    exact hsame.compile_eq.trans hcompile

/-- Only the graph and the report that is kept matter. -/
theorem Retains.congr {other : Session} (h : s.Retains next) (heditor : other.editor = next.editor)
    (hcached : other.cached = next.cached) : s.Retains other := by
  refine ⟨?_, ?_, ?_, ?_⟩
  · rw [heditor]
    exact h.sameStages
  · rw [heditor]
    exact h.revision_eq
  · rw [heditor, hcached]
    exact h.kept.revision_le
  · rw [heditor, hcached]
    exact h.kept.compile_eq

theorem Retains.trans {mid : Session} (hfirst : s.Retains mid) (hsecond : mid.Retains next) :
    s.Retains next where
  sameStages := hfirst.sameStages.trans hsecond.sameStages
  revision_eq := hsecond.revision_eq.trans hfirst.revision_eq
  kept := hsecond.kept

theorem kept?_eq_some_iff {report : Report} :
    s.kept? = some report ↔ s.cached = some (report, s.editor.revision) := by
  simp only [kept?, Option.map_eq_some_iff, Option.filter_eq_some_iff, beq_iff_eq]
  constructor
  · rintro ⟨⟨kept, revision⟩, ⟨hcached, rfl⟩, rfl⟩
    exact hcached
  · intro hcached
    exact ⟨_, ⟨hcached, rfl⟩, rfl⟩

theorem mark_cases (s : Session) (failure : Failure) :
    s.mark failure = s ∨
      ∃ id message, s.mark failure = { s with editor := s.editor.mark id message } := by
  unfold mark
  cases failure.nodeId?.filter (!·.isEmpty) with
  | none => exact .inl rfl
  | some id => exact .inr ⟨id, _, rfl⟩

/-- To mark a node changes nothing but the editor. -/
theorem mark_eq (s : Session) (failure : Failure) :
    s.mark failure = { s with editor := (s.mark failure).editor } := by
  rcases s.mark_cases failure with hsame | ⟨id, message, hmark⟩
  · rw [hsame]
  · rw [hmark]

@[simp]
theorem orchestrator_mark (s : Session) (failure : Failure) :
    (s.mark failure).orchestrator = s.orchestrator := by
  rw [mark_eq]

@[simp]
theorem previews_mark (s : Session) (failure : Failure) :
    (s.mark failure).previews = s.previews := by
  rw [mark_eq]

@[simp]
theorem page_mark (s : Session) (failure : Failure) : (s.mark failure).page = s.page := by
  rw [mark_eq]

@[simp]
theorem following_mark (s : Session) (failure : Failure) :
    (s.mark failure).following = s.following := by
  rw [mark_eq]

@[simp]
theorem revision_mark (s : Session) (failure : Failure) :
    (s.mark failure).editor.revision = s.editor.revision := by
  rcases s.mark_cases failure with hsame | ⟨id, message, hmark⟩
  · rw [hsame]
  · rw [hmark]
    rfl

theorem Kept.retains_mark (h : s.Kept) (failure : Failure) : s.Retains (s.mark failure) := by
  rcases s.mark_cases failure with hsame | ⟨id, message, hmark⟩
  · rw [hsame]
    exact h.of_cached_eq (.refl _) rfl rfl
  · rw [hmark]
    exact h.of_cached_eq (s.editor.sameStages_mark id message) rfl rfl

/-- It makes no difference whether the report is kept or made now. -/
theorem Kept.report_eq (h : s.Kept) :
    s.report = s.editor.graph.compile.map fun report => (report, s.keep report) := by
  unfold Session.report
  cases hkept : s.kept? with
  | none => rfl
  | some report =>
      have hcached := kept?_eq_some_iff.1 hkept
      have hkeep : s.keep report = s := by
        rw [keep, ← hcached]
      rw [h.compile_eq report hcached]
      simp only [Except.map, hkeep]

/-! ## Attempts to start a preview -/

/-- The session once a preview of its graph has been refused. -/
def refusing (s : Session) (page : Int) (report : Report) (failure : Failure) : Session :=
  let cleared : Session := { s with
    page := page
    cached := some (report, s.editor.revision)
    previews := .empty
    editor := s.editor.clearErrors
    orchestrator := s.orchestrator.perform (.reject failure) }
  { cleared.mark failure with pending := some (.settled (s.orchestrator.refusedRun failure)) }

/-- The session once a preview of its graph has been started. -/
def starting (s : Session) (page : Int) (report : Report) (pipeline : Pipeline) : Session :=
  { s with
    page := page
    cached := some (report, s.editor.revision)
    previews := .empty
    editor := s.editor.clearErrors
    orchestrator := s.orchestrator.perform (.start pipeline page)
    pending := some (.following s.orchestrator.tasks.length)
    following := s.following ++ [s.orchestrator.tasks.length] }

@[simp]
theorem orchestrator_refusing (s : Session) (page : Int) (report : Report) (failure : Failure) :
    (s.refusing page report failure).orchestrator = s.orchestrator.perform (.reject failure) := by
  simp only [refusing, orchestrator_mark]

section StartPreview

variable {page : Int} {report : Report}

theorem startPreview_of_small (hpage : page < 1) :
    s.startPreview page = (s, some .pageTooSmall) := by
  rw [startPreview, if_pos hpage]

/-- Where the graph has no report, the attempt fails, but only after the page has been set. -/
theorem Kept.startPreview_of_overlong {numeral : Text.OverlongNumeral} (h : s.Kept)
    (hpage : 1 ≤ page) (hcompile : s.editor.graph.compile = .error numeral) :
    s.startPreview page = ({ s with page := page }, some (.overlong numeral)) := by
  have hpaged : Kept { s with page := page } := ⟨h.revision_le, h.compile_eq⟩
  rw [startPreview, if_neg (Int.not_lt.2 hpage)]
  simp only [hpaged.report_eq, hcompile, Except.map]

theorem Kept.startPreview_of_refused {failure : Failure} (h : s.Kept) (hpage : 1 ≤ page)
    (hcompile : s.editor.graph.compile = .ok report) (hresult : report.result = .error failure) :
    s.startPreview page = (s.refusing page report failure, none) := by
  have hpaged : Kept { s with page := page } := ⟨h.revision_le, h.compile_eq⟩
  rw [startPreview, if_neg (Int.not_lt.2 hpage)]
  simp only [hpaged.report_eq, hcompile, Except.map, startReported, hresult]
  rfl

theorem Kept.startPreview_of_started {pipeline : Pipeline} (h : s.Kept) (hpage : 1 ≤ page)
    (hcompile : s.editor.graph.compile = .ok report) (hresult : report.result = .ok pipeline) :
    s.startPreview page = (s.starting page report pipeline, none) := by
  have hpaged : Kept { s with page := page } := ⟨h.revision_le, h.compile_eq⟩
  have hstart : s.orchestrator.start pipeline page =
      .ok (s.orchestrator.perform (.start pipeline page)) := by
    simp [Orchestrator.start, Orchestrator.perform, Int.not_lt.2 hpage, Except.toOption]
  have hlast : (s.orchestrator.perform (.start pipeline page)).tasks.length - 1 =
      s.orchestrator.tasks.length := by
    rw [s.orchestrator.perform_start pipeline hpage, List.length_append, List.length_singleton]
    exact s.orchestrator.length_tasks_cancel
  rw [startPreview, if_neg (Int.not_lt.2 hpage)]
  simp only [hpaged.report_eq, hcompile, Except.map, startReported, hresult, keep, hstart, hlast]
  rfl

theorem retains_refusing {failure : Failure} (hcompile : s.editor.graph.compile = .ok report) :
    s.Retains (s.refusing page report failure) := by
  let cleared : Session := { s with
    page := page
    cached := some (report, s.editor.revision)
    previews := .empty
    editor := s.editor.clearErrors
    orchestrator := s.orchestrator.perform (.reject failure) }
  have hcleared : s.Retains cleared :=
    retains_of_cached s.editor.sameStages_clearErrors rfl rfl hcompile
  have hmarked := hcleared.trans (hcleared.kept.retains_mark failure)
  exact hmarked.congr rfl rfl

theorem retains_starting {pipeline : Pipeline} (hcompile : s.editor.graph.compile = .ok report) :
    s.Retains (s.starting page report pipeline) :=
  retains_of_cached s.editor.sameStages_clearErrors rfl rfl hcompile

end StartPreview

/-! ## Waiting is a schedule -/

theorem settleTask_eq_performAll (fuel : Nat) (k : Nat) (s : Session) :
    settleTask fuel k s = s.performAll (List.replicate fuel (.step k)) := by
  induction fuel generalizing s with
  | zero => rfl
  | succ fuel ih =>
      rw [List.replicate_succ, performAll_cons, ← ih]
      cases hstep : s.step? k with
      | none =>
          have hstuck : ∀ fuel, settleTask fuel k s = s := by
            intro fuel
            cases fuel <;> simp [settleTask, hstep]
          simp [perform, hstep, hstuck]
      | some next => simp [settleTask, perform, hstep]

theorem settleOne_eq_performAll (s : Session) (k : Nat) :
    s.settleOne k =
      s.performAll (List.replicate (s.orchestrator.stepBound k) (.step k) ++ [.resume k]) := by
  rw [performAll_append, ← settleTask_eq_performAll]
  rfl

/-- To let all tasks go on is a schedule. -/
theorem settle_eq_performAll (s : Session) : ∃ actions, s.settle = s.performAll actions := by
  have hfold : ∀ (tasks : List Nat) (s : Session), ∃ actions,
      tasks.foldl settleOne s = s.performAll actions := by
    intro tasks
    induction tasks with
    | nil =>
        intro s
        exact ⟨[], rfl⟩
    | cons k rest ih =>
        intro s
        obtain ⟨actions, hactions⟩ := ih (s.settleOne k)
        refine ⟨List.replicate (s.orchestrator.stepBound k) (.step k) ++ [.resume k] ++ actions, ?_⟩
        rw [List.foldl_cons, hactions, performAll_append s _ actions, ← settleOne_eq_performAll]
  exact hfold _ s

/-- To wait for the pending preview is a schedule, with its time running out where it is blocked. -/
theorem await_eq_performAll (s : Session) : ∃ actions, s.await = s.performAll actions := by
  obtain ⟨first, hfirst⟩ := s.settle_eq_performAll
  simp only [await]
  split
  · rename_i k hpending
    cases hexpire : s.settle.expire? k with
    | none => exact ⟨first, hfirst⟩
    | some expired =>
        obtain ⟨next, hnext, rfl⟩ := Option.map_eq_some_iff.1 hexpire
        obtain ⟨second, hsecond⟩ := (s.settle.observe next).settle_eq_performAll
        refine ⟨first ++ .conclude k (.interrupted .timedOut) :: second, ?_⟩
        rw [performAll_append, performAll_cons, ← hfirst]
        rw [Orchestrator.expire?_eq_some hnext] at hsecond ⊢
        exact hsecond
  · exact ⟨first, hfirst⟩

/-- What is reached by waiting is reachable. -/
theorem Reachable.await {s : Session} (h : s.Reachable) : s.await.Reachable := by
  obtain ⟨actions, hactions⟩ := s.await_eq_performAll
  rw [hactions]
  exact h.performAll actions

end StageChain.Session
