import StageChain.Proofs.Preview.Currency
import StageChain.Proofs.Preview.Staleness

/-!
# Edits that restart a preview

An edit that counts the revision up while a run is in flight restarts the preview: `Restarts` says
what that means, and the main theorem `restarts_on_edits` that every other edit changes nothing but
the graph. Where the edit leaves the graph without a report nothing is restarted: only the page has
been set by then, and the run goes on.
-/

namespace StageChain

namespace Editor

/-- The operation leaves the revision as it is, if it succeeds. -/
def isQuiet (editor : Editor) : Edit → Bool
  | .moveNode _ _ | .clearErrors => true
  | .addEdge source target => (editor.registered? source target).isSome
  | .addNode .. | .removeNode _ | .updateConfig _ _ | .removeEdge _ => false

/-- Every operation that succeeds and is not quiet counts the revision up by one. -/
theorem revision_of_apply {editor : Editor} {edit : Edit} {edited : Edited}
    (h : editor.apply edit = .ok edited) :
    edited.editor.revision = editor.revision + if editor.isQuiet edit then 0 else 1 := by
  cases applies_of_apply h with
  | nodeAdded | configured | edgeRemoved | moved | cleared => rfl
  | nodeRemoved => exact congrArg (· + 1) (revision_foldl_dropEdge _)
  | connected source target id _ _ hregistered =>
      simp only [isQuiet, hregistered, Option.isSome_some, if_true]
      rfl
  | edgeAdded source target _ _ hfresh =>
      simp only [isQuiet, hfresh, Option.isSome_none]
      rfl

end Editor

namespace Session

variable {s next : Session} {edit : Edit} {edited : Edited}

/-! ## Fresh previews -/

/-- One preview more than before, of the graph as it is: its run has begun, or it is refused. -/
inductive Renews (s next : Session) : Prop where
  | running (pipeline : Pipeline)
      (hpipeline : next.editor.graph.pipeline = .ok (.ok pipeline))
      (hpending : next.pending = some (.following s.orchestrator.tasks.length))
      (hfollowing : next.following = s.following ++ [s.orchestrator.tasks.length])
      (hlength : next.orchestrator.tasks.length = s.orchestrator.tasks.length + 1)
      (htask : next.orchestrator.tasks[s.orchestrator.tasks.length]? =
        some ⟨next.orchestrator.generation, pipeline, 1, [], .ready⟩)
  | refused (failure : Failure)
      (hpipeline : next.editor.graph.pipeline = .ok (.error failure))
      (hpending : next.pending =
        some (.settled ⟨next.orchestrator.generation, [], some failure⟩))
      (hfollowing : next.following = s.following)
      (hlength : next.orchestrator.tasks.length = s.orchestrator.tasks.length)
      (hlatest : next.orchestrator.latest =
        some ⟨next.orchestrator.generation, [], some failure⟩)

/-- What was in flight has been cancelled, and one fresh preview of the first page is pending. -/
structure Restarts (s next : Session) : Prop where
  generation_eq : next.orchestrator.generation = s.orchestrator.generation + 1
  cancelled : ∀ (k : Nat) (task : Task), s.orchestrator.tasks[k]? = some task →
    task.isDone = false → next.orchestrator.ending? k = some .cancelled
  page_eq : next.page = 1
  previews_eq : next.previews = .empty
  renews : s.Renews next
  /-- No task but the new one is pending. -/
  pending : ∀ (k : Nat) (task : Task), next.orchestrator.tasks[k]? = some task →
    task.isDone = false → k = s.orchestrator.tasks.length
  /-- No read has begun yet. -/
  log_eq : next.orchestrator.log = s.orchestrator.log

section Fresh

variable {editor : Editor} {report : Report}

/-- The pipeline of a session is the one of the report from which its preview was made. -/
theorem Retains.pipeline_eq (h : s.Retains next) (hcompile : s.editor.graph.compile = .ok report) :
    next.editor.graph.pipeline = .ok report.result := by
  rw [Graph.pipeline, h.sameStages.compile_eq, hcompile]
  rfl

theorem restarts_refusing {failure : Failure} (h : s.orchestrator.Coherent)
    (hcompile : editor.graph.compile = .ok report) (hresult : report.result = .error failure) :
    s.Restarts (refusing { s with editor := editor } 1 report failure) := by
  have hretains : Retains { s with editor := editor }
      (refusing { s with editor := editor } 1 report failure) := retains_refusing hcompile
  have horchestrator : (refusing { s with editor := editor } 1 report failure).orchestrator =
      s.orchestrator.perform (.reject failure) := orchestrator_refusing _ _ _ _
  have hchange := s.orchestrator.change_perform (.reject failure)
  constructor
  case generation_eq =>
    rw [horchestrator, s.orchestrator.perform_reject]
    rfl
  case cancelled =>
    intro k task htask hopen
    rw [horchestrator]
    exact h.ending?_of_cancels hchange rfl htask hopen
  case page_eq => exact page_mark _ _
  case previews_eq => exact previews_mark _ _
  case renews =>
    refine .refused failure ?_ ?_ (following_mark _ _) ?_ ?_
    · rw [hretains.pipeline_eq hcompile, hresult]
    · rw [horchestrator, s.orchestrator.perform_reject]
      rfl
    · rw [horchestrator, s.orchestrator.perform_reject]
      exact s.orchestrator.length_tasks_cancel
    · rw [horchestrator, s.orchestrator.perform_reject]
      rfl
  case pending =>
    rw [horchestrator]
    intro k task htask hopen
    exact absurd hopen ((h.idle_reject failure).not_pending htask)
  case log_eq =>
    rw [horchestrator]
    exact s.orchestrator.log_reject failure

theorem restarts_starting {pipeline : Pipeline} (h : s.orchestrator.Coherent)
    (hcompile : editor.graph.compile = .ok report) (hresult : report.result = .ok pipeline) :
    s.Restarts (starting { s with editor := editor } 1 report pipeline) := by
  have hretains : Retains { s with editor := editor }
      (starting { s with editor := editor } 1 report pipeline) := retains_starting hcompile
  have hchange := s.orchestrator.change_start pipeline 1
  have hlength : s.orchestrator.advance.tasks.length = s.orchestrator.tasks.length :=
    s.orchestrator.length_tasks_cancel
  have hstart := s.orchestrator.perform_start pipeline (Int.le_refl 1)
  constructor
  case generation_eq =>
    show (s.orchestrator.perform (.start pipeline 1)).generation = _
    rw [hstart]
    rfl
  case cancelled =>
    intro k task htask hopen
    exact h.ending?_of_cancels hchange rfl htask hopen
  case page_eq => rfl
  case previews_eq => rfl
  case renews =>
    refine .running pipeline ?_ rfl rfl ?_ ?_
    · rw [hretains.pipeline_eq hcompile, hresult]
    · show (s.orchestrator.perform (.start pipeline 1)).tasks.length = _
      rw [hstart, List.length_append, List.length_singleton, hlength]
    · show (s.orchestrator.perform (.start pipeline 1)).tasks[s.orchestrator.tasks.length]? =
        some ⟨(s.orchestrator.perform (.start pipeline 1)).generation, _, _, _, _⟩
      rw [hstart, ← hlength, List.getElem?_concat_length]
  case pending =>
    show ∀ k task, (s.orchestrator.perform (.start pipeline 1)).tasks[k]? = some task → _
    rw [hstart]
    intro k task htask hopen
    rcases Orchestrator.getElem?_append_singleton htask with hold | ⟨rfl, -⟩
    · exact absurd hopen (h.idle_cancel.not_pending hold)
    · exact hlength
  case log_eq => exact s.orchestrator.log_start pipeline 1

end Fresh

/-! ## Edits while a run is in flight -/

/-- The edit counts the revision up while a run is in flight. -/
structure Interrupts (s : Session) (edit : Edit) (edited : Edited) : Prop where
  apply_eq : s.editor.apply edit = .ok edited
  counted : edited.editor.revision ≠ s.editor.revision
  inFlight : s.orchestrator.inFlight = true

namespace InStep

/-- The first page of the new graph is asked for, and the report that is kept is not one of it. -/
theorem edit_of_interrupts (h : s.InStep) (hedit : s.Interrupts edit edited) :
    Kept { s with editor := edited.editor } ∧
      s.edit edit = .ok (startPreview { s with editor := edited.editor } 1) := by
  cases Editor.gives_of_apply hedit.apply_eq with
  | quiet _ hrevision => exact absurd hrevision hedit.counted
  | announced hnotices hrevision =>
      have hasks := edit_of_inFlight hedit.apply_eq hnotices hedit.inFlight
      exact ⟨kept_of_revision_lt h.kept hrevision, hasks⟩

/-- A graph without a report is asked for in vain: only the page has been set. -/
theorem edit_of_overlong (h : s.InStep) {numeral : Text.OverlongNumeral}
    (hedit : s.Interrupts edit edited) (hcompile : edited.editor.graph.compile = .error numeral) :
    s.edit edit =
      .ok ({ s with editor := edited.editor, page := 1 }, some (.overlong numeral)) := by
  obtain ⟨hkept, hasks⟩ := h.edit_of_interrupts hedit
  rw [hasks, hkept.startPreview_of_overlong (Int.le_refl 1) hcompile]

/-- Where the new graph has a report, the preview is restarted. -/
theorem restarts_of_reported (h : s.InStep) {report : Report} (hedit : s.Interrupts edit edited)
    (hcompile : edited.editor.graph.compile = .ok report) :
    ∃ next, s.edit edit = .ok (next, none) ∧ s.Restarts next := by
  obtain ⟨hkept, hasks⟩ := h.edit_of_interrupts hedit
  rw [hasks]
  cases hresult : report.result with
  | error failure =>
      rw [hkept.startPreview_of_refused (Int.le_refl 1) hcompile hresult]
      exact ⟨_, rfl, restarts_refusing h.coherent hcompile hresult⟩
  | ok pipeline =>
      rw [hkept.startPreview_of_started (Int.le_refl 1) hcompile hresult]
      exact ⟨_, rfl, restarts_starting h.coherent hcompile hresult⟩

theorem restarts_iff (h : s.InStep) (hedit : s.Interrupts edit edited) :
    s.Restarts (s.perform (.edit edit)) ↔
      ∃ report, edited.editor.graph.compile = .ok report := by
  constructor
  · intro hrestarts
    cases hcompile : edited.editor.graph.compile with
    | ok report => exact ⟨report, rfl⟩
    -- the generation that a fresh preview takes has not been taken
    | error numeral =>
        have hgeneration := hrestarts.generation_eq
        rw [perform_edit_of_ok (h.edit_of_overlong hedit hcompile)] at hgeneration
        exact absurd hgeneration (Nat.ne_of_lt (Nat.lt_succ_self _))
  · rintro ⟨report, hcompile⟩
    obtain ⟨next, hnext, hrestarts⟩ := h.restarts_of_reported hedit hcompile
    rw [perform_edit_of_ok hnext]
    exact hrestarts

end InStep

/-! ## The main theorem -/

/-- What edits do to the preview of a session. -/
structure RestartsOnEdits (s : Session) : Prop where
  /-- Only quiet edits leave the revision as it is. -/
  revision_eq : ∀ edit edited, s.editor.apply edit = .ok edited →
    edited.editor.revision = s.editor.revision + if s.editor.isQuiet edit then 0 else 1
  /-- While a run is in flight an edit that counts the revision up restarts the preview, exactly if
  the new graph has a report. -/
  restarts_iff : ∀ edit edited, s.Interrupts edit edited →
    (s.Restarts (s.perform (.edit edit)) ↔ ∃ report, edited.editor.graph.compile = .ok report)
  /-- It fails if the new graph has no report, and has set the page by then. -/
  edit_eq : ∀ edit edited, s.Interrupts edit edited →
    s.edit edit = match edited.editor.graph.compile with
      | .ok _ => .ok (s.perform (.edit edit), none)
      | .error numeral =>
        .ok ({ s with editor := edited.editor, page := 1 }, some (.overlong numeral))
  /-- An edit that leaves the revision as it is changes nothing but the editor. -/
  quiet : ∀ edit edited, s.editor.apply edit = .ok edited →
    edited.editor.revision = s.editor.revision →
      s.edit edit = .ok ({ s with editor := edited.editor }, none)
  /-- Where no run is in flight, no edit changes anything but the editor. -/
  free : s.orchestrator.inFlight = false → ∀ edit edited, s.editor.apply edit = .ok edited →
    s.edit edit = .ok ({ s with editor := edited.editor }, none)
  /-- An edit that fails changes nothing. -/
  failed : ∀ edit fault, s.editor.apply edit = .error fault →
    s.edit edit = .error fault ∧ s.perform (.edit edit) = s
  /-- There is no preview of a page before the first. -/
  small : ∀ page < 1, s.startPreview page = (s, some .pageTooSmall)

/-- Whatever has happened to a session, what is in flight is restarted by the edits that count the
revision up, exactly as long as the graph has a report, and by no others. -/
theorem restarts_on_edits (h : s.Reachable) : RestartsOnEdits s := by
  have hinStep := h.inStep
  constructor
  case revision_eq => exact fun _ _ => Editor.revision_of_apply
  case restarts_iff => exact fun _ _ => hinStep.restarts_iff
  case edit_eq =>
    intro edit edited hedit
    cases hcompile : edited.editor.graph.compile with
    | ok report =>
        obtain ⟨next, hnext, -⟩ := hinStep.restarts_of_reported hedit hcompile
        rw [perform_edit_of_ok hnext, hnext]
    | error numeral => exact hinStep.edit_of_overlong hedit hcompile
  case quiet =>
    intro edit edited hedit hsame
    cases Editor.gives_of_apply hedit with
    | quiet hnotices => exact edit_of_quiet hedit hnotices
    | announced _ hrevision => omega
  case free => exact fun hfree _ _ hedit => edit_of_free hedit hfree
  case failed =>
    intro edit fault hedit
    have hfails := edit_of_error hedit
    exact ⟨hfails, perform_edit_of_error hfails⟩
  case small => exact fun _ => startPreview_of_small

/-! ## A limit that is edited while it is previewed -/

theorem interrupts_previewingFive (amount : Value) :
    ∃ edited,
      previewingFive.Interrupts (.updateConfig "limit" (.object [("limit", amount)])) edited ∧
        edited.editor.graph = onlyLimit amount :=
  ⟨_, ⟨rfl, Nat.one_ne_zero, rfl⟩, rfl⟩

/-- Not every edit that counts the revision up while a run is in flight takes a generation: the
limit of a graph can be edited into one that leaves the graph without a report. -/
theorem interrupts_without_generation :
    ¬ ∀ s : Session, s.Reachable → ∀ edit edited, s.Interrupts edit edited →
      (s.perform (.edit edit)).orchestrator.generation = s.orchestrator.generation + 1 := by
  intro hall
  obtain ⟨digits, hlength, hdigits⟩ := exists_overlong
  obtain ⟨edited, hedit, hgraph⟩ := interrupts_previewingFive (.text (String.ofList digits))
  have hcompile := compile_onlyLimit_of_overlong hdigits (by rw [hlength]; decide)
  rw [← hgraph] at hcompile
  have hfails := reachable_previewingFive.inStep.edit_of_overlong hedit hcompile
  have hgeneration := hall _ reachable_previewingFive _ edited hedit
  rw [perform_edit_of_ok hfails] at hgeneration
  exact absurd hgeneration (Nat.ne_of_lt (Nat.lt_succ_self _))

/-- While a limit of five is previewed, a limit of seven in its place restarts the preview, and one
of 4301 digits does not. -/
theorem restarts_on_edits_of_previewingFive :
    previewingFive.Reachable ∧
      previewingFive.Restarts (previewingFive.perform
        (.edit (.updateConfig "limit" (.object [("limit", .int 7)])))) ∧
      ∃ digits, digits.length = 4301 ∧
        ¬ previewingFive.Restarts (previewingFive.perform (.edit (putDigits digits))) := by
  have hreachable := reachable_previewingFive
  have hedits := restarts_on_edits hreachable
  obtain ⟨digits, hlength, hdigits⟩ := exists_overlong
  refine ⟨hreachable, ?_, digits, hlength, ?_⟩
  · obtain ⟨edited, hedit, hgraph⟩ := interrupts_previewingFive (.int 7)
    rw [hedits.restarts_iff _ edited hedit, hgraph]
    exact ⟨_, @Graph.compile_single_of_ok (Graph.limitNode (.int 7)) _ rfl⟩
  · obtain ⟨edited, hedit, hgraph⟩ := interrupts_previewingFive (.text (String.ofList digits))
    have hcompile := compile_onlyLimit_of_overlong hdigits (by rw [hlength]; decide)
    intro hrestarts
    obtain ⟨report, hreport⟩ := (hedits.restarts_iff _ edited hedit).1 hrestarts
    rw [hgraph, hcompile] at hreport
    cases hreport

end Session

end StageChain
