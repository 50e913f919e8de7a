import StageChain.Proofs.Preview.SessionSchedule

/-!
# Everything that an action can do to a session

`Change` says in one place what each action does, given that the report that is kept is right:
`Kept.change_perform`. An action that asks for a preview refuses the graph, starts a run of its
pipeline, or misses, if the graph has no report; whether it is a request or a change of the graph
makes no difference. What follows for the orchestrator and for the report that is kept stands at the
end: `Change.orchestrator` and `Kept.change`.
-/

namespace StageChain

theorem Session.observe_self (s : Session) : s.observe s.orchestrator = s := by
  rw [observe, List.drop_length]
  rfl

namespace Session

variable {s next : Session} {k : Nat}

/-- An action asks for a preview of some page of the graph of an editor: by a request, or by a
change of the graph while a run is in flight. -/
inductive Asks (s : Session) : Action → Editor → Int → Prop where
  | request (page : Int) (hpage : 1 ≤ page) : Asks s (.preview page) s.editor page
  | restart (edit : Edit) (edited : Edited) (hedit : s.editor.apply edit = .ok edited)
      (hrevision : edited.editor.revision = s.editor.revision + 1)
      (hflight : s.orchestrator.inFlight = true) : Asks s (.edit edit) edited.editor 1

/-- What actions do. -/
inductive Change (s : Session) : Action → Session → Prop where
  /-- Nothing but what later reads meet. -/
  | unchanged (action : Action) (released : List String) (source : Source) :
      Change s action
        { s with orchestrator := { s.orchestrator with released := released, source := source } }
  /-- The report of the graph is kept. -/
  | reported (report : Report) (hcompile : s.editor.graph.compile = .ok report) :
      Change s .report (s.keep report)
  /-- The graph is changed, and no preview is asked for: compiling does not look at the change, or
  no run is in flight. -/
  | edited (edit : Edit) (editor : Editor) (hkeeps : s.editor.graph.KeepsErrors editor.graph)
      (hquiet : s.editor.graph.SameStages editor.graph ∧
          editor.revision = s.editor.revision ∨
        s.orchestrator.inFlight = false ∧ editor.revision = s.editor.revision + 1) :
      Change s (.edit edit) { s with editor := editor }
  /-- The graph that a preview is asked of has no report. -/
  | missed (action : Action) (editor : Editor) (page : Int) (numeral : Text.OverlongNumeral)
      (hasks : s.Asks action editor page) (hcompile : editor.graph.compile = .error numeral) :
      Change s action { s with editor := editor, page := page }
  /-- The graph that a preview is asked of is refused. -/
  | refused (action : Action) (editor : Editor) (page : Int) (report : Report) (failure : Failure)
      (hasks : s.Asks action editor page) (hcompile : editor.graph.compile = .ok report)
      (hresult : report.result = .error failure) :
      Change s action (refusing { s with editor := editor } page report failure)
  /-- A run of the pipeline of the graph is started. -/
  | started (action : Action) (editor : Editor) (page : Int) (report : Report)
      (pipeline : Pipeline) (hasks : s.Asks action editor page)
      (hcompile : editor.graph.compile = .ok report) (hresult : report.result = .ok pipeline) :
      Change s action (starting { s with editor := editor } page report pipeline)
  /-- A pending task goes on. -/
  | moved (action : Action) (k : Nat) (task : Task) (conclusion? : Option Conclusion)
      (later : Orchestrator) (haction : action.task? = some k)
      (htask : s.orchestrator.tasks[k]? = some task)
      (hmove : s.orchestrator.Move k task conclusion? later) : Change s action (s.observe later)
  /-- The session takes note of a task that has ended without a failure of its run. -/
  | noted (k : Nat) (ending : Ending) (hk : k ∈ s.following)
      (hending : s.orchestrator.ending? k = some ending)
      (hgood : ∀ run, ending = .finished run → run.failure = none) :
      Change s (.resume k) { s with following := s.following.erase k }
  /-- The session takes note of a run that has failed. -/
  | marked (k : Nat) (run : Run) (failure : Failure) (hk : k ∈ s.following)
      (hending : s.orchestrator.ending? k = some (.finished run))
      (hfailure : run.failure = some failure) :
      Change s (.resume k) (mark { s with following := s.following.erase k } failure)

namespace Asks

variable {action : Action} {editor : Editor} {page : Int}

theorem one_le (h : s.Asks action editor page) : 1 ≤ page := by
  cases h with
  | request page hpage => exact hpage
  | restart => decide

/-- The editor is that of the session, or the session has just changed it. -/
theorem editor_eq (h : s.Asks action editor page) :
    editor = s.editor ∨ editor.revision = s.editor.revision + 1 := by
  cases h with
  | request => exact .inl rfl
  | restart edit edited hedit hrevision => exact .inr hrevision

theorem keepsErrors (h : s.Asks action editor page) : s.editor.graph.KeepsErrors editor.graph := by
  cases h with
  | request => exact .refl _
  | restart edit edited hedit => exact Editor.keepsErrors_of_apply hedit

end Asks

/-! ## Operations of the editor -/

section Edit

variable {edit : Edit} {edited : Edited}

theorem edit_of_error {fault : EditFault} (hedit : s.editor.apply edit = .error fault) :
    s.edit edit = .error fault := by
  rw [Session.edit, hedit]
  rfl

theorem edit_of_quiet (hedit : s.editor.apply edit = .ok edited) (hnotices : edited.notices = []) :
    s.edit edit = .ok ({ s with editor := edited.editor }, none) := by
  rw [Session.edit, hedit, Except.map, receive, hnotices]
  rfl

/-- An edit that listeners are told of starts a fresh preview while a run is in flight. -/
theorem edit_of_inFlight (hedit : s.editor.apply edit = .ok edited)
    (hnotices : edited.notices = [edited.editor]) (hflight : s.orchestrator.inFlight = true) :
    s.edit edit = .ok (startPreview { s with editor := edited.editor } 1) := by
  rw [Session.edit, hedit, Except.map, receive, hnotices]
  exact congrArg Except.ok (if_pos hflight)

theorem edit_of_free (hedit : s.editor.apply edit = .ok edited)
    (hfree : s.orchestrator.inFlight = false) :
    s.edit edit = .ok ({ s with editor := edited.editor }, none) := by
  cases Editor.gives_of_apply hedit with
  | quiet hnotices => exact edit_of_quiet hedit hnotices
  | announced hnotices =>
      have hidle : ¬ s.orchestrator.inFlight = true := by simp [hfree]
      rw [Session.edit, hedit, Except.map, receive, hnotices]
      exact congrArg Except.ok (if_neg hidle)

theorem perform_edit_of_error {fault : EditFault} (h : s.edit edit = .error fault) :
    s.perform (.edit edit) = s := by
  rw [Session.perform, h]

theorem perform_edit_of_ok {result : Session × Option RunFault} (h : s.edit edit = .ok result) :
    s.perform (.edit edit) = result.1 := by
  rw [Session.perform, h]

end Edit

/-! ## Previews that are asked for -/

/-- The editor of a session has changed its graph, and the session has not heard of it yet. -/
theorem kept_of_revision_lt {editor : Editor} (h : s.Kept)
    (hrevision : editor.revision = s.editor.revision + 1) : Kept { s with editor := editor } := by
  have hlt : ∀ report revision, s.cached = some (report, revision) →
      revision < editor.revision := by
    intro report revision hcached
    have hold := h.revision_le report revision hcached
    omega
  refine ⟨fun report revision hcached => Nat.le_of_lt (hlt report revision hcached), ?_⟩
  intro report hcached
  exact absurd (hlt report editor.revision hcached) (Nat.lt_irrefl _)

theorem Asks.kept {action : Action} {editor : Editor} {page : Int} (h : s.Kept)
    (hasks : s.Asks action editor page) : Kept { s with editor := editor } := by
  rcases hasks.editor_eq with rfl | hrevision
  · exact h
  · exact kept_of_revision_lt h hrevision

/-- An action that asks for a preview attempts to start one. -/
theorem Asks.perform_eq {action : Action} {editor : Editor} {page : Int}
    (h : s.Asks action editor page) :
    s.perform action = (startPreview { s with editor := editor } page).1 := by
  cases h with
  | request => rfl
  | restart edit edited hedit hrevision hflight =>
      cases Editor.gives_of_apply hedit with
      | quiet _ hsame => omega
      | announced hnotices =>
          rw [perform_edit_of_ok (edit_of_inFlight hedit hnotices hflight)]

theorem Asks.change {action : Action} {editor : Editor} {page : Int} (h : s.Kept)
    (hasks : s.Asks action editor page) : s.Change action (s.perform action) := by
  have hkept := hasks.kept h
  rw [hasks.perform_eq]
  cases hcompile : editor.graph.compile with
  | error numeral =>
      rw [hkept.startPreview_of_overlong hasks.one_le hcompile]
      exact .missed action editor page numeral hasks hcompile
  | ok report =>
      cases hresult : report.result with
      | error failure =>
          rw [hkept.startPreview_of_refused hasks.one_le hcompile hresult]
          exact .refused action editor page report failure hasks hcompile hresult
      | ok pipeline =>
          rw [hkept.startPreview_of_started hasks.one_le hcompile hresult]
          exact .started action editor page report pipeline hasks hcompile hresult

/-! ## Every action -/

theorem Kept.change_preview (h : s.Kept) (page : Int) :
    s.Change (.preview page) (s.perform (.preview page)) := by
  rcases Int.lt_or_le page 1 with hsmall | hpage
  · show s.Change (.preview page) (s.startPreview page).1
    rw [startPreview_of_small hsmall]
    exact .unchanged _ s.orchestrator.released s.orchestrator.source
  · exact Asks.change h (.request page hpage)

theorem Kept.change_edit (h : s.Kept) (edit : Edit) :
    s.Change (.edit edit) (s.perform (.edit edit)) := by
  cases hedit : s.editor.apply edit with
  | error fault =>
      rw [perform_edit_of_error (edit_of_error hedit)]
      exact .unchanged _ s.orchestrator.released s.orchestrator.source
  | ok edited =>
      have hkeeps := Editor.keepsErrors_of_apply hedit
      cases Editor.gives_of_apply hedit with
      | quiet hnotices hrevision hsame =>
          rw [perform_edit_of_ok (edit_of_quiet hedit hnotices)]
          exact .edited edit edited.editor hkeeps (.inl ⟨hsame, hrevision⟩)
      | announced hnotices hrevision =>
          cases hflight : s.orchestrator.inFlight with
          | true => exact Asks.change h (.restart edit edited hedit hrevision hflight)
          | false =>
              rw [perform_edit_of_ok (edit_of_free hedit hflight)]
              exact .edited edit edited.editor hkeeps (.inr ⟨hflight, hrevision⟩)

theorem Kept.change_report (h : s.Kept) : s.Change .report (s.perform .report) := by
  cases hcompile : s.editor.graph.compile with
  | error numeral =>
      have hperform : s.perform .report = s := by
        simp [Session.perform, h.report_eq, hcompile, Except.map]
      rw [hperform]
      exact .unchanged _ s.orchestrator.released s.orchestrator.source
  | ok report =>
      have hperform : s.perform .report = s.keep report := by
        simp [Session.perform, h.report_eq, hcompile, Except.map]
      rw [hperform]
      exact .reported report hcompile

theorem change_step (s : Session) (k : Nat) : s.Change (.step k) (s.perform (.step k)) := by
  cases hstep : s.orchestrator.step? k with
  | none =>
      have hperform : s.perform (.step k) = s := by
        simp [Session.perform, Session.step?, hstep]
      rw [hperform]
      exact .unchanged _ s.orchestrator.released s.orchestrator.source
  | some later =>
      have hperform : s.perform (.step k) = s.observe later := by
        simp [Session.perform, Session.step?, hstep]
      obtain ⟨task, conclusion?, htask, hmove, -⟩ := Orchestrator.move_of_step? hstep
      rw [hperform]
      exact .moved _ k task conclusion? later rfl htask hmove

theorem change_conclude (s : Session) (k : Nat) (conclusion : Conclusion) :
    s.Change (.conclude k conclusion) (s.perform (.conclude k conclusion)) := by
  show s.Change _ (s.observe (s.orchestrator.concludeReads k conclusion))
  rcases s.orchestrator.concludeReads_cases k conclusion with hsame | ⟨task, htask, hmove⟩
  · rw [hsame, observe_self]
    exact .unchanged _ s.orchestrator.released s.orchestrator.source
  · exact .moved _ k task _ _ rfl htask hmove

theorem resume_of_not_mem (hk : k ∉ s.following) : s.resume k = s := by
  simp [resume, hk]

theorem resume_of_none (hnone : s.orchestrator.ending? k = none) : s.resume k = s := by
  unfold resume
  split <;> simp only [hnone]

theorem resume_of_failed {run : Run} {failure : Failure} (hk : k ∈ s.following)
    (hending : s.orchestrator.ending? k = some (.finished run))
    (hfailure : run.failure = some failure) :
    s.resume k = mark { s with following := s.following.erase k } failure := by
  simp [resume, hk, hending, hfailure]

/-- To take note of the end of a task that is followed marks a node if the run of the task has
failed, and else changes nothing more. -/
theorem resume_cases {ending : Ending} (hk : k ∈ s.following)
    (hending : s.orchestrator.ending? k = some ending) :
    (∀ run, ending = .finished run → run.failure = none) ∧
        s.resume k = { s with following := s.following.erase k } ∨
      ∃ run failure, ending = .finished run ∧ run.failure = some failure ∧
        s.resume k = mark { s with following := s.following.erase k } failure := by
  cases ending with
  | finished run =>
      cases hfailure : run.failure with
      | none =>
          refine .inl ⟨fun other hother => ?_, by simp [resume, hk, hending, hfailure]⟩
          obtain rfl := Ending.finished.inj hother
          exact hfailure
      | some failure =>
          exact .inr ⟨run, failure, rfl, hfailure, resume_of_failed hk hending hfailure⟩
  | discarded | cancelled | crashed => exact .inl ⟨nofun, by simp [resume, hk, hending]⟩

theorem change_resume (s : Session) (k : Nat) : s.Change (.resume k) (s.perform (.resume k)) := by
  show s.Change (.resume k) (s.resume k)
  by_cases hk : k ∈ s.following
  case neg =>
    rw [resume_of_not_mem hk]
    exact .unchanged _ s.orchestrator.released s.orchestrator.source
  cases hending : s.orchestrator.ending? k with
  | none =>
      rw [resume_of_none hending]
      exact .unchanged _ s.orchestrator.released s.orchestrator.source
  | some ending =>
      rcases resume_cases hk hending with ⟨hgood, hresume⟩ | ⟨run, failure, rfl, hfailure, hresume⟩
      · rw [hresume]
        exact .noted k ending hk hending hgood
      · rw [hresume]
        exact .marked k run failure hk hending hfailure

/-- An action does one of the things that `Change` lists. -/
theorem Kept.change_perform (h : s.Kept) (action : Action) :
    s.Change action (s.perform action) := by
  cases action with
  | preview page => exact h.change_preview page
  | edit edit => exact h.change_edit edit
  | report => exact h.change_report
  | release gate => exact .unchanged _ _ s.orchestrator.source
  | script source => exact .unchanged _ s.orchestrator.released _
  | step k => exact s.change_step k
  | conclude k conclusion => exact s.change_conclude k conclusion
  | resume k => exact s.change_resume k

/-! ## What every action keeps -/

/-- What an action does to the orchestrator is done by an action of the orchestrator that offers no
run. -/
theorem Change.orchestrator {action : Action} (h : s.Change action next) :
    ∃ inner, (∀ run, inner ≠ .accept run) ∧ s.orchestrator.Change inner next.orchestrator := by
  have hsame : s.orchestrator.Change (.release "") s.orchestrator :=
    .unchanged _ s.orchestrator.released s.orchestrator.source rfl
  cases h with
  | unchanged action released source => exact ⟨.release "", nofun, .unchanged _ _ _ rfl⟩
  | reported | edited | missed | noted => exact ⟨.release "", nofun, hsame⟩
  | refused action editor page report failure =>
      refine ⟨.reject failure, nofun, ?_⟩
      simp only [orchestrator_refusing]
      exact s.orchestrator.change_perform (.reject failure)
  | started action editor page report pipeline =>
      exact ⟨.start pipeline page, nofun, s.orchestrator.change_start pipeline page⟩
  | moved action k task conclusion? later haction htask hmove =>
      exact ⟨.step k, nofun, .moved k task conclusion? later _ rfl htask hmove⟩
  | marked k run failure =>
      refine ⟨.release "", nofun, ?_⟩
      rw [orchestrator_mark]
      exact hsame

/-- The report that is kept stays right, whatever an action does. -/
theorem Kept.change {action : Action} (h : s.Kept) (hchange : s.Change action next) :
    next.Kept := by
  cases hchange with
  | unchanged | moved | noted => exact ⟨h.revision_le, h.compile_eq⟩
  | reported report hcompile =>
      have hretains : s.Retains (s.keep report) := retains_of_cached (.refl _) rfl rfl hcompile
      exact hretains.kept
  | edited edit editor hkeeps hquiet =>
      rcases hquiet with ⟨hsame, hrevision⟩ | ⟨-, hcounted⟩
      · have hretains : s.Retains { s with editor := editor } := h.of_cached_eq hsame hrevision rfl
        exact hretains.kept
      · exact kept_of_revision_lt h hcounted
  | missed action editor page numeral hasks =>
      have hkept := hasks.kept h
      exact ⟨hkept.revision_le, hkept.compile_eq⟩
  | refused action editor page report failure hasks hcompile =>
      exact (retains_refusing hcompile).kept
  | started action editor page report pipeline hasks hcompile =>
      exact (retains_starting hcompile).kept
  | marked k run failure =>
      have hnoted : Kept { s with following := s.following.erase k } :=
        ⟨h.revision_le, h.compile_eq⟩
      exact (hnoted.retains_mark failure).kept

end Session

end StageChain
