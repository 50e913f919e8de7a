import StageChain.Proofs.Preview.SessionChange

/-!
# Reports that are never out of date

A session keeps the report of its graph together with the revision that it is for. To compile the
graph anew would give the same at any time: that is `Recompiles`, and `recompiles_takeAll` says it
of every state that a session can come to. A session that forgets its report before everything that
happens goes through the same states otherwise, so nothing can tell whether a report has been kept.

What carries this is that the graph is not changed in what compiling looks at unless its revision is
counted up: `Change.sameStages`.
-/

namespace StageChain.Session

variable {s next : Session}

/-! ## What happens to a session and to its nodes -/

/-- What can happen to a session, writes of the errors of its nodes included. -/
inductive Step where
  | act (action : Action)
  /-- Something is noted as wrong with a node. -/
  | flag (id : String) (message : Value)

/-- The session after something has happened. -/
def take (s : Session) : Step → Session
  | .act action => s.perform action
  | .flag id message => { s with editor := s.editor.mark id message }

/-- The session after some steps. -/
def takeAll (s : Session) (steps : List Step) : Session := steps.foldl take s

/-! ## Revisions and reports -/

/-- A preview that is asked for without a change of the revision is one of the same stages. -/
theorem Asks.sameStages {action : Action} {editor : Editor} {page : Int}
    (h : s.Asks action editor page) (hrevision : editor.revision = s.editor.revision) :
    s.editor.graph.SameStages editor.graph := by
  rcases h.editor_eq with rfl | hcounted
  · exact .refl _
  · omega

/-- As long as the revision is the same, compiling gives the same. -/
theorem Change.sameStages {action : Action} (h : s.Change action next)
    (hrevision : next.editor.revision = s.editor.revision) :
    s.editor.graph.SameStages next.editor.graph := by
  cases h with
  | unchanged | reported | moved | noted => exact .refl _
  | edited edit editor hkeeps hquiet =>
      rcases hquiet with ⟨hsame, -⟩ | ⟨-, hcounted⟩
      · exact hsame
      · have hstays : editor.revision = s.editor.revision := hrevision
        omega
  | missed action editor page numeral hasks => exact hasks.sameStages hrevision
  | refused action editor page report failure hasks hcompile =>
      have hretains : Retains { s with editor := editor }
          (refusing { s with editor := editor } page report failure) := retains_refusing hcompile
      have hstays := hretains.revision_eq.symm.trans hrevision
      exact (hasks.sameStages hstays).trans hretains.sameStages
  | started action editor page report pipeline hasks hcompile =>
      have hretains : Retains { s with editor := editor }
          (starting { s with editor := editor } page report pipeline) := retains_starting hcompile
      have hstays := hretains.revision_eq.symm.trans hrevision
      exact (hasks.sameStages hstays).trans hretains.sameStages
  | marked k run failure =>
      rcases mark_cases { s with following := s.following.erase k } failure with
        hsame | ⟨id, message, hmark⟩
      · rw [hsame]
        exact .refl _
      · rw [hmark]
        exact s.editor.sameStages_mark id message

theorem Kept.take (h : s.Kept) (step : Step) : (s.take step).Kept := by
  cases step with
  | act action => exact h.change (h.change_perform action)
  | flag id message =>
      have hretains : s.Retains { s with editor := s.editor.mark id message } :=
        h.of_cached_eq (s.editor.sameStages_mark id message) rfl rfl
      exact hretains.kept

theorem Kept.takeAll (h : s.Kept) (steps : List Step) : (s.takeAll steps).Kept := by
  induction steps generalizing s with
  | nil => exact h
  | cons step rest ih => exact ih (h.take step)

/-! ## Sessions without a report -/

/-- The session without the report that it keeps. -/
def forget (s : Session) : Session := { s with cached := none }

/-- The session after some steps, before each of which it forgets the report, so that every report
that is needed is made anew. -/
def takeAllAnew (s : Session) (steps : List Step) : Session :=
  steps.foldl (fun s step => s.forget.take step) s

theorem kept_forget (s : Session) : s.forget.Kept := by
  constructor <;> simp [forget]

theorem forget_mark (s : Session) (failure : Failure) :
    s.forget.mark failure = (s.mark failure).forget := by
  unfold mark
  cases failure.nodeId?.filter (!·.isEmpty) <;> rfl

theorem forget_resume (s : Session) (k : Nat) :
    (s.forget.resume k).forget = (s.resume k).forget := by
  by_cases hk : k ∈ s.following
  case neg =>
    have hforgotten : k ∉ s.forget.following := hk
    rw [resume_of_not_mem hk, resume_of_not_mem hforgotten]
    rfl
  have hforgotten : k ∈ s.forget.following := hk
  cases hending : s.orchestrator.ending? k with
  | none =>
      have hnone : s.forget.orchestrator.ending? k = none := hending
      rw [resume_of_none hending, resume_of_none hnone]
      rfl
  | some ending =>
      have hsome : s.forget.orchestrator.ending? k = some ending := hending
      rcases resume_cases hk hending with ⟨hgood, hresume⟩ | ⟨run, failure, rfl, hfailure, hresume⟩
      · rw [hresume]
        rcases resume_cases hforgotten hsome with ⟨-, hresumed⟩ | ⟨run, failure, rfl, hfailure, -⟩
        · rw [hresumed]
          rfl
        · simp [hgood run rfl] at hfailure
      · have hmark := forget_mark { s with following := s.following.erase k } failure
        have hforgets := congrArg forget hmark
        rw [hresume, resume_of_failed hforgotten hsome hfailure]
        exact hforgets

/-- Whether a report is kept makes no difference to an attempt to start a preview. -/
theorem Kept.forget_startPreview (h : s.Kept) (page : Int) :
    (s.forget.startPreview page).1.forget = (s.startPreview page).1.forget := by
  have hforgotten := s.kept_forget
  rcases Int.lt_or_le page 1 with hsmall | hpage
  · rw [startPreview_of_small hsmall, startPreview_of_small hsmall]
    rfl
  cases hcompile : s.editor.graph.compile with
  | error numeral =>
      rw [h.startPreview_of_overlong hpage hcompile,
        hforgotten.startPreview_of_overlong hpage hcompile]
      rfl
  | ok report =>
      cases hresult : report.result with
      | error failure =>
          rw [h.startPreview_of_refused hpage hcompile hresult,
            hforgotten.startPreview_of_refused hpage hcompile hresult]
          rfl
      | ok pipeline =>
          rw [h.startPreview_of_started hpage hcompile hresult,
            hforgotten.startPreview_of_started hpage hcompile hresult]
          rfl

theorem Kept.forget_edit (h : s.Kept) (edit : Edit) :
    (s.forget.perform (.edit edit)).forget = (s.perform (.edit edit)).forget := by
  cases hedit : s.editor.apply edit with
  | error fault =>
      have hforgotten : s.forget.editor.apply edit = .error fault := hedit
      rw [perform_edit_of_error (edit_of_error hedit),
        perform_edit_of_error (edit_of_error hforgotten)]
      rfl
  | ok edited =>
      have hforgotten : s.forget.editor.apply edit = .ok edited := hedit
      cases hflight : s.orchestrator.inFlight with
      | false =>
          have hfree : s.forget.orchestrator.inFlight = false := hflight
          rw [perform_edit_of_ok (edit_of_free hedit hflight),
            perform_edit_of_ok (edit_of_free hforgotten hfree)]
          rfl
      | true =>
          have hrunning : s.forget.orchestrator.inFlight = true := hflight
          cases Editor.gives_of_apply hedit with
          | quiet hnotices =>
              rw [perform_edit_of_ok (edit_of_quiet hedit hnotices),
                perform_edit_of_ok (edit_of_quiet hforgotten hnotices)]
              rfl
          | announced hnotices hrevision =>
              rw [perform_edit_of_ok (edit_of_inFlight hedit hnotices hflight),
                perform_edit_of_ok (edit_of_inFlight hforgotten hnotices hrunning)]
              exact (kept_of_revision_lt h hrevision).forget_startPreview 1

/-- Whether a report is kept makes no difference to what happens next. -/
theorem Kept.forget_take (h : s.Kept) (step : Step) :
    (s.forget.take step).forget = (s.take step).forget := by
  cases step with
  | flag id message => rfl
  | act action =>
      cases action with
      | preview page => exact h.forget_startPreview page
      | edit edit => exact h.forget_edit edit
      | report =>
          have hforgotten := s.kept_forget.report_eq
          simp only [Session.take, perform, h.report_eq, hforgotten]
          cases hcompile : s.editor.graph.compile with
          | error numeral =>
              have hanew : s.forget.editor.graph.compile = .error numeral := hcompile
              rw [hanew]
              rfl
          | ok report =>
              have hanew : s.forget.editor.graph.compile = .ok report := hcompile
              rw [hanew]
              rfl
      | release gate => rfl
      | script source => rfl
      | step k =>
          have hforgotten : s.forget.orchestrator = s.orchestrator := rfl
          simp only [Session.take, perform, Session.step?, hforgotten]
          cases s.orchestrator.step? k <;> rfl
      | conclude k conclusion => rfl
      | resume k => exact s.forget_resume k

/-- A session that makes every report anew goes through the same states. -/
theorem Kept.forget_takeAllAnew (h : s.Kept) (steps : List Step) :
    (s.takeAllAnew steps).forget = (s.takeAll steps).forget := by
  -- the two sessions may keep different reports on the way, so only what is left when both forget
  -- theirs is the same
  have hstates : ∀ anew : Session, anew.forget = s.forget →
      (anew.takeAllAnew steps).forget = (s.takeAll steps).forget := by
    induction steps generalizing s with
    | nil => exact fun anew hsame => hsame
    | cons step rest ih =>
        intro anew hsame
        refine ih (h.take step) (anew.forget.take step) ?_
        rw [hsame]
        exact h.forget_take step
  exact hstates s rfl

/-! ## The main theorem -/

/-- The report of a session is what compiling its graph gives. -/
structure Recompiles (s : Session) : Prop where
  /-- Where compiling gives no report, asking for it fails in the same way. -/
  report_eq : s.report.map Prod.fst = s.editor.graph.compile
  /-- To ask for the report changes nothing but what is kept, and the same is given again. -/
  reread : ∀ report next, s.report = .ok (report, next) →
    next.forget = s.forget ∧ next.report = .ok (report, next)
  /-- Nothing that leaves the revision as it is changes what compiling gives. -/
  compile_eq : ∀ step, (s.take step).editor.revision = s.editor.revision →
    (s.take step).editor.graph.compile = s.editor.graph.compile

theorem Kept.recompiles (h : s.Kept) : s.Recompiles := by
  constructor
  case report_eq =>
    rw [h.report_eq]
    cases s.editor.graph.compile <;> rfl
  case reread =>
    intro report next hreport
    rw [h.report_eq] at hreport
    cases hcompile : s.editor.graph.compile with
    | error numeral => simp [hcompile, Except.map] at hreport
    | ok made =>
        simp only [hcompile, Except.map, Except.ok.injEq, Prod.mk.injEq] at hreport
        obtain ⟨rfl, rfl⟩ := hreport
        have hretains : s.Retains (s.keep made) := retains_of_cached (.refl _) rfl rfl hcompile
        refine ⟨rfl, ?_⟩
        rw [hretains.kept.report_eq]
        show Except.map _ s.editor.graph.compile = _
        rw [hcompile]
        rfl
  case compile_eq =>
    intro step hrevision
    cases step with
    | act action => exact ((h.change_perform action).sameStages hrevision).compile_eq
    | flag id message => exact (s.editor.sameStages_mark id message).compile_eq

/-- Whatever happens to a session, in whatever order, the report that it gives is the one that
compiling its graph gives then, and a session that makes every report anew is in the same state. -/
theorem recompiles_takeAll (editor : Editor) (o : Orchestrator) (steps : List Step) :
    ((create editor o).takeAll steps).Recompiles ∧
      ((create editor o).takeAllAnew steps).forget = ((create editor o).takeAll steps).forget := by
  have hcreated := kept_create editor o
  exact ⟨(hcreated.takeAll steps).recompiles, hcreated.forget_takeAllAnew steps⟩

end StageChain.Session
