import StageChain.Proofs.Preview.Currency
import StageChain.Proofs.Preview.Staleness

/-!
# Which run a node is marked for

A session marks the node of a failed run when it takes note of the end of its task, and by then the
run can be out of date: the graph can have been changed, and another run can have been started,
since the task ended. `Overtakes` says which actions leave a run behind in this way, and
`marks_exact` that nothing else does. As long as no such mark is made, every error of a node is that
of the latest run: `FlagsLatest`. That such marks are made is `marks_stale`.
-/

namespace StageChain.Session

variable {s next : Session} {k : Nat} {action : Action} {run : Run}

/-! ## What holds of every session -/

/-- What holds of every state that a session can come to. -/
structure Sound (s : Session) : Prop extends InStep s where
  recorded : s.orchestrator.Recorded
  earned : s.orchestrator.Earned fun _ => False
  nodup : s.following.Nodup
  exists_task : ∀ k ∈ s.following, ∃ task, s.orchestrator.tasks[k]? = some task

theorem sound_create {collection : String} {pageSize : Int} {timeout : Double} {source : Source}
    {o : Orchestrator} (editor : Editor)
    (h : Orchestrator.create collection pageSize timeout source = .ok o) :
    (create editor o).Sound := by
  have hinStep := inStep_create editor h
  obtain rfl := Orchestrator.create_eq_ok h
  exact ⟨hinStep, by simp [Orchestrator.Recorded, create], by simp [Orchestrator.Earned, create],
    by simp [create], by simp [create]⟩

theorem Sound.extends_change (h : s.Sound) (hchange : s.Change action next) :
    s.orchestrator.Extends next.orchestrator := by
  obtain ⟨inner, -, hinner⟩ := hchange.orchestrator
  exact h.coherent.extends_change hinner

/-- The tasks that are followed stay, but for those whose end is taken note of, and a task that is
started is followed as well. -/
theorem Change.following_eq (h : s.Change action next) :
    next.following = s.following ∨ (∃ k, next.following = s.following.erase k) ∨
      next.following = s.following ++ [s.orchestrator.tasks.length] ∧
        ∃ task, next.orchestrator.tasks[s.orchestrator.tasks.length]? = some task := by
  cases h with
  | unchanged | reported | edited | missed | moved => exact .inl rfl
  | refused => exact .inl (by simp [refusing])
  | noted k => exact .inr (.inl ⟨k, rfl⟩)
  | marked k => exact .inr (.inl ⟨k, by simp⟩)
  | started action editor page report pipeline hasks =>
      refine .inr (.inr ⟨rfl, ?_⟩)
      show ∃ task, (s.orchestrator.perform (.start pipeline page)).tasks[_]? = some task
      rw [s.orchestrator.perform_start pipeline hasks.one_le]
      have hlength : s.orchestrator.advance.tasks.length = s.orchestrator.tasks.length :=
        s.orchestrator.length_tasks_cancel
      rw [← hlength, List.getElem?_concat_length]
      exact ⟨_, rfl⟩

theorem Sound.change (h : s.Sound) (hchange : s.Change action next) : next.Sound := by
  obtain ⟨inner, hoffers, hinner⟩ := hchange.orchestrator
  have hextends := h.coherent.extends_change hinner
  have hstays : ∀ k ∈ s.following, ∃ task, next.orchestrator.tasks[k]? = some task := by
    intro k hk
    obtain ⟨task, htask⟩ := h.exists_task k hk
    obtain ⟨later, hlater, -⟩ := hextends.tasks k task htask
    exact ⟨later, hlater⟩
  refine ⟨h.toInStep.change hchange, h.coherent.recorded_change h.recorded hinner hoffers,
    h.coherent.earned_change hinner h.earned fun run hrun => absurd hrun (hoffers run), ?_, ?_⟩
  · rcases hchange.following_eq with hsame | ⟨k, herase⟩ | ⟨happend, -⟩
    · rw [hsame]
      exact h.nodup
    · rw [herase]
      exact h.nodup.erase k
    · rw [happend]
      refine List.nodup_append.2 ⟨h.nodup, by simp, ?_⟩
      rintro k hk other hother rfl
      obtain ⟨task, htask⟩ := h.exists_task k hk
      obtain ⟨hlt, -⟩ := List.getElem?_eq_some_iff.1 htask
      exact absurd (List.mem_singleton.1 hother) (Nat.ne_of_lt hlt)
  · rcases hchange.following_eq with hsame | ⟨k, herase⟩ | ⟨happend, hnew⟩
    · rw [hsame]
      exact hstays
    · rw [herase]
      exact fun j hj => hstays j (List.mem_of_mem_erase hj)
    · rw [happend]
      intro j hj
      rcases List.mem_append.1 hj with hold | hlast
      · exact hstays j hold
      · rw [List.mem_singleton.1 hlast]
        exact hnew

theorem Sound.perform (h : s.Sound) (action : Action) : (s.perform action).Sound :=
  h.change (h.kept.change_perform action)

theorem Sound.performAll (h : s.Sound) (actions : List Action) : (s.performAll actions).Sound := by
  induction actions generalizing s with
  | nil => exact h
  | cons action rest ih => exact ih (h.perform action)

theorem Sound.extends_performAll (h : s.Sound) (actions : List Action) :
    s.orchestrator.Extends (s.performAll actions).orchestrator := by
  induction actions generalizing s with
  | nil => exact .refl _
  | cons action rest ih =>
      exact (h.extends_change (h.kept.change_perform action)).trans (ih (h.perform action))

/-! ## Marks -/

/-- The node that is marked for a failure. -/
def target? (s : Session) (failure : Failure) : Option String :=
  failure.nodeId?.filter fun id => !id.isEmpty && (s.editor.graph.nodes.get? id).isSome

/-- To take note of the end of a task marks a node for its run. -/
def Writes (s : Session) (k : Nat) (run : Run) : Prop :=
  k ∈ s.following ∧ s.orchestrator.ending? k = some (.finished run) ∧
    ∃ failure id, run.failure = some failure ∧ s.target? failure = some id

theorem nodeId?_of_target? {failure : Failure} {id : String} (h : s.target? failure = some id) :
    failure.nodeId? = some id := (Option.filter_eq_some_iff.1 h).1

/-- To mark the node of a failure changes the error of no other node. -/
theorem errorAt_mark (s : Session) (failure : Failure) (id : String) :
    (s.mark failure).editor.graph.errorAt id =
      if s.target? failure = some id then .text failure.text else s.editor.graph.errorAt id := by
  unfold mark target?
  cases hnode : failure.nodeId? with
  | none => simp
  | some target =>
      by_cases hempty : target.isEmpty
      · simp only [Option.filter, hempty, Bool.not_true, Bool.false_and]
        simp
      · simp only [Option.filter, hempty, Bool.not_false, if_true, Editor.errorAt_mark,
          Bool.true_and]
        by_cases hid : id = target
        · subst hid
          cases (s.editor.graph.nodes.get? id).isSome <;> simp
        · have hne : target ≠ id := Ne.symm hid
          simp [hid, hne]

/-- Every error of a node is that of the latest run, and that run is of the current generation. -/
def FlagsLatest (s : Session) : Prop :=
  ∀ id, s.editor.graph.errorAt id ≠ .null → ∃ run failure,
    s.orchestrator.latest = some run ∧ run.generation = s.orchestrator.generation ∧
      run.failure = some failure ∧ run.failedNodeId? = some id ∧
        s.editor.graph.errorAt id = .text failure.text

theorem FlagsLatest.of_keepsErrors (h : s.FlagsLatest)
    (hkeeps : s.editor.graph.KeepsErrors next.editor.graph)
    (hgeneration : next.orchestrator.generation = s.orchestrator.generation)
    (hlatest : ∀ run, s.orchestrator.latest = some run →
      run.generation = s.orchestrator.generation → next.orchestrator.latest = some run) :
    next.FlagsLatest := by
  intro id hid
  rcases hkeeps id with hnull | hsame
  · exact absurd hnull hid
  · rw [hsame] at hid
    obtain ⟨run, failure, hrun, hcurrent, hfailure, hnode, htext⟩ := h id hid
    exact ⟨run, failure, hlatest run hrun hcurrent, hcurrent.trans hgeneration.symm, hfailure,
      hnode, hsame.trans htext⟩

/-- While a task is pending, the latest run is of an older generation. -/
theorem Sound.latest_of_move (h : s.Sound) {task : Task}
    (htask : s.orchestrator.tasks[k]? = some task) (hopen : task.isDone = false)
    (hrun : s.orchestrator.latest = some run) : run.generation ≠ s.orchestrator.generation := by
  intro hcurrent
  have hgeneration := (h.coherent.pending k task htask hopen).2
  have hending := h.earned run hrun id k task htask (hgeneration.trans hcurrent.symm)
  simp [Task.isDone_of_ending? hending] at hopen

/-- A mark that is made for a run of the current generation is made for the latest run. -/
theorem Sound.latest_of_writes (h : s.Sound)
    (hending : s.orchestrator.ending? k = some (.finished run))
    (hcurrent : run.generation = s.orchestrator.generation) : s.orchestrator.latest = some run := by
  obtain ⟨task, htask, hended⟩ := Option.bind_eq_some_iff.1 hending
  obtain ⟨hgeneration, hlatest⟩ := h.recorded k task run htask hended
  exact hlatest (hgeneration.symm.trans hcurrent)

theorem FlagsLatest.mark (h : s.FlagsLatest) {failure : Failure}
    (hlatest : ∀ id, s.target? failure = some id → ∃ run, s.orchestrator.latest = some run ∧
      run.generation = s.orchestrator.generation ∧ run.failure = some failure) :
    (s.mark failure).FlagsLatest := by
  intro id hid
  rw [orchestrator_mark]
  rw [errorAt_mark] at hid ⊢
  by_cases htarget : s.target? failure = some id
  · rw [if_pos htarget]
    obtain ⟨run, hrun, hcurrent, hfailure⟩ := hlatest id htarget
    have hnode : run.failedNodeId? = some id := by
      rw [Run.failedNodeId?, hfailure, Option.bind_some, nodeId?_of_target? htarget]
    exact ⟨run, failure, hrun, hcurrent, hfailure, hnode, rfl⟩
  · rw [if_neg htarget] at hid ⊢
    exact h id hid

/-- An action keeps all errors those of the latest run, unless by it the session marks a node for a
run of an older generation. -/
theorem FlagsLatest.change (h : s.FlagsLatest) (hsound : s.Sound) (hchange : s.Change action next)
    (hcurrent : ∀ k run, action = .resume k → s.Writes k run →
      run.generation = s.orchestrator.generation) : next.FlagsLatest := by
  cases hchange with
  | unchanged | reported | noted =>
      exact h.of_keepsErrors (.refl _) rfl fun run hrun _ => hrun
  | edited edit editor hkeeps => exact h.of_keepsErrors hkeeps rfl fun run hrun _ => hrun
  | missed action editor page numeral hasks =>
      exact h.of_keepsErrors hasks.keepsErrors rfl fun run hrun _ => hrun
  | refused action editor page report failure =>
      let cleared : Session := { s with
        page := page
        cached := some (report, editor.revision)
        previews := .empty
        editor := editor.clearErrors
        orchestrator := s.orchestrator.perform (.reject failure) }
      have hcleared : cleared.FlagsLatest := fun id hid =>
        absurd (Editor.errorAt_clearErrors editor id) hid
      have hmarked : (cleared.mark failure).FlagsLatest := by
        refine hcleared.mark fun id _ => ⟨s.orchestrator.refusedRun failure, ?_⟩
        show (s.orchestrator.perform _).latest = _ ∧ _ = (s.orchestrator.perform _).generation ∧ _
        rw [s.orchestrator.perform_reject]
        exact ⟨rfl, rfl, rfl⟩
      exact hmarked
  | started action editor page report pipeline =>
      exact fun id hid => absurd (Editor.errorAt_clearErrors editor id) hid
  | moved action k task conclusion? later haction htask hmove =>
      refine h.of_keepsErrors (.refl _) hmove.generation_eq fun run hrun hgeneration => ?_
      exact absurd hgeneration (hsound.latest_of_move htask hmove.isDone_eq_false hrun)
  | marked k run failure hk hending hfailure =>
      have hnoted : FlagsLatest { s with following := s.following.erase k } := h
      refine hnoted.mark fun id htarget => ⟨run, ?_⟩
      have hrun := hcurrent k run rfl ⟨hk, hending, failure, id, hfailure, htarget⟩
      exact ⟨hsound.latest_of_writes hending hrun, hrun, hfailure⟩

/-- Whenever a session marks a node, it does so for a run of the current generation. -/
def MarksCurrent (s : Session) (actions : List Action) : Prop :=
  ∀ (first : List Action) (k : Nat) (rest : List Action) (run : Run),
    actions = first ++ .resume k :: rest → (s.performAll first).Writes k run →
      run.generation = (s.performAll first).orchestrator.generation

theorem FlagsLatest.performAll (h : s.FlagsLatest) (hsound : s.Sound) (actions : List Action)
    (hmarks : s.MarksCurrent actions) : (s.performAll actions).FlagsLatest := by
  induction actions generalizing s with
  | nil => exact h
  | cons action rest ih =>
      have hchange := hsound.kept.change_perform action
      have hfirst : (s.perform action).FlagsLatest := by
        refine h.change hsound hchange ?_
        rintro k run rfl hwrites
        exact hmarks [] k rest run rfl hwrites
      refine ih hfirst (hsound.perform action) ?_
      rintro first k later run rfl hwrites
      exact hmarks (action :: first) k later run rfl hwrites

/-! ## Runs that are left behind -/

/-- By an action the task `k` is started. -/
def Starts (s : Session) (action : Action) (k : Nat) : Prop :=
  s.orchestrator.tasks.length = k ∧ (s.perform action).orchestrator.tasks.length = k + 1

/-- The generation and the revision of a session. -/
def stamp (s : Session) : Nat × Nat := (s.orchestrator.generation, s.editor.revision)

/-- An action takes a generation or changes the graph, and too late for that to cancel the run of a
task: the run has ended, or the graph has no report now. -/
def Overtakes (s : Session) (action : Action) (k : Nat) : Prop :=
  (s.perform action).stamp ≠ s.stamp ∧
    ((s.orchestrator.ending? k).isSome = true ∨ ¬ (s.perform action).IsReported)

theorem Change.length_tasks (h : s.Change action next) :
    next.orchestrator.tasks.length = s.orchestrator.tasks.length ∨
      next.orchestrator.tasks.length = s.orchestrator.tasks.length + 1 := by
  obtain ⟨inner, -, hinner⟩ := h.orchestrator
  have hcancel := s.orchestrator.length_tasks_cancel
  generalize next.orchestrator = later at hinner
  cases hinner with
  | started pipeline page hpage =>
      refine .inr ?_
      rw [List.length_append, List.length_singleton]
      exact congrArg (· + 1) hcancel
  | cancelled | rejected => exact .inl hcancel
  | accepted | unchanged => exact .inl rfl
  | moved k task conclusion? _ _ _ htask hmove =>
      obtain ⟨later, htasks, -⟩ := hmove.tasks_eq
      exact .inl (by rw [htasks, List.length_set])

/-- A task that has come up in a schedule was started by one of its actions. -/
theorem Sound.exists_starts (h : s.Sound) {actions : List Action}
    (hbefore : s.orchestrator.tasks.length ≤ k)
    (hafter : k < (s.performAll actions).orchestrator.tasks.length) :
    ∃ before starter since, actions = before ++ starter :: since ∧
      (s.performAll before).Starts starter k := by
  induction actions generalizing s with
  | nil => exact absurd hafter (Nat.not_lt.2 hbefore)
  | cons action rest ih =>
      by_cases hnext : (s.perform action).orchestrator.tasks.length ≤ k
      · obtain ⟨before, starter, since, rfl, hstarts⟩ := ih (h.perform action) hnext hafter
        exact ⟨action :: before, starter, since, rfl, hstarts⟩
      · have hlength := (h.kept.change_perform action).length_tasks
        refine ⟨[], action, rest, rfl, ?_⟩
        show s.orchestrator.tasks.length = k ∧ (s.perform action).orchestrator.tasks.length = k + 1
        omega

theorem Asks.revision_le {editor : Editor} {page : Int} (h : s.Asks action editor page) :
    s.editor.revision ≤ editor.revision := by
  rcases h.editor_eq with rfl | hrevision <;> omega

/-- Revisions are only counted up. -/
theorem Change.revision_le (h : s.Change action next) :
    s.editor.revision ≤ next.editor.revision := by
  cases h with
  | unchanged | reported | moved | noted => exact Nat.le_refl _
  | edited edit editor hkeeps hquiet =>
      show s.editor.revision ≤ editor.revision
      omega
  | missed action editor page numeral hasks => exact hasks.revision_le
  | refused action editor page report failure hasks =>
      simp only [refusing, revision_mark]
      exact hasks.revision_le
  | started action editor page report pipeline hasks => exact hasks.revision_le
  | marked => rw [revision_mark]

/-- While a run is in flight, its generation and the revision of the graph stay, unless the run is
cancelled or the graph has no report any more. -/
theorem Sound.stamp_of_pending (h : s.Sound) {task : Task}
    (htask : s.orchestrator.tasks[k]? = some task) (hopen : task.isDone = false)
    (hchange : s.Change action next) :
    next.stamp = s.stamp ∨ next.orchestrator.ending? k = some .cancelled ∨ ¬ next.IsReported := by
  have hheld := (h.coherent.pending k task htask hopen).1
  cases hchange with
  | unchanged | reported | noted => exact .inl rfl
  | edited edit editor hkeeps hquiet =>
      rcases hquiet with ⟨-, hrevision⟩ | ⟨hfree, -⟩
      · exact .inl (Prod.ext rfl hrevision)
      · simp [Orchestrator.inFlight, hheld, htask, hopen] at hfree
  | missed action editor page numeral hasks hcompile =>
      refine .inr (.inr ?_)
      rintro ⟨report, hreport⟩
      cases hcompile.symm.trans hreport
  | refused action editor page report failure =>
      refine .inr (.inl ?_)
      simp only [orchestrator_refusing]
      exact h.coherent.ending?_of_cancels (s.orchestrator.change_perform (.reject failure)) rfl
        htask hopen
  | started action editor page report pipeline hasks =>
      refine .inr (.inl ?_)
      have hcancels : (Orchestrator.Action.start pipeline page).cancels = true :=
        decide_eq_true hasks.one_le
      exact h.coherent.ending?_of_cancels (s.orchestrator.change_start pipeline page) hcancels htask
        hopen
  | moved action k task conclusion? later _ _ hmove => exact .inl (Prod.ext hmove.generation_eq rfl)
  | marked k run failure => exact .inl (Prod.ext (by simp [stamp]) (by simp [stamp]))

/-- Generations and revisions are only counted up. -/
theorem Sound.stamp_le (h : s.Sound) (actions : List Action) :
    s.stamp ≤ (s.performAll actions).stamp := by
  refine Prod.mk_le_mk.2 ⟨(h.extends_performAll actions).generation_le, ?_⟩
  induction actions generalizing s with
  | nil => exact Nat.le_refl _
  | cons action rest ih =>
      exact Nat.le_trans (h.kept.change_perform action).revision_le (ih (h.perform action))

/-- An action that changes the stamp during a run that ends on its own overtakes it. -/
theorem Sound.overtakes_of_stamp_ne (h : s.Sound) {rest : List Action}
    (hk : k < s.orchestrator.tasks.length)
    (hending : (s.performAll (action :: rest)).orchestrator.ending? k = some (.finished run))
    (hne : (s.perform action).stamp ≠ s.stamp) : s.Overtakes action k := by
  refine ⟨hne, ?_⟩
  have htask := List.getElem?_eq_getElem hk
  cases hdone : s.orchestrator.tasks[k].isDone with
  | true =>
      refine .inl ?_
      rw [Orchestrator.ending?, htask, Option.bind_some, Task.isSome_ending?, hdone]
  | false =>
      rcases h.stamp_of_pending htask hdone (h.kept.change_perform action) with
        hsame | hcancelled | hunreported
      · exact absurd hsame hne
      · have hstays := ((h.perform action).extends_performAll rest).ending?_eq hcancelled
        rw [performAll_cons, hstays] at hending
        cases hending
      · exact .inr hunreported

/-- A run that has ended on its own is up to date exactly if nothing has overtaken it. -/
theorem Sound.stamp_eq_iff (h : s.Sound) {since : List Action}
    (hk : k < s.orchestrator.tasks.length)
    (hending : (s.performAll since).orchestrator.ending? k = some (.finished run)) :
    (s.performAll since).stamp = s.stamp ↔
      ∀ first action rest, since = first ++ action :: rest →
        ¬ (s.performAll first).Overtakes action k := by
  induction since generalizing s with
  | nil =>
      refine ⟨fun _ first action rest hcut => ?_, fun _ => rfl⟩
      simp at hcut
  | cons action rest ih =>
      have hlength : k < (s.perform action).orchestrator.tasks.length := by
        have hgrows := (h.kept.change_perform action).length_tasks
        omega
      have hrest := ih (h.perform action) hlength hending
      constructor
      · intro hsame
        -- neither count goes down, so this action has changed none
        have hstep : (s.perform action).stamp = s.stamp :=
          le_antisymm (hsame ▸ (h.perform action).stamp_le rest) (h.stamp_le [action])
        intro first other later hcut hovertakes
        cases first with
        | nil =>
            obtain ⟨rfl, -⟩ := List.cons.inj hcut
            exact hovertakes.1 hstep
        | cons head first =>
            rw [List.cons_append] at hcut
            obtain ⟨rfl, hrestcut⟩ := List.cons.inj hcut
            exact hrest.1 (hsame.trans hstep.symm) first other later hrestcut hovertakes
      · intro hnone
        have hstep : (s.perform action).stamp = s.stamp := by
          by_contra hne
          exact hnone [] action rest rfl (h.overtakes_of_stamp_ne hk hending hne)
        refine (hrest.2 fun first other later hcut => ?_).trans hstep
        exact hnone (action :: first) other later (by rw [hcut]; rfl)

/-- A task that is started takes the generation that the action takes. -/
theorem Sound.generation_of_new (h : s.Sound) (hchange : s.Change action next) {task : Task}
    (hnone : s.orchestrator.tasks[k]? = none)
    (htask : next.orchestrator.tasks[k]? = some task) :
    task.generation = next.orchestrator.generation := by
  obtain ⟨inner, -, hinner⟩ := hchange.orchestrator
  have hlt := Orchestrator.generation_lt_of_new hinner hnone htask
  have hle := (h.change hchange).coherent.task_le k task htask
  have htakes := Orchestrator.generation_of_change hinner
  split at htakes <;> omega

/-- The task that is started takes the generation of the session. -/
theorem Sound.generation_of_starts (h : s.Sound) (hstarts : s.Starts action k) :
    ∃ task, (s.perform action).orchestrator.tasks[k]? = some task ∧
      task.generation = (s.perform action).orchestrator.generation := by
  obtain ⟨hbefore, hafter⟩ := hstarts
  have hnone : s.orchestrator.tasks[k]? = none :=
    List.getElem?_eq_none_iff.2 (Nat.le_of_eq hbefore)
  have hk : k < (s.perform action).orchestrator.tasks.length := by omega
  have htask := List.getElem?_eq_getElem hk
  exact ⟨_, htask, h.generation_of_new (h.kept.change_perform action) hnone htask⟩

/-- The run that a task has ended with has the generation in which the task was started. -/
theorem Sound.generation_of_ending? (h : s.Sound) {actions : List Action} {task : Task}
    (htask : s.orchestrator.tasks[k]? = some task)
    (hending : (s.performAll actions).orchestrator.ending? k = some (.finished run)) :
    run.generation = task.generation := by
  obtain ⟨ended, hended, hfinished⟩ := Option.bind_eq_some_iff.1 hending
  obtain ⟨later, hlater, hgeneration, -⟩ := (h.extends_performAll actions).tasks k task htask
  obtain rfl : ended = later := Option.some.inj (hended.symm.trans hlater)
  exact ((h.performAll actions).recorded k ended run hended hfinished).1.trans hgeneration

/-! ## The main theorem -/

/-- Which runs a session marks nodes for after some actions. -/
structure MarksExactly (new : Session) (actions : List Action) : Prop where
  /-- A run that a node would be marked for now is of the current generation, and the graph has the
  revision at which the run was started, exactly if nothing has overtaken the run since. -/
  upToDate : ∀ k run, (new.performAll actions).Writes k run →
    ∃ before starter since, actions = before ++ starter :: since ∧
      (new.performAll before).Starts starter k ∧
        let started := (new.performAll before).perform starter
        run.generation = started.orchestrator.generation ∧
          ((new.performAll actions).stamp = started.stamp ↔
            ∀ first action rest, since = first ++ action :: rest →
              ¬ (started.performAll first).Overtakes action k)
  /-- The node is marked as soon as the session takes note of the end of the task. -/
  marked : ∀ k run, (new.performAll actions).Writes k run → ∃ failure id,
    run.failure = some failure ∧ run.failedNodeId? = some id ∧
      ((new.performAll actions).perform (.resume k)).editor.graph.errorAt id = .text failure.text
  /-- As long as this is done for runs of the current generation only, no node carries the error of
  another run than the latest. -/
  latest : new.MarksCurrent actions → (new.performAll actions).FlagsLatest

/-- Whatever happens to a session, in whatever order, the run that a node is marked for is up to
date, unless the run had ended before the graph was changed or another run was started, or the graph
had no report any more. -/
theorem marks_exact {collection : String} {pageSize : Int} {timeout : Double} {source : Source}
    {o : Orchestrator} (hnew : Orchestrator.create collection pageSize timeout source = .ok o)
    {editor : Editor} (hclean : ∀ id, editor.graph.errorAt id = .null) (actions : List Action) :
    MarksExactly (create editor o) actions := by
  have hcreated := sound_create editor hnew
  have hempty : (create editor o).orchestrator.tasks.length = 0 := by
    obtain rfl := Orchestrator.create_eq_ok hnew
    rfl
  constructor
  case upToDate =>
    rintro k run ⟨hk, hending, -⟩
    obtain ⟨task, htask⟩ := (hcreated.performAll actions).exists_task k hk
    obtain ⟨hlt, -⟩ := List.getElem?_eq_some_iff.1 htask
    obtain ⟨before, starter, since, rfl, hstarts⟩ :=
      hcreated.exists_starts (by rw [hempty]; exact Nat.zero_le k) hlt
    have hbefore := hcreated.performAll before
    have hstarted := hbefore.perform starter
    obtain ⟨first, hfirst, hgeneration⟩ := hbefore.generation_of_starts hstarts
    rw [performAll_append, performAll_cons] at hending ⊢
    refine ⟨before, starter, since, rfl, hstarts, ?_, ?_⟩
    · exact (hstarted.generation_of_ending? hfirst hending).trans hgeneration
    · exact hstarted.stamp_eq_iff (List.getElem?_eq_some_iff.1 hfirst).1 hending
  case marked =>
    rintro k run ⟨hk, hending, failure, id, hfailure, htarget⟩
    refine ⟨failure, id, hfailure, ?_, ?_⟩
    · rw [Run.failedNodeId?, hfailure, Option.bind_some, nodeId?_of_target? htarget]
    · show (((create editor o).performAll actions).resume k).editor.graph.errorAt id = _
      rw [resume_of_failed hk hending hfailure, errorAt_mark]
      exact if_pos htarget
  case latest =>
    have hflags : (create editor o).FlagsLatest := fun id hid => absurd (hclean id) hid
    exact hflags.performAll hcreated actions

/-! ## Runs that are out of date -/

/-- The run of the limit of five when it has been refused. -/
def refusedFive : Run :=
  ⟨1, [⟨0, "limit", [], none, some "boom", 1, false⟩], some (.execution "limit" "boom")⟩

/-- A preview that is started after a run has failed overtakes it, if the session has not taken note
of its end yet. -/
def overtakingPreview : List Action :=
  [.step 0, .conclude 0 (.failed (.refused "boom")), .preview 1]

/-- An overlong limit overtakes the run of the old one, which goes on and fails. -/
def overtakingDigits (digits : List Char) : List Action :=
  [.step 0, .edit (putDigits digits), .conclude 0 (.failed (.refused "boom"))]

theorem writes_overtakingPreview :
    (previewingFive.performAll overtakingPreview).Writes 0 refusedFive :=
  ⟨by decide, rfl, _, "limit", rfl, rfl⟩

theorem writes_overtakingDigits {digits : List Char}
    (hdigits : ∀ c ∈ digits, Text.isAsciiDigit c = true) (hlong : Text.maxDigits < digits.length) :
    let s := previewingFive.performAll (overtakingDigits digits)
    s.Writes 0 refusedFive ∧ s.editor.revision = 1 := by
  let reading := previewingFive.perform (.step 0)
  have hreading : reading.InStep := (reachable_previewingFive.perform (.step 0)).inStep
  have hedit : reading.editor.apply (putDigits digits) = .ok _ := rfl
  obtain ⟨page, hperform⟩ := hreading.perform_edit_of_unreported hedit
    (compile_onlyLimit_of_overlong hdigits hlong)
  have hall : previewingFive.performAll (overtakingDigits digits) =
      (reading.perform (.edit (putDigits digits))).perform
        (.conclude 0 (.failed (.refused "boom"))) := rfl
  simp only [hall, hperform]
  exact ⟨⟨List.mem_singleton_self 0, rfl, _, "limit", rfl, rfl⟩, rfl⟩

theorem errorAt_onlyLimit (amount : Value) (id : String) :
    (onlyLimit amount).errorAt id = .null := by
  simp only [Graph.errorAt, onlyLimit, OrderedMap.get?_insert]
  split <;> rfl

/-- A run that was refused is up to date as long as nothing overtakes it, and the preview that is
started before its end is taken note of does overtake it. -/
theorem marks_exact_of_overtakingPreview :
    Orchestrator.create "orders" 20 (.infinite false) .none = .ok newOrchestrator ∧
      (∀ id, (onlyLimit (.int 5)).errorAt id = .null) ∧
        MarksExactly newFive (.preview 1 :: overtakingPreview) ∧
          (newFive.performAll (.preview 1 :: overtakingPreview)).Writes 0 refusedFive := by
  have hclean : ∀ id, (onlyLimit (.int 5)).errorAt id = .null := errorAt_onlyLimit _
  refine ⟨create_newOrchestrator, hclean, marks_exact create_newOrchestrator hclean _, ?_⟩
  rw [performAll_cons, perform_preview_newFive]
  exact writes_overtakingPreview

/-- Nodes are marked for runs that are out of date: for one of an older generation, where a preview
is started between the end of the run and the note that the session takes of it, and for one of an
older revision, where the graph is left without a report while the run is in flight. -/
theorem marks_stale :
    (¬ ∀ s : Session, s.Reachable → ∀ k run, s.Writes k run →
      run.generation = s.orchestrator.generation) ∧
    ¬ ∀ actions : List Action, ∀ k run, (previewingFive.performAll actions).Writes k run →
      run.generation = previewingFive.orchestrator.generation →
        (previewingFive.performAll actions).editor.revision = previewingFive.editor.revision := by
  constructor
  · intro hall
    have hgeneration := hall _ (reachable_previewingFive.performAll overtakingPreview) 0 refusedFive
      writes_overtakingPreview
    exact absurd hgeneration (by decide)
  · intro hall
    obtain ⟨digits, hlength, hdigits⟩ := exists_overlong
    obtain ⟨hwrites, hrevision⟩ := writes_overtakingDigits hdigits (by rw [hlength]; decide)
    have hsame := hall _ 0 refusedFive hwrites rfl
    exact absurd (hrevision.symm.trans hsame) (by decide)

end StageChain.Session
