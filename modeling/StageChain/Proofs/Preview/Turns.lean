import StageChain.Proofs.Preview.Currency

/-!
# Turns of the loop

A step of a session begins the reads of a prefix at once. Closer to the loop there are two turns to
it: a run makes the two tasks that will read, and these begin when their turn comes. A `SessionLoop`
is a session with the reads that have been made and have not begun. Anything can happen to the
session in between. Where a run is overtaken before its reads are made, none of them begins. Where
they have been made, it depends on the loop: their cancellation comes in time and they are dropped,
or it only comes after them and they begin. Turns come in order, so no other reads are made before.

A schedule of a session is one of the loop in which the two turns of each prefix follow one another:
`reachable_of_session`. The main theorem is `runs_present_graph`.
-/

namespace StageChain

/-- Whether reads of the next prefix are what a task has before it. -/
def Task.isAboutToRead (task : Task) : Bool :=
  match task.phase with
  | .ready => task.results.length < task.pipeline.size
  | _ => false

/-- Whether the task at an index is about to read. -/
def Orchestrator.isAboutToRead (o : Orchestrator) (k : Nat) : Bool :=
  o.tasks[k]?.any Task.isAboutToRead

/-- The two reads that a task has before it begin, though the task does not wait for them. -/
def Session.beginOvertaken (s : Session) (k : Nat) : Session :=
  match s.orchestrator.tasks[k]? with
  | none => s
  | some task =>
    { s with orchestrator := { s.orchestrator with
        log := s.orchestrator.log ++
          s.orchestrator.readsAt task.pipeline task.page (task.results.length + 1) } }

/-- Reads that have been made and have not begun: the task that they are for, and the graph at the
time. -/
structure MadeReads where
  task : Nat
  graph : Graph

/-- A session with the reads that have been made. -/
structure SessionLoop where
  session : Session
  made : Option MadeReads

namespace SessionLoop

/-- What can happen in the loop of a session. -/
inductive Event where
  /-- An action of the session in which no reads begin. -/
  | act (action : Session.Action)
  /-- A task makes the reads of its next prefix. -/
  | makes (task : Nat)
  /-- The reads that have been made begin. -/
  | begins
  /-- The reads that have been made are dropped before they begin, as their task is overtaken. -/
  | drops

/-- The reads that have been made begin, whether their task waits for them or has been
overtaken. -/
def beginMade (l : SessionLoop) (made : MadeReads) : SessionLoop where
  session :=
    if l.session.orchestrator.isAboutToRead made.task then l.session.perform (.step made.task)
    else l.session.beginOvertaken made.task
  made := none

/-- The loop after an event; what is not possible leaves it as it is. -/
def perform (l : SessionLoop) : Event → SessionLoop
  | .act action =>
    if action.task?.any l.session.orchestrator.isAboutToRead then l
    else { l with session := l.session.perform action }
  | .makes k =>
    if l.made.isNone && l.session.orchestrator.isAboutToRead k then
      { l with made := some ⟨k, l.session.editor.graph⟩ }
    else l
  | .begins =>
    match l.made with
    | some made => l.beginMade made
    | none => l
  | .drops =>
    match l.made with
    | some made =>
      if l.session.orchestrator.isAboutToRead made.task then l else { l with made := none }
    | none => l

/-- The loop after events. -/
def performAll (l : SessionLoop) (events : List Event) : SessionLoop := events.foldl perform l

theorem performAll_append (l : SessionLoop) (first second : List Event) :
    l.performAll (first ++ second) = (l.performAll first).performAll second := List.foldl_append

/-- The states that the loop of a session of any editor can come to from its creation. -/
def Reachable (l : SessionLoop) : Prop :=
  ∃ editor collection pageSize timeout source orchestrator events,
    Orchestrator.create collection pageSize timeout source = .ok orchestrator ∧
      l = performAll ⟨.create editor orchestrator, none⟩ events

variable {l next : SessionLoop} {s later : Session} {k : Nat} {task : Task} {made : MadeReads}
  {event : Event}

theorem Reachable.performAll (h : l.Reachable) (events : List Event) :
    (l.performAll events).Reachable := by
  obtain ⟨editor, collection, pageSize, timeout, source, o, before, hnew, rfl⟩ := h
  exact ⟨editor, collection, pageSize, timeout, source, o, before ++ events, hnew,
    (performAll_append _ before events).symm⟩

theorem Reachable.perform (h : l.Reachable) (event : Event) : (l.perform event).Reachable :=
  h.performAll [event]

theorem isAboutToRead_iff (htask : s.orchestrator.tasks[k]? = some task) :
    s.orchestrator.isAboutToRead k = true ↔
      task.phase = .ready ∧ task.results.length < task.pipeline.size := by
  rw [Orchestrator.isAboutToRead, htask, Option.any_some, Task.isAboutToRead]
  cases task.phase <;> simp

theorem exists_aboutToRead (h : s.orchestrator.isAboutToRead k = true) :
    ∃ task, s.orchestrator.tasks[k]? = some task ∧ task.phase = .ready ∧
      task.results.length < task.pipeline.size := by
  cases htask : s.orchestrator.tasks[k]? with
  | none =>
      rw [Orchestrator.isAboutToRead, htask] at h
      cases h
  | some task => exact ⟨task, rfl, (isAboutToRead_iff htask).1 h⟩

/-! ## Schedules of a session -/

/-- When a task makes its reads and these begin at once, that is a step of the session. -/
theorem performAll_makes_begins (h : s.orchestrator.isAboutToRead k = true) :
    performAll ⟨s, none⟩ [.makes k, .begins] = ⟨s.perform (.step k), none⟩ := by
  simp [performAll, perform, beginMade, h]

/-- Reads that have not begun do not end. -/
theorem perform_conclude_of_aboutToRead (h : s.orchestrator.isAboutToRead k = true)
    (conclusion : Conclusion) : s.perform (.conclude k conclusion) = s := by
  obtain ⟨task, htask, hphase, -⟩ := exists_aboutToRead h
  have hsame : s.orchestrator.concludeReads k conclusion = s.orchestrator := by
    simp only [Orchestrator.concludeReads, htask, hphase]
  rw [Session.perform, hsame, Session.observe_self]

/-- Every action of a session comes about by events. -/
theorem exists_events (s : Session) (action : Session.Action) :
    ∃ events, performAll ⟨s, none⟩ events = ⟨s.perform action, none⟩ := by
  by_cases habout : action.task?.any s.orchestrator.isAboutToRead = true
  · cases action with
    | step k => exact ⟨[.makes k, .begins], performAll_makes_begins habout⟩
    | conclude k conclusion =>
        exact ⟨[], by rw [perform_conclude_of_aboutToRead habout]; rfl⟩
    | preview | edit | report | release | script | resume => cases habout
  · exact ⟨[.act action], by simp [performAll, perform, habout]⟩

/-- Every state of a session is one of its loop. -/
theorem reachable_of_session (h : s.Reachable) : Reachable ⟨s, none⟩ := by
  obtain ⟨editor, collection, pageSize, timeout, source, o, actions, hnew, rfl⟩ := h
  have hall : ∀ (actions : List Session.Action) (s : Session),
      ∃ events, performAll ⟨s, none⟩ events = ⟨s.performAll actions, none⟩ := by
    intro actions
    induction actions with
    | nil => exact fun s => ⟨[], rfl⟩
    | cons action rest ih =>
        intro s
        obtain ⟨first, hfirst⟩ := exists_events s action
        obtain ⟨second, hsecond⟩ := ih (s.perform action)
        exact ⟨first ++ second, by rw [performAll_append, hfirst, hsecond]; rfl⟩
  obtain ⟨events, hevents⟩ := hall actions (.create editor o)
  exact ⟨editor, collection, pageSize, timeout, source, o, events, hnew, hevents.symm⟩

/-! ## What an event does -/

/-- What events do. -/
inductive Turn (l : SessionLoop) : Event → SessionLoop → Prop where
  | idle (event : Event) : Turn l event l
  | acted (action : Session.Action)
      (hquiet : ∀ k, action.task? = some k → l.session.orchestrator.isAboutToRead k = false) :
      Turn l (.act action) ⟨l.session.perform action, l.made⟩
  | made (k : Nat) (task : Task) (htask : l.session.orchestrator.tasks[k]? = some task)
      (hphase : task.phase = .ready) (hmore : task.results.length < task.pipeline.size) :
      Turn l (.makes k) ⟨l.session, some ⟨k, l.session.editor.graph⟩⟩
  /-- The task of the reads waits for them. -/
  | began (made : MadeReads) (hmade : l.made = some made)
      (habout : l.session.orchestrator.isAboutToRead made.task = true) :
      Turn l .begins ⟨l.session.perform (.step made.task), none⟩
  /-- The task of the reads has been overtaken. -/
  | overtaken (made : MadeReads) (hmade : l.made = some made)
      (habout : l.session.orchestrator.isAboutToRead made.task = false) :
      Turn l .begins ⟨l.session.beginOvertaken made.task, none⟩
  | dropped : Turn l .drops ⟨l.session, none⟩

theorem turn_perform (l : SessionLoop) (event : Event) : l.Turn event (l.perform event) := by
  cases event with
  | act action =>
      simp only [perform]
      split
      · exact .idle _
      · rename_i hnone
        refine .acted action fun k hk => Bool.eq_false_iff.2 fun habout => hnone ?_
        rw [hk, Option.any_some, habout]
  | makes k =>
      simp only [perform]
      split
      · rename_i hmakes
        obtain ⟨task, htask, hphase, hmore⟩ := exists_aboutToRead (Bool.and_eq_true_iff.1 hmakes).2
        exact .made k task htask hphase hmore
      · exact .idle _
  | begins =>
      simp only [perform]
      split
      · rename_i made hmade
        cases habout : l.session.orchestrator.isAboutToRead made.task with
        | true =>
            simp only [beginMade, habout, if_true]
            exact .began made hmade habout
        | false =>
            simp only [beginMade, habout, Bool.false_eq_true, if_false]
            exact .overtaken made hmade habout
      · exact .idle _
  | drops =>
      simp only [perform]
      split
      · split
        · exact .idle _
        · exact .dropped
      · exact .idle _

/-! ## The invariant -/

/-- A task has not gone on, but it may be over. -/
structure Waits (task later : Task) : Prop where
  pipeline_eq : later.pipeline = task.pipeline
  page_eq : later.page = task.page
  results_eq : later.results = task.results
  ready : later.isDone = false → later.phase = .ready

theorem waits_cancel (task : Task) : Waits task task.cancel := by
  have hsame : task.cancel.pipeline = task.pipeline ∧ task.cancel.page = task.page ∧
      task.cancel.results = task.results := by
    unfold Task.cancel
    split <;> exact ⟨rfl, rfl, rfl⟩
  refine ⟨hsame.1, hsame.2.1, hsame.2.2, fun hopen => ?_⟩
  rw [Task.isDone_cancel] at hopen
  cases hopen

theorem exists_waits_cancel {o : Orchestrator} (htask : o.tasks[k]? = some task)
    (hready : task.isDone = false → task.phase = .ready) :
    ∃ later, o.cancel.tasks[k]? = some later ∧ Waits task later := by
  rw [Orchestrator.getElem?_tasks_cancel, htask]
  refine ⟨_, rfl, ?_⟩
  split
  · exact waits_cancel task
  · exact ⟨rfl, rfl, rfl, hready⟩

/-- A run that is started leaves the tasks as they are once they are cancelled. -/
theorem getElem?_tasks_start {o : Orchestrator} {page : Int} (hpage : 1 ≤ page)
    (htask : o.cancel.tasks[k]? = some task) (pipeline : Pipeline) :
    (o.perform (.start pipeline page)).tasks[k]? = some task := by
  rw [Orchestrator.perform_start _ _ hpage]
  exact List.getElem?_append_left (List.getElem?_eq_some_iff.1 htask).1 ▸ htask

/-- A task that is about to read goes on only when it begins to. -/
theorem exists_waits_change {action : Session.Action} (hchange : s.Change action later)
    (hquiet : ∀ k, action.task? = some k → s.orchestrator.isAboutToRead k = false)
    (htask : s.orchestrator.tasks[k]? = some task)
    (hready : task.isDone = false → task.phase = .ready)
    (hmore : task.results.length < task.pipeline.size) :
    ∃ next, later.orchestrator.tasks[k]? = some next ∧ Waits task next := by
  cases hchange with
  | unchanged | reported | edited | missed | noted =>
      exact ⟨task, htask, rfl, rfl, rfl, hready⟩
  | marked => exact ⟨task, by rwa [Session.orchestrator_mark], rfl, rfl, rfl, hready⟩
  | refused action editor page report failure =>
      rw [Session.orchestrator_refusing, Orchestrator.perform_reject]
      exact exists_waits_cancel htask hready
  | started action editor page report pipeline hasks =>
      obtain ⟨cancelled, hcancelled, hwaits⟩ := exists_waits_cancel htask hready
      exact ⟨cancelled, getElem?_tasks_start hasks.one_le hcancelled pipeline, hwaits⟩
  | moved action j moved conclusion? next haction hmoved hmove =>
      by_cases hj : j = k
      · subst hj
        obtain rfl := Option.some.inj (htask.symm.trans hmoved)
        have hphase := hready hmove.isDone_eq_false
        have hput := Orchestrator.getElem?_setTask_self htask
        cases hmove with
        | began =>
            have habout := (isAboutToRead_iff htask).2 ⟨hphase, hmore⟩
            rw [hquiet j haction] at habout
            cases habout
        | dropped => exact ⟨_, hput _, rfl, rfl, rfl, (by cases ·)⟩
        | told _ _ _ hreading | finished _ _ _ _ hreading => cases hphase.symm.trans hreading
        | completed _ _ hall => exact absurd hmore (Nat.not_lt.2 hall)
      · obtain ⟨put, htasks, -⟩ := hmove.tasks_eq
        refine ⟨task, ?_, rfl, rfl, rfl, hready⟩
        show next.tasks[k]? = some task
        rw [htasks, List.getElem?_set, if_neg hj]
        exact htask

/-- What holds of a task whose reads have been made, and of the graph at the time. -/
structure MadeFor (graph : Graph) (task : Task) : Prop where
  more : task.results.length < task.pipeline.size
  ready : task.isDone = false → task.phase = .ready
  result_eq : ∀ report, graph.compile = .ok report → report.result = .ok task.pipeline

theorem MadeFor.waits {graph : Graph} {next : Task} (h : MadeFor graph task)
    (hwaits : Waits task next) : MadeFor graph next where
  more := by
    rw [hwaits.results_eq, hwaits.pipeline_eq]
    exact h.more
  ready := hwaits.ready
  result_eq := by
    rw [hwaits.pipeline_eq]
    exact h.result_eq

/-- The session is in step, and reads that have been made are of the graph as it was then. -/
structure InTurn (l : SessionLoop) : Prop where
  inStep : l.session.InStep
  made : ∀ made, l.made = some made →
    ∃ task, l.session.orchestrator.tasks[made.task]? = some task ∧ MadeFor made.graph task

theorem inTurn_create {collection : String} {pageSize : Int} {timeout : Double} {source : Source}
    {orchestrator : Orchestrator} (editor : Editor)
    (h : Orchestrator.create collection pageSize timeout source = .ok orchestrator) :
    InTurn ⟨.create editor orchestrator, none⟩ :=
  ⟨Session.inStep_create editor h, nofun⟩

/-- Reads that nobody waits for change nothing but the log. -/
theorem inStep_beginOvertaken (h : s.InStep) (k : Nat) : (s.beginOvertaken k).InStep := by
  unfold Session.beginOvertaken
  cases s.orchestrator.tasks[k]? with
  | none => exact h
  | some task =>
      exact ⟨h.coherent.congr rfl rfl rfl rfl rfl, ⟨h.kept.revision_le, h.kept.compile_eq⟩,
        h.result_eq⟩

theorem InTurn.turn (h : l.InTurn) (hturn : l.Turn event next) : next.InTurn := by
  cases hturn with
  | idle => exact h
  | acted action hquiet =>
      refine ⟨h.inStep.perform action, fun made hmade => ?_⟩
      obtain ⟨task, htask, hfor⟩ := h.made made hmade
      obtain ⟨next, hnext, hwaits⟩ := exists_waits_change (h.inStep.kept.change_perform action)
        hquiet htask hfor.ready hfor.more
      exact ⟨next, hnext, hfor.waits hwaits⟩
  | made k task htask hphase hmore =>
      refine ⟨h.inStep, fun made hmade => ?_⟩
      cases hmade
      have hopen : task.isDone = false := by rw [Task.isDone, hphase]
      exact ⟨task, htask, hmore, fun _ => hphase, h.inStep.result_eq k task htask hopen⟩
  | began made =>
      refine ⟨h.inStep.perform (.step made.task), fun _ hmade => ?_⟩
      cases hmade
  | overtaken made =>
      refine ⟨inStep_beginOvertaken h.inStep made.task, fun _ hmade => ?_⟩
      cases hmade
  | dropped =>
      refine ⟨h.inStep, fun _ hmade => ?_⟩
      cases hmade

theorem InTurn.performAll (h : l.InTurn) (events : List Event) : (l.performAll events).InTurn := by
  induction events generalizing l with
  | nil => exact h
  | cons event rest ih => exact ih (h.turn (l.turn_perform event))

/-- The invariant holds of every state that can be reached. -/
theorem Reachable.inTurn (h : l.Reachable) : l.InTurn := by
  obtain ⟨editor, _, _, _, _, o, events, hnew, rfl⟩ := h
  exact (inTurn_create editor hnew).performAll events

/-! ## Reads -/

/-- The reads that begin in an event. -/
def begun (l : SessionLoop) (event : Event) : List Read :=
  (l.perform event).session.orchestrator.log.drop l.session.orchestrator.log.length

/-- Reads have been made for a run that is over by now. -/
def IsOvertaken (l : SessionLoop) : Prop :=
  ∃ made task, l.made = some made ∧ l.session.orchestrator.tasks[made.task]? = some task ∧
    task.isDone = true

/-- The session once reads have begun and nothing else has happened. -/
def logged (s : Session) (reads : List Read) : Session :=
  { s with orchestrator := { s.orchestrator with log := s.orchestrator.log ++ reads } }

theorem begun_of_log_append {reads : List Read}
    (h : (l.perform event).session.orchestrator.log = l.session.orchestrator.log ++ reads) :
    l.begun event = reads := by
  rw [begun, h, List.drop_left]

theorem begun_of_log_eq
    (h : (l.perform event).session.orchestrator.log = l.session.orchestrator.log) :
    l.begun event = [] := by
  rw [begun, h, List.drop_length]

/-- No reads begin in an action that lets no task go on to read. -/
theorem log_of_quiet {action : Session.Action} (h : s.Change action later)
    (hquiet : ∀ k, action.task? = some k → s.orchestrator.isAboutToRead k = false) :
    later.orchestrator.log = s.orchestrator.log := by
  cases h with
  | unchanged | reported | edited | missed | noted => rfl
  | refused action editor page report failure =>
      rw [Session.orchestrator_refusing]
      exact s.orchestrator.log_reject failure
  | started action editor page report pipeline => exact s.orchestrator.log_start pipeline page
  | marked => rw [Session.orchestrator_mark]
  | moved action k task conclusion? next haction htask hmove =>
      cases hmove with
      | began hphase hmore =>
          have habout := (isAboutToRead_iff htask).2 ⟨hphase, hmore⟩
          rw [hquiet k haction] at habout
          cases habout
      | dropped | told | finished | completed => rfl

/-- Reads begin when their turn comes only. -/
theorem InTurn.log_eq (h : l.InTurn) (hevent : event ≠ .begins) :
    (l.perform event).session.orchestrator.log = l.session.orchestrator.log := by
  have hturn := l.turn_perform event
  generalize l.perform event = next at hturn
  cases hturn with
  | idle | made | dropped => rfl
  | acted action hquiet => exact log_of_quiet (h.inStep.kept.change_perform action) hquiet
  | began | overtaken => exact absurd rfl hevent

/-- The reads that have been made begin: they are those that their task has before it, and the graph
is not touched. -/
structure Begins (l : SessionLoop) (made : MadeReads) (task : Task) : Prop where
  getElem?_eq : l.session.orchestrator.tasks[made.task]? = some task
  madeFor : MadeFor made.graph task
  editor_eq : (l.perform .begins).session.editor = l.session.editor
  begun_eq : l.begun .begins =
    l.session.orchestrator.readsAt task.pipeline task.page (task.results.length + 1)
  log_eq : (l.perform .begins).session.orchestrator.log =
    l.session.orchestrator.log ++ l.begun .begins
  /-- Where the task is over, nothing else happens. -/
  perform_eq : task.isDone = true → l.perform .begins = ⟨logged l.session (l.begun .begins), none⟩

theorem begins_of_pending (hmade : l.made = some made)
    (htask : l.session.orchestrator.tasks[made.task]? = some task)
    (hfor : MadeFor made.graph task) (hopen : task.isDone = false) : l.Begins made task := by
  have hphase := hfor.ready hopen
  have habout := (isAboutToRead_iff htask).2 ⟨hphase, hfor.more⟩
  have hstep : l.session.orchestrator.step? made.task =
      some (l.session.orchestrator.startReads made.task task) := by
    simp only [Orchestrator.step?, htask, hphase, if_pos hfor.more]
  have hbegins : (l.perform .begins).session =
      l.session.observe (l.session.orchestrator.startReads made.task task) := by
    simp only [perform, hmade, beginMade, habout, if_true, Session.perform, Session.step?, hstep,
      Option.map_some, Option.getD_some]
  have hlog : (l.perform .begins).session.orchestrator.log = l.session.orchestrator.log ++
      l.session.orchestrator.readsAt task.pipeline task.page (task.results.length + 1) := by
    rw [hbegins]
    rfl
  have hbegun := begun_of_log_append hlog
  refine ⟨htask, hfor, by rw [hbegins]; rfl, hbegun, hbegun ▸ hlog, fun hdone => ?_⟩
  cases hopen.symm.trans hdone

theorem begins_of_isDone (hmade : l.made = some made)
    (htask : l.session.orchestrator.tasks[made.task]? = some task)
    (hfor : MadeFor made.graph task) (hdone : task.isDone = true) : l.Begins made task := by
  have habout : l.session.orchestrator.isAboutToRead made.task = false := by
    refine Bool.eq_false_iff.2 fun habout => ?_
    obtain ⟨hphase, -⟩ := (isAboutToRead_iff htask).1 habout
    rw [Task.isDone, hphase] at hdone
    cases hdone
  have hbegins : l.perform .begins = ⟨logged l.session
      (l.session.orchestrator.readsAt task.pipeline task.page (task.results.length + 1)), none⟩ := by
    simp only [perform, hmade, beginMade, habout, Session.beginOvertaken, htask, Bool.false_eq_true,
      if_false]
    rfl
  have hlog : (l.perform .begins).session.orchestrator.log = l.session.orchestrator.log ++
      l.session.orchestrator.readsAt task.pipeline task.page (task.results.length + 1) := by
    rw [hbegins]
    rfl
  have hbegun := begun_of_log_append hlog
  exact ⟨htask, hfor, by rw [hbegins]; rfl, hbegun, hbegun ▸ hlog, fun _ => hbegun ▸ hbegins⟩

theorem Begins.isDone_eq_false (h : l.Begins made task) (hmade : l.made = some made)
    (hovertaken : ¬ l.IsOvertaken) : task.isDone = false :=
  Bool.eq_false_iff.2 fun hdone => hovertaken ⟨made, task, hmade, h.getElem?_eq, hdone⟩

theorem InTurn.begins (h : l.InTurn) (hmade : l.made = some made) : ∃ task, l.Begins made task := by
  obtain ⟨task, htask, hfor⟩ := h.made made hmade
  cases hdone : task.isDone with
  | false => exact ⟨task, begins_of_pending hmade htask hfor hdone⟩
  | true => exact ⟨task, begins_of_isDone hmade htask hfor hdone⟩

/-- While no reads have been made, none begin. -/
theorem begun_of_none (hmade : l.made = none) : l.begun .begins = [] :=
  begun_of_log_eq (by simp only [perform, hmade])

/-! ## Reads of an earlier graph -/

theorem readsAt_cancel (o : Orchestrator) (pipeline : Pipeline) (page : Int) (length : Nat) :
    o.cancel.readsAt pipeline page length = o.readsAt pipeline page length := by
  unfold Orchestrator.cancel
  split <;> rfl

/-- A preview that is started or refused cancels what is pending, and what is compiled is kept. -/
theorem perform_of_asks {action : Session.Action} {editor : Editor} {page : Int}
    {report : Report} (h : s.Kept) (hasks : s.Asks action editor page)
    (hcompile : editor.graph.compile = .ok report)
    (htask : s.orchestrator.cancel.tasks[k]? = some task) :
    (s.perform action).orchestrator.tasks[k]? = some task ∧
      (s.perform action).orchestrator.readsAt = s.orchestrator.readsAt ∧
        (s.perform action).editor.graph.compile = .ok report := by
  have hkept := hasks.kept h
  let given : Session := { s with editor := editor }
  rw [hasks.perform_eq]
  cases hresult : report.result with
  | error failure =>
      rw [hkept.startPreview_of_refused hasks.one_le hcompile hresult,
        Session.orchestrator_refusing, Orchestrator.perform_reject]
      have hretains : given.Retains (given.refusing page report failure) :=
        Session.retains_refusing hcompile
      exact ⟨htask, funext₃ (readsAt_cancel s.orchestrator),
        hretains.sameStages.compile_eq.trans hcompile⟩
  | ok pipeline =>
      rw [hkept.startPreview_of_started hasks.one_le hcompile hresult]
      have hretains : given.Retains (given.starting page report pipeline) :=
        Session.retains_starting hcompile
      refine ⟨getElem?_tasks_start hasks.one_le htask pipeline, ?_,
        hretains.sameStages.compile_eq.trans hcompile⟩
      show (s.orchestrator.perform (.start pipeline page)).readsAt = _
      rw [Orchestrator.perform_start _ _ hasks.one_le]
      exact funext₃ (readsAt_cancel s.orchestrator)

/-- A preview that is started or refused overtakes the reads that have been made, and they begin as
they would have. -/
theorem InTurn.begun_of_asks {action : Session.Action} {editor : Editor} {page : Int}
    {report : Report} (h : l.InTurn) (hmade : l.made = some made)
    (hasks : l.session.Asks action editor page) (hcompile : editor.graph.compile = .ok report) :
    (l.perform (.act action)).IsOvertaken ∧
      (l.perform (.act action)).session.editor.graph.compile = .ok report ∧
        (l.perform (.act action)).begun .begins = l.begun .begins := by
  obtain ⟨task, hbegins⟩ := h.begins hmade
  obtain ⟨cancelled, hcancelled, hwaits⟩ :=
    exists_waits_cancel hbegins.getElem?_eq hbegins.madeFor.ready
  obtain ⟨hsame, hreadsAt, hkeeps⟩ := perform_of_asks h.inStep.kept hasks hcompile hcancelled
  have hperform : l.perform (.act action) = ⟨l.session.perform action, l.made⟩ := by
    have hnone : action.task? = none := by cases hasks <;> rfl
    simp [perform, hnone]
  have hinTurn := h.turn (l.turn_perform (.act action))
  rw [hperform] at hinTurn ⊢
  obtain ⟨later, hlater⟩ := hinTurn.begins hmade
  obtain rfl := Option.some.inj (hsame.symm.trans hlater.getElem?_eq)
  have hdone := h.inStep.coherent.idle_cancel made.task cancelled hcancelled
  refine ⟨⟨made, cancelled, hmade, hsame, hdone⟩, hkeeps, ?_⟩
  rw [hlater.begun_eq, hbegins.begun_eq, hreadsAt, hwaits.pipeline_eq, hwaits.page_eq, hwaits.results_eq]

/-- Where an edit leaves the graph without a report, a run that has prefixes left goes on to make
and begin reads of the graph as it was. -/
theorem begun_of_unreported (h : s.InStep) (htask : s.orchestrator.tasks[k]? = some task)
    (hphase : task.phase = .ready) (hmore : task.results.length < task.pipeline.size) {edit : Edit}
    {edited : Edited} {numeral : Text.OverlongNumeral} (hedit : s.editor.apply edit = .ok edited)
    (hnone : edited.editor.graph.compile = .error numeral) :
    let l := performAll ⟨s, none⟩ [.act (.edit edit), .makes k]
    ¬ l.session.IsReported ∧ ¬ l.IsOvertaken ∧
      l.begun .begins =
        s.orchestrator.readsAt task.pipeline task.page (task.results.length + 1) := by
  obtain ⟨page, hperform⟩ := h.perform_edit_of_unreported hedit hnone
  have habout := (isAboutToRead_iff htask).2 ⟨hphase, hmore⟩
  have hall : performAll ⟨s, none⟩ [.act (.edit edit), .makes k] =
      ⟨{ s with editor := edited.editor, page := page }, some ⟨k, edited.editor.graph⟩⟩ := by
    simp [performAll, perform, hperform, habout, Session.Action.task?]
  have hnew : InTurn ⟨s, none⟩ := ⟨h, nofun⟩
  have hinTurn := hnew.performAll [.act (.edit edit), .makes k]
  rw [hall] at hinTurn ⊢
  obtain ⟨same, hbegins⟩ := hinTurn.begins rfl
  obtain rfl := Option.some.inj (htask.symm.trans hbegins.getElem?_eq)
  refine ⟨?_, ?_, hbegins.begun_eq⟩
  · rintro ⟨report, hreport⟩
    cases hnone.symm.trans hreport
  · rintro ⟨made, later, hmade, hlater, hdone⟩
    cases hmade
    obtain rfl := Option.some.inj (htask.symm.trans hlater)
    rw [Task.isDone, hphase] at hdone
    cases hdone

/-! ### A limit that is edited -/

/-- The reads of a limit of five. -/
def readsOfFive : List Read :=
  [Source.pageRead "orders" [.object [("$limit", .int 5)]] 20 1,
    Source.countRead "orders" [.object [("$limit", .int 5)]]]

/-- Before a limit of five makes its reads, digits are put in its place. -/
def overlongFive (digits : List Char) : SessionLoop :=
  performAll ⟨.previewingFive, none⟩ [.act (.edit (Session.putDigits digits)), .makes 0]

/-- A limit of seven in place of the old one. -/
def putSeven : Edit := .updateConfig "limit" (.object [("limit", .int 7)])

/-- After a limit of five has made its reads, one of seven is put in its place. -/
def overtakenFive : SessionLoop :=
  performAll ⟨.previewingFive, none⟩ [.makes 0, .act (.edit putSeven)]

theorem reachable_previewingFive : Reachable ⟨.previewingFive, none⟩ :=
  reachable_of_session Session.reachable_previewingFive

theorem reachable_overlongFive (digits : List Char) : (overlongFive digits).Reachable :=
  reachable_previewingFive.performAll _

theorem reachable_overtakenFive : overtakenFive.Reachable := reachable_previewingFive.performAll _

theorem begun_overlongFive {digits : List Char}
    (hdigits : ∀ c ∈ digits, Text.isAsciiDigit c = true) (hlong : Text.maxDigits < digits.length) :
    ¬ (overlongFive digits).session.IsReported ∧ ¬ (overlongFive digits).IsOvertaken ∧
      (overlongFive digits).begun .begins = readsOfFive := by
  have htask : Session.previewingFive.orchestrator.tasks[0]? =
      some ⟨1, ⟨[⟨"limit", ⟨"$limit", .int 5⟩⟩], []⟩, 1, [], .ready⟩ := rfl
  have hedit : Session.previewingFive.editor.apply (Session.putDigits digits) = .ok _ := rfl
  exact begun_of_unreported Session.reachable_previewingFive.inStep htask rfl (by decide) hedit
    (Session.compile_onlyLimit_of_overlong hdigits hlong)

theorem begun_overtakenFive :
    overtakenFive.IsOvertaken ∧
      overtakenFive.session.editor.graph.compile =
        .ok ⟨["limit"], .ok ⟨[⟨"limit", ⟨"$limit", .int 7⟩⟩], []⟩⟩ ∧
      overtakenFive.begun .begins = readsOfFive := by
  have hmaking := (reachable_previewingFive.perform (.makes 0)).inTurn
  have hasks : Session.previewingFive.Asks (.edit putSeven) _ 1 :=
    .restart putSeven _ rfl rfl rfl
  exact hmaking.begun_of_asks rfl hasks
    (@Graph.compile_single_of_ok (Graph.limitNode (.int 7)) _ rfl)

/-- The reads of a limit of five are not of a graph with a limit of seven. -/
theorem not_isPresent_of_seven {read : Read} (hread : read ∈ readsOfFive) :
    ¬ overtakenFive.session.IsPresent read := by
  rintro ⟨report, pipeline, page, length, hreport, houtcome, hpos, hle, hmem⟩
  obtain ⟨-, hcompile, -⟩ := begun_overtakenFive
  cases hreport.symm.trans hcompile
  cases houtcome
  have hone : length = 1 := Nat.le_antisymm hle hpos
  subst hone
  have hfive : read.stages.head? = some (.object [("$limit", .int 5)]) := by
    rcases List.mem_pair.1 hread with rfl | rfl <;> rfl
  have hseven : read.stages.head? = some (.object [("$limit", .int 7)]) := by
    rcases List.mem_pair.1 hmem with rfl | rfl <;> rfl
  cases hfive.symm.trans hseven

/-! ## The main theorem -/

/-- What is run is what the graph compiles to, exactly when the graph has a report, as far as the
reads that begin have not been overtaken. -/
structure RunsPresentGraph (l : SessionLoop) : Prop where
  log : ∀ event, (l.perform event).session.orchestrator.log =
    l.session.orchestrator.log ++ l.begun event
  /-- Reads begin when their turn comes only, and the graph is the same before and after. -/
  editor : ∀ event, l.begun event ≠ [] →
    event = .begins ∧ (l.perform event).session.editor = l.session.editor
  reads : ¬ l.IsOvertaken → l.begun .begins ≠ [] →
    ((∀ read ∈ l.begun .begins, l.session.IsPresent read) ↔ l.session.IsReported)
  /-- No read begins while the graph is refused. -/
  refused : ¬ l.IsOvertaken → ∀ report failure, l.session.editor.graph.compile = .ok report →
    report.outcome = .error failure → l.begun .begins = []
  /-- Reads that have been overtaken are of the graph as it was when they were made, and if they
  begin nothing comes of them. -/
  overtaken : l.IsOvertaken → ∃ made, l.made = some made ∧
    l.perform .begins = ⟨logged l.session (l.begun .begins), none⟩ ∧
    ∀ report, made.graph.compile = .ok report → ∃ pipeline page length,
      report.outcome = .ok pipeline ∧ 0 < length ∧ length ≤ pipeline.size ∧
        l.begun .begins = l.session.orchestrator.readsAt pipeline page length
  /-- A run that is in flight has the pipeline of the graph. -/
  inFlight : ∀ (k : Nat) (task : Task), l.session.orchestrator.tasks[k]? = some task →
    task.isDone = false →
      (l.session.editor.graph.pipeline = .ok (.ok task.pipeline) ↔ l.session.IsReported)

/-- Whatever happens to a session, in whatever order, reads begin of prefixes of the pipeline of the
present graph only, and what is in flight has that pipeline, exactly as long as the graph has a
report. Only reads that had been made before their run was overtaken are of an earlier graph. -/
theorem runs_present_graph (h : l.Reachable) : RunsPresentGraph l := by
  have hinTurn := h.inTurn
  have hresult := hinTurn.inStep.result_eq
  constructor
  case log =>
    intro event
    by_cases hevent : event = .begins
    · subst hevent
      cases hmade : l.made with
      | none => simp only [begun_of_none hmade, List.append_nil, perform, hmade]
      | some made =>
          obtain ⟨task, hbegins⟩ := hinTurn.begins hmade
          exact hbegins.log_eq
    · rw [begun_of_log_eq (hinTurn.log_eq hevent), hinTurn.log_eq hevent, List.append_nil]
  case editor =>
    intro event hbegun
    by_cases hevent : event = .begins
    · subst hevent
      cases hmade : l.made with
      | none => exact absurd (begun_of_none hmade) hbegun
      | some made =>
          obtain ⟨task, hbegins⟩ := hinTurn.begins hmade
          exact ⟨rfl, hbegins.editor_eq⟩
    · exact absurd (begun_of_log_eq (hinTurn.log_eq hevent)) hbegun
  case reads =>
    intro hovertaken hbegun
    cases hmade : l.made with
    | none => exact absurd (begun_of_none hmade) hbegun
    | some made =>
        obtain ⟨task, hbegins⟩ := hinTurn.begins hmade
        have hopen := hbegins.isDone_eq_false hmade hovertaken
        constructor
        -- a read is of a compiled pipeline only if there is one
        · intro hall
          obtain ⟨read, hread⟩ := List.exists_mem_of_ne_nil _ hbegun
          obtain ⟨report, -, -, -, hreport, -⟩ := hall read hread
          exact ⟨report, hreport⟩
        · rintro ⟨report, hreport⟩ read hread
          have hshown := hresult made.task task hbegins.getElem?_eq hopen report hreport
          have houtcome := Session.outcome_of_result hshown (Nat.zero_lt_of_lt hbegins.madeFor.more)
          rw [hbegins.begun_eq] at hread
          exact ⟨report, task.pipeline, task.page, _, hreport, houtcome, Nat.succ_pos _,
            hbegins.madeFor.more, hread⟩
  case refused =>
    intro hovertaken report failure hreport hfailure
    cases hmade : l.made with
    | none => exact begun_of_none hmade
    | some made =>
        -- a pending task would be one of a graph that is not refused
        obtain ⟨task, hbegins⟩ := hinTurn.begins hmade
        have hopen := hbegins.isDone_eq_false hmade hovertaken
        have hshown := hresult made.task task hbegins.getElem?_eq hopen report hreport
        rw [Report.result, hfailure] at hshown
        cases hshown
  case overtaken =>
    rintro ⟨made, done, hmade, hsame, hdone⟩
    obtain ⟨task, hbegins⟩ := hinTurn.begins hmade
    obtain rfl := Option.some.inj (hbegins.getElem?_eq.symm.trans hsame)
    refine ⟨made, hmade, hbegins.perform_eq hdone, fun report hreport => ?_⟩
    have hfor := hbegins.madeFor
    exact ⟨task.pipeline, task.page, _, Session.outcome_of_result (hfor.result_eq report hreport)
      (Nat.zero_lt_of_lt hfor.more), Nat.succ_pos _, hfor.more, hbegins.begun_eq⟩
  case inFlight =>
    intro k task htask hopen
    unfold Graph.pipeline
    constructor
    · intro hpipeline
      cases hcompile : l.session.editor.graph.compile with
      | error numeral => simp [hcompile, Except.map] at hpipeline
      | ok report => exact ⟨report, hcompile⟩
    · rintro ⟨report, hreport⟩
      rw [hreport, ← hresult k task htask hopen report hreport]
      rfl

/-- Not every read is of the present graph. The limit of a graph can be edited into one that leaves
the graph without a report, and then the old limit is read; and where the reads of the old limit
have been made already, they begin after any edit. -/
theorem begins_absent_read :
    (¬ ∀ l : SessionLoop, l.Reachable → ¬ l.IsOvertaken →
      ∀ read ∈ l.begun .begins, l.session.IsPresent read) ∧
    ¬ ∀ l : SessionLoop, l.Reachable → l.session.IsReported →
      ∀ read ∈ l.begun .begins, l.session.IsPresent read := by
  constructor
  · intro hall
    obtain ⟨digits, hlength, hdigits⟩ := Session.exists_overlong
    obtain ⟨hunreported, hcurrent, hbegun⟩ := begun_overlongFive hdigits (by rw [hlength]; decide)
    have hpresent := hall _ (reachable_overlongFive digits) hcurrent
    rw [hbegun] at hpresent
    obtain ⟨report, -, -, -, hreport, -⟩ := hpresent _ List.mem_cons_self
    exact hunreported ⟨report, hreport⟩
  · intro hall
    obtain ⟨-, hcompile, hbegun⟩ := begun_overtakenFive
    have hpresent := hall _ reachable_overtakenFive ⟨_, hcompile⟩
    rw [hbegun] at hpresent
    exact not_isPresent_of_seven List.mem_cons_self (hpresent _ List.mem_cons_self)

/-- While the graph has a report its run is of that graph; with a limit of 4301 digits in place of
the old one it has none, and the old limit is read. -/
theorem runs_present_graph_of_overlong :
    Reachable ⟨.previewingFive, none⟩ ∧ Session.previewingFive.IsReported ∧
      RunsPresentGraph ⟨.previewingFive, none⟩ ∧
      ∃ digits, digits.length = 4301 ∧ (overlongFive digits).Reachable ∧
        ¬ (overlongFive digits).session.IsReported ∧ RunsPresentGraph (overlongFive digits) ∧
          (overlongFive digits).begun .begins = readsOfFive := by
  have hreachable := reachable_previewingFive
  obtain ⟨digits, hlength, hdigits⟩ := Session.exists_overlong
  have hedited := reachable_overlongFive digits
  obtain ⟨hunreported, -, hbegun⟩ := begun_overlongFive hdigits (by rw [hlength]; decide)
  exact ⟨hreachable, ⟨_, Session.compile_onlyLimit_five⟩, runs_present_graph hreachable, digits,
    hlength, hedited, hunreported, runs_present_graph hedited, hbegun⟩

end SessionLoop

end StageChain
