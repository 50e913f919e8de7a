import StageChain.Proofs.Preview.Flags

/-!
# Sessions that are left to settle

After `Session.settle` no task that is followed has ended without the session having taken note of
it: `calm_settle`. A mark that is made while a session settles is made for a run of the current
generation, provided that the session was calm before the last action, so after actions that are
each left to settle all errors are those of the latest run: `Settled.flags`.
-/

namespace StageChain.Session

variable {s next : Session} {j k : Nat} {action : Action} {run : Run}

/-! ## Actions that ask for nothing -/

theorem not_asks_step {editor : Editor} {page : Int} : ¬ s.Asks (.step k) editor page := nofun

theorem not_asks_resume {editor : Editor} {page : Int} : ¬ s.Asks (.resume k) editor page := nofun

theorem Change.generation_eq (h : s.Change action next)
    (hasks : ∀ editor page, ¬ s.Asks action editor page) :
    next.orchestrator.generation = s.orchestrator.generation := by
  cases h with
  | unchanged | reported | edited | noted => rfl
  | missed action editor page _ hask | refused action editor page _ _ hask
  | started action editor page _ _ hask => exact absurd hask (hasks editor page)
  | moved action k task conclusion? later _ _ hmove => exact hmove.generation_eq
  | marked => rw [orchestrator_mark]

theorem Change.following_subset (h : s.Change action next)
    (hasks : ∀ editor page, ¬ s.Asks action editor page) : next.following ⊆ s.following := by
  cases h with
  | unchanged | reported | edited | moved => exact fun _ hk => hk
  | missed action editor page _ hask | refused action editor page _ _ hask
  | started action editor page _ _ hask => exact absurd hask (hasks editor page)
  | noted => exact fun _ hk => List.mem_of_mem_erase hk
  | marked =>
      rw [following_mark]
      exact fun _ hk => List.mem_of_mem_erase hk

/-! ## Settling -/

section Induction

variable {P : Session → Prop}

/-- What steps of tasks and notes of their ends keep is kept by settling one task. -/
theorem settleOne_induction (hstep : ∀ s, P s → P (s.perform (.step k)))
    (hresume : ∀ s, P s → P (s.perform (.resume k))) (h : P s) : P (s.settleOne k) := by
  rw [settleOne_eq_performAll, performAll_append]
  refine hresume _ ?_
  generalize s.orchestrator.stepBound k = fuel
  induction fuel generalizing s with
  | zero => exact h
  | succ fuel ih => exact ih (hstep s h)

theorem foldl_settleOne_induction (hone : ∀ s k, P s → P (s.settleOne k)) (h : P s)
    (tasks : List Nat) : P (tasks.foldl settleOne s) := by
  induction tasks generalizing s with
  | nil => exact h
  | cons k rest ih => exact ih (hone s k h)

/-- What steps of tasks and notes of their ends keep is kept by settling. -/
theorem settle_induction (hstep : ∀ s k, P s → P (s.perform (.step k)))
    (hresume : ∀ s k, P s → P (s.perform (.resume k))) (h : P s) : P s.settle :=
  foldl_settleOne_induction
    (fun _ k => settleOne_induction (fun s => hstep s k) fun s => hresume s k) h _

/-- What changes that ask for nothing keep is kept by settling. -/
theorem settle_of_changes
    (hkeeps : ∀ s action next, P s → s.Change action next →
      (∀ editor page, ¬ s.Asks action editor page) → P next) (h : P s) : P s.settle :=
  settle_induction
    (fun s k h => hkeeps s _ _ h (s.change_step k) fun _ _ => not_asks_step)
    (fun s k h => hkeeps s _ _ h (s.change_resume k) fun _ _ => not_asks_resume) h

end Induction

theorem Sound.settleOne (h : s.Sound) (k : Nat) : (s.settleOne k).Sound :=
  settleOne_induction (fun _ h => h.perform _) (fun _ h => h.perform _) h

theorem Sound.settle (h : s.Sound) : s.settle.Sound :=
  settle_induction (fun _ _ h => h.perform _) (fun _ _ h => h.perform _) h

/-- Where every task has ended and been taken note of, there is nothing to settle. -/
theorem settle_of_idle (hidle : s.orchestrator.Idle) (hfollowing : s.following = []) :
    s.settle = s := by
  refine settle_induction (P := fun next => next = s) ?_ ?_ rfl
  · rintro next k rfl
    have hstep : next.orchestrator.step? k = none := by
      unfold Orchestrator.step?
      split
      · rfl
      · rename_i task htask
        have hdone := hidle k task htask
        unfold Task.isDone at hdone
        split at hdone
        · rename_i hphase
          simp only [hphase]
        · cases hdone
    simp [Session.perform, Session.step?, hstep]
  · rintro next k rfl
    exact resume_of_not_mem (by simp [hfollowing])

/-! ## Calm -/

/-- If a task is followed, it has not ended. -/
def CalmAt (s : Session) (k : Nat) : Prop := k ∈ s.following → s.orchestrator.ending? k = none

/-- No task that is followed has ended. -/
def Calm (s : Session) : Prop := ∀ k, s.CalmAt k

theorem following_resume {ending : Ending} (hk : k ∈ s.following)
    (hending : s.orchestrator.ending? k = some ending) :
    (s.resume k).following = s.following.erase k := by
  rcases resume_cases hk hending with ⟨-, hresume⟩ | ⟨run, failure, -, -, hresume⟩
  · rw [hresume]
  · rw [hresume, following_mark]

theorem orchestrator_resume (s : Session) (k : Nat) :
    (s.resume k).orchestrator = s.orchestrator := by
  by_cases hk : k ∈ s.following
  case neg => rw [resume_of_not_mem hk]
  cases hending : s.orchestrator.ending? k with
  | none => rw [resume_of_none hending]
  | some ending =>
      rcases resume_cases hk hending with ⟨-, hresume⟩ | ⟨run, failure, -, -, hresume⟩
      · rw [hresume]
      · rw [hresume, orchestrator_mark]

/-- Once its end has been taken note of, a task is not followed. -/
theorem Sound.calmAt_resume (h : s.Sound) (k : Nat) : (s.resume k).CalmAt k := by
  intro hfollowed
  rw [orchestrator_resume]
  cases hending : s.orchestrator.ending? k with
  | none => rfl
  | some ending =>
      by_cases hk : k ∈ s.following
      · rw [following_resume hk hending] at hfollowed
        exact absurd hfollowed h.nodup.not_mem_erase
      · rw [resume_of_not_mem hk] at hfollowed
        exact absurd hfollowed hk

theorem CalmAt.perform_resume (h : s.CalmAt k) (j : Nat) : (s.perform (.resume j)).CalmAt k := by
  intro hfollowed
  have hchange := s.change_resume j
  show (s.resume j).orchestrator.ending? k = none
  rw [orchestrator_resume]
  exact h (hchange.following_subset (fun _ _ => not_asks_resume) hfollowed)

/-- A step of one task leaves the others as they are. -/
theorem CalmAt.perform_step (h : s.CalmAt k) (hne : j ≠ k) : (s.perform (.step j)).CalmAt k := by
  intro hfollowed
  have hchange := s.change_step j
  have hending := h (hchange.following_subset (fun _ _ => not_asks_step) hfollowed)
  generalize s.perform (.step j) = next at hchange
  cases hchange with
  | unchanged => exact hending
  | missed _ _ _ _ hasks | refused _ _ _ _ _ hasks | started _ _ _ _ _ hasks =>
      exact absurd hasks not_asks_step
  | moved _ moving task conclusion? later haction htask hmove =>
      obtain rfl := Option.some.inj haction
      obtain ⟨moved, htasks, -⟩ := hmove.tasks_eq
      show later.ending? k = none
      rw [Orchestrator.ending?, htasks, List.getElem?_set_ne hne]
      exact hending

theorem CalmAt.settleOne (h : s.CalmAt k) (hne : j ≠ k) : (s.settleOne j).CalmAt k :=
  settleOne_induction (P := fun s => s.CalmAt k) (fun _ h => h.perform_step hne)
    (fun _ h => h.perform_resume j) h

theorem Sound.calmAt_settleOne (h : s.Sound) (k : Nat) : (s.settleOne k).CalmAt k := by
  rw [settleOne_eq_performAll, performAll_append]
  exact (h.performAll _).calmAt_resume k

/-- A task that has been settled stays so while others are. -/
theorem Sound.calmAt_foldl (h : s.Sound) {tasks : List Nat} (hk : k ∈ tasks ∨ s.CalmAt k) :
    (tasks.foldl Session.settleOne s).CalmAt k := by
  induction tasks generalizing s with
  | nil => exact hk.resolve_left List.not_mem_nil
  | cons j rest ih =>
      refine ih (h.settleOne j) ?_
      by_cases hj : j = k
      · subst hj
        exact .inr (h.calmAt_settleOne j)
      · rcases hk with hmem | hcalm
        · exact .inl ((List.mem_cons.1 hmem).resolve_left (Ne.symm hj))
        · exact .inr (hcalm.settleOne hj)

/-- A session that has been left to settle is calm. -/
theorem Sound.calm_settle (h : s.Sound) : s.settle.Calm := by
  have hfollowing : s.settle.following ⊆ s.following := by
    refine settle_of_changes (P := fun next => next.following ⊆ s.following) ?_ (fun _ hk => hk)
    intro before action after hsub hchange hasks _ hj
    exact hsub (hchange.following_subset hasks hj)
  intro k hk
  obtain ⟨task, htask⟩ := h.exists_task k (hfollowing hk)
  obtain ⟨hlt, -⟩ := List.getElem?_eq_some_iff.1 htask
  exact h.calmAt_foldl (.inl (List.mem_range.2 hlt)) hk

/-! ## Marks while a session settles -/

/-- No task that is followed has ended with a run of an older generation. -/
def Fresh (s : Session) : Prop :=
  ∀ k ∈ s.following, ∀ run, s.orchestrator.ending? k = some (.finished run) →
    run.generation = s.orchestrator.generation

/-- An action by which a pending task ends with a run takes no generation. -/
theorem Sound.generation_of_ends (h : s.Sound) (hchange : s.Change action next) {task : Task}
    (htask : s.orchestrator.tasks[k]? = some task) (hopen : task.isDone = false)
    (hending : next.orchestrator.ending? k = some (.finished run)) :
    next.orchestrator.generation = s.orchestrator.generation := by
  obtain ⟨inner, -, hinner⟩ := hchange.orchestrator
  have htakes := Orchestrator.generation_of_change hinner
  cases hadvances : inner.advances with
  | true =>
      -- whatever takes a generation cancels the task that is pending
      have hcancels : inner.cancels = true := by
        cases inner <;> first | rfl | exact hadvances
      have hcancelled := h.coherent.ending?_of_cancels hinner hcancels htask hopen
      cases hcancelled.symm.trans hending
  | false =>
      rw [hadvances] at htakes
      simpa using htakes

/-- A task that is followed after an action was followed before, unless the action starts it. -/
theorem Change.mem_following (hchange : s.Change action next) (hk : k ∈ next.following)
    {task : Task} (htask : s.orchestrator.tasks[k]? = some task) : k ∈ s.following := by
  rcases hchange.following_eq with hsame | ⟨j, herase⟩ | ⟨happend, -⟩
  · exact hsame ▸ hk
  · exact List.mem_of_mem_erase (herase ▸ hk)
  · rw [happend] at hk
    refine (List.mem_append.1 hk).resolve_right fun hlast => ?_
    rw [List.mem_singleton.1 hlast, List.getElem?_eq_none (Nat.le_refl _)] at htask
    cases htask

/-- A task that is followed and has ended with a run had ended so before, or its run is of the
current generation. -/
theorem Sound.finished_cases (h : s.Sound) (hchange : s.Change action next)
    (hk : k ∈ next.following) (hending : next.orchestrator.ending? k = some (.finished run)) :
    k ∈ s.following ∧ s.orchestrator.ending? k = some (.finished run) ∨
      run.generation = next.orchestrator.generation := by
  obtain ⟨later, hlater, hfinished⟩ := Option.bind_eq_some_iff.1 hending
  have hrun := ((h.change hchange).recorded k later run hlater hfinished).1
  cases htask : s.orchestrator.tasks[k]? with
  | none => exact .inr (hrun.trans (h.generation_of_new hchange htask hlater))
  | some task =>
      obtain ⟨kept, hkept, hgeneration, hdone⟩ := (h.extends_change hchange).tasks k task htask
      obtain rfl : kept = later := Option.some.inj (hkept.symm.trans hlater)
      cases hopen : task.isDone with
      | true =>
          obtain rfl := hdone hopen
          have hended : s.orchestrator.ending? k = some (.finished run) :=
            Option.bind_eq_some_iff.2 ⟨_, htask, hfinished⟩
          exact .inl ⟨hchange.mem_following hk htask, hended⟩
      | false =>
          have hsame := h.generation_of_ends hchange htask hopen hending
          have hcurrent := (h.coherent.pending k task htask hopen).2
          refine .inr ?_
          calc run.generation = kept.generation := hrun
            _ = task.generation := hgeneration
            _ = s.orchestrator.generation := hcurrent
            _ = next.orchestrator.generation := hsame.symm

theorem Sound.fresh_of_calm (h : s.Sound) (hcalm : s.Calm) (hchange : s.Change action next) :
    next.Fresh := by
  intro k hk run hending
  rcases h.finished_cases hchange hk hending with ⟨hfollowed, hended⟩ | hcurrent
  · cases (hcalm k hfollowed).symm.trans hended
  · exact hcurrent

theorem Fresh.change (hfresh : s.Fresh) (h : s.Sound) (hchange : s.Change action next)
    (hasks : ∀ editor page, ¬ s.Asks action editor page) : next.Fresh := by
  intro k hk run hending
  rcases h.finished_cases hchange hk hending with ⟨hfollowed, hended⟩ | hcurrent
  · rw [hfresh k hfollowed run hended, hchange.generation_eq hasks]
  · exact hcurrent

/-- What holds of a session while it settles. -/
structure Settling (s : Session) : Prop where
  sound : s.Sound
  fresh : s.Fresh
  flags : s.FlagsLatest

theorem Settling.change (h : s.Settling) (hchange : s.Change action next)
    (hasks : ∀ editor page, ¬ s.Asks action editor page) : next.Settling where
  sound := h.sound.change hchange
  fresh := h.fresh.change h.sound hchange hasks
  flags := h.flags.change h.sound hchange fun k run _ hwrites => h.fresh k hwrites.1 run hwrites.2.1

theorem Settling.settle (h : s.Settling) : s.settle.Settling :=
  settle_of_changes (fun _ _ _ h hchange hasks => h.change hchange hasks) h

/-! ## Actions that are each left to settle -/

/-- The session after some actions, each of which is left to settle. -/
def performSettled (s : Session) (actions : List Action) : Session :=
  actions.foldl (fun s action => (s.perform action).settle) s

theorem performSettled_cons (s : Session) (action : Action) (actions : List Action) :
    s.performSettled (action :: actions) = (s.perform action).settle.performSettled actions := rfl

theorem performSettled_append (s : Session) (first second : List Action) :
    s.performSettled (first ++ second) = (s.performSettled first).performSettled second :=
  List.foldl_append

/-- What holds of a session that has settled. -/
structure Settled (s : Session) : Prop where
  sound : s.Sound
  calm : s.Calm
  flags : s.FlagsLatest

theorem Settled.step (h : s.Settled) (action : Action) : (s.perform action).settle.Settled := by
  have hchange := h.sound.kept.change_perform action
  have hflags : (s.perform action).FlagsLatest := by
    refine h.flags.change h.sound hchange fun k run _ hwrites => ?_
    cases (h.calm k hwrites.1).symm.trans hwrites.2.1
  have hsettling : (s.perform action).Settling :=
    ⟨h.sound.change hchange, h.sound.fresh_of_calm h.calm hchange, hflags⟩
  exact ⟨hsettling.sound.settle, hsettling.sound.calm_settle, hsettling.settle.flags⟩

theorem Settled.performSettled (h : s.Settled) (actions : List Action) :
    (s.performSettled actions).Settled := by
  induction actions generalizing s with
  | nil => exact h
  | cons action rest ih => exact ih (h.step action)

end StageChain.Session
