import StageChain.Proofs.Source.ReadLoop

/-!
# Handles and waits

A loop with handles that tell waits and resume a task leads to what it should only if no handle is
lost and none comes twice. `State.Sound` says which handles that tell a wait there are and what the
waits know by them, and `State.Resumed` when there is the one that resumes the task. Each thing that
can happen to a state keeps both.
-/

namespace StageChain.ReadLoop

/-- Whether a handle tells a wait of a read. -/
def Handle.tells (wait : Wait) : Handle → Bool
  | .tell other _ => wait == other
  | .resume => false

/-- Whether a handle resumes the task of the pair. -/
def Handle.isResume : Handle → Bool
  | .tell _ _ => false
  | .resume => true

namespace State

variable {s t : State} {wait : Wait} {read : ReadKind} {state : ReadState read.Answer}
  {rest : List Handle} {raised : Raised}

theorem mem_done_iff : read ∈ s.done ↔ s.isRunning read = false := by
  cases read <;> simp [done]

theorem length_done_le (s : State) : s.done.length ≤ 2 := List.length_filter_le _ _

theorem length_done_eq_two_iff : s.done.length = 2 ↔ ∀ read, s.isRunning read = false := by
  constructor
  · intro h read
    have hall : s.done = [.page, .count] :=
      (List.filter_sublist : s.done.Sublist [.page, .count]).eq_of_length h
    rw [← mem_done_iff, hall]
    cases read <;> decide
  · intro h
    simp [done, h]

@[simp]
theorem isRunning_finish_self : (s.finish read state).isRunning read = state.isRunning := by
  simp [isRunning, finish]

@[simp]
theorem isRunning_finish_of_ne {other : ReadKind} (h : other ≠ read) :
    (s.finish read state).isRunning other = s.isRunning other := by
  simp [isRunning, finish, h]

theorem ready_finish (s : State) (read : ReadKind) (state : ReadState read.Answer) :
    (s.finish read state).ready = s.ready ++ s.listening.map (.tell · read) := rfl

theorem ready_clean (s : State) (raised : Raised) :
    (s.clean raised).ready = s.ready ++ s.done.map (.tell .last) := rfl

theorem current?_of_reading (h : s.place = .reading) : s.current? = some .first := by
  rw [current?, h]

theorem current?_of_cleaning (h : s.place = .cleaning raised) : s.current? = some .last := by
  rw [current?, h]

theorem current?_of_ended {ending : Ending} (h : s.place = .ended ending) : s.current? = none := by
  rw [current?, h]

/-- A read that ends on its own is not running any more. -/
theorem isRunning_finish_some {α : Type} (outcome : Except ReadFault α) :
    (ReadState.running.finish (some outcome)).isRunning = false := by
  cases outcome <;> rfl

/-- A read that ends is one more that has. -/
theorem length_done_finish (hrunning : s.isRunning read = true) (hstate : state.isRunning = false) :
    (s.finish read state).done.length = s.done.length + 1 := by
  cases read with
  | page =>
      have hother : (s.finish .page state).isRunning .count = s.isRunning .count :=
        isRunning_finish_of_ne (by decide)
      cases hcount : s.isRunning .count <;> simp [done, hrunning, hstate, hother, hcount]
  | count =>
      have hother : (s.finish .count state).isRunning .page = s.isRunning .page :=
        isRunning_finish_of_ne (by decide)
      cases hpage : s.isRunning .page <;> simp [done, hrunning, hstate, hother, hpage]

/-- What holds of the handles, the waits and the reads in every run. -/
structure Sound (s : State) : Prop where
  /-- A wait has been told of every read that has ended, or will be. -/
  told : ∀ wait ∈ s.listening,
    (s.waits wait).told + s.ready.countP (Handle.tells wait) = s.done.length
  unbegun : s.place = .reading →
    (s.waits .last).told = 0 ∧ s.ready.countP (Handle.tells .last) = 0
  whole : ∀ wait, (s.waits wait).told = 2 → (s.waits wait).result.isSome = true
  last : (s.waits .last).result.isSome = true → 2 ≤ (s.waits .last).told
  left : s.place ≠ .reading → (s.waits .first).result.isSome = true ∧
    ∀ read, s.isRunning read = true → s.asked read = true
  ended : s.current? = none → ∀ read, s.isRunning read = false
  telling : ∀ wait read, .tell wait read ∈ s.ready → s.isRunning read = false
  /-- The task is in the wait that is told, or the wait is over. -/
  heard : ∀ wait read, .tell wait read ∈ s.ready →
    s.current? = some wait ∨ (s.waits wait).result.isSome = true
  asked : ∀ read, s.asked read = true → s.isRunning read = true ∨ s.reads read = .cancelled
  unheard : (s.waits .first).result = none → ∀ read, s.isRunning read = false →
    .tell .first read ∈ s.ready ∨ raised? (s.reads read) = none
  answered : (s.waits .first).result = some (.ok ()) →
    ∀ read, s.isRunning read = false ∧ raised? (s.reads read) = none

/-- The task will be resumed once if its wait is over, and otherwise not. -/
def Resumed (s : State) : Prop :=
  ∀ wait, s.current? = some wait →
    s.ready.countP Handle.isResume = if (s.waits wait).result.isSome then 1 else 0

theorem sound_start : Sound start where
  told wait _ := by cases wait <;> rfl
  unbegun _ := ⟨rfl, rfl⟩
  whole wait h := by cases h
  last h := by cases h
  left h := absurd rfl h
  ended h := by cases h
  telling wait read h := by cases h
  heard wait read h := by cases h
  asked read h := by cases h
  unheard _ read h := by cases read <;> cases h
  answered h := by cases h

theorem isRunning_finish (hstate : state.isRunning = false) (other : ReadKind) :
    (s.finish read state).isRunning other = (s.isRunning other && other != read) := by
  by_cases h : other = read
  · subst h
    simp [hstate]
  · simp [h]

theorem reads_finish_of_ne {other : ReadKind} (h : other ≠ read) :
    (s.finish read state).reads other = s.reads other := Function.update_of_ne h _ _

@[simp]
theorem reads_finish_self : (s.finish read state).reads read = state := Function.update_self _ _ _

theorem countP_tells_map {α : Type} (items : List α) (listener : α → Wait) (read : α → ReadKind)
    (wait : Wait) :
    (items.map fun item => Handle.tell (listener item) (read item)).countP (Handle.tells wait) =
      items.countP (wait == listener ·) := List.countP_map

theorem countP_isResume_tells {α : Type} (items : List α) (wait : α → Wait) (read : α → ReadKind) :
    (items.map fun item => Handle.tell (wait item) (read item)).countP Handle.isResume = 0 := by
  simp [List.countP_eq_zero, Handle.isResume]

/-- Until the first wait is over, the task is in it. -/
theorem Sound.reading_of_result_eq_none (h : s.Sound) (hnone : (s.waits .first).result = none) :
    s.place = .reading := by
  by_contra hplace
  have hsome := (h.left hplace).1
  rw [hnone] at hsome
  cases hsome

theorem first_mem_listening (h : s.place = .reading) : .first ∈ s.listening := by
  rw [listening, h]
  exact List.mem_cons_self

theorem countP_listening (h : wait ∈ s.listening) : s.listening.countP (wait == ·) = 1 := by
  unfold listening at h ⊢
  split at h <;> cases wait <;> simp_all

/-- The wait that the task is in is told when a read ends. -/
theorem mem_listening_of_current? (h : s.current? = some wait) : wait ∈ s.listening := by
  unfold current? at h
  unfold listening
  split at h <;> cases h <;> simp_all

theorem Sound.heard_of_mem_listening (h : s.Sound) (hwait : wait ∈ s.listening) :
    s.current? = some wait ∨ (s.waits wait).result.isSome = true := by
  cases hplace : s.place with
  | reading =>
      rw [listening, hplace, List.mem_singleton] at hwait
      exact .inl (hwait ▸ current?_of_reading hplace)
  | cleaning raised =>
      cases wait with
      | first => exact .inr (h.left (by rw [hplace]; simp)).1
      | last => exact .inl (current?_of_cleaning hplace)
  | ended ending =>
      rw [listening, hplace] at hwait
      cases hwait

theorem Sound.finish (h : s.Sound) (hrunning : s.isRunning read = true)
    (hstate : state.isRunning = false) (hasked : s.asked read = true → state = .cancelled) :
    (s.finish read state).Sound where
  told wait hwait := by
    have hlistens : wait ∈ s.listening := hwait
    have htold := h.told wait hlistens
    rw [length_done_finish hrunning hstate, ready_finish, List.countP_append, countP_tells_map,
      countP_listening hlistens, ← htold]
    rfl
  unbegun hplace := by
    have hlistening : s.listening = [.first] := by
      rw [listening, show s.place = .reading from hplace]
    rw [ready_finish, List.countP_append, hlistening]
    exact h.unbegun hplace
  whole := h.whole
  last := h.last
  left hplace := by
    refine ⟨(h.left hplace).1, fun other hother => (h.left hplace).2 other ?_⟩
    rw [isRunning_finish hstate, Bool.and_eq_true] at hother
    exact hother.1
  ended hplace other := by
    rw [isRunning_finish hstate, h.ended hplace other, Bool.false_and]
  telling wait other hmem := by
    rw [isRunning_finish hstate]
    rcases List.mem_append.1 hmem with hmem | hmem
    · rw [h.telling wait other hmem, Bool.false_and]
    · obtain ⟨_, -, heq⟩ := List.mem_map.1 hmem
      cases heq
      simp
  heard wait other hmem := by
    rcases List.mem_append.1 hmem with hmem | hmem
    · exact h.heard wait other hmem
    · obtain ⟨_, hlistens, heq⟩ := List.mem_map.1 hmem
      cases heq
      exact h.heard_of_mem_listening hlistens
  asked other hother := by
    rw [isRunning_finish hstate]
    by_cases heq : other = read
    · subst heq
      exact .inr (by rw [reads_finish_self, hasked hother])
    · rw [reads_finish_of_ne heq]
      simpa [heq] using h.asked other hother
  unheard hresult other hother := by
    by_cases heq : other = read
    · subst heq
      have hfirst := first_mem_listening (h.reading_of_result_eq_none hresult)
      exact .inl (List.mem_append_right _ (List.mem_map_of_mem hfirst))
    · rw [isRunning_finish hstate] at hother
      rw [reads_finish_of_ne heq]
      refine (h.unheard hresult other (by simpa [heq] using hother)).imp_left fun hmem => ?_
      exact List.mem_append_left _ hmem
  answered hresult := by
    -- A wait with the answers is over, and then no read was running that could end.
    have hended := (h.answered hresult read).1
    rw [hrunning] at hended
    cases hended

theorem Resumed.finish (h : s.Resumed) : (s.finish read state).Resumed := by
  intro wait hcurrent
  rw [ready_finish, List.countP_append, countP_isResume_tells, Nat.add_zero]
  exact h wait hcurrent

theorem Sound.last_result_eq_none (h : s.Sound) (hplace : s.place = .reading) :
    (s.waits .last).result = none := by
  rw [← Option.not_isSome_iff_eq_none]
  intro hresult
  have hzero := (h.unbegun hplace).1
  have htwo := h.last hresult
  omega

/-- The last wait begins with what it has to be told of. -/
theorem Sound.clean (h : s.Sound) (hplace : s.place = .reading)
    (hresult : (s.waits .first).result.isSome = true) : (s.clean raised).Sound where
  told wait hwait := by
    have hsame : (s.clean raised).waits = s.waits ∧ (s.clean raised).done = s.done := ⟨rfl, rfl⟩
    rw [ready_clean, hsame.1, hsame.2, List.countP_append, countP_tells_map]
    cases wait with
    | first =>
        have hlistening : .first ∈ s.listening := by
          rw [listening, hplace]
          exact List.mem_cons_self
        have hlast : (Wait.first == Wait.last) = false := rfl
        simpa [hlast] using h.told .first hlistening
    | last => simp [h.unbegun hplace]
  unbegun hplace := by cases hplace
  whole := h.whole
  last := h.last
  left _ := by
    refine ⟨hresult, fun read hrunning => ?_⟩
    have hsame : s.isRunning read = true := hrunning
    simp [State.clean, askAll, hsame]
  ended hplace := by cases hplace
  telling wait read hmem := by
    rcases List.mem_append.1 hmem with hmem | hmem
    · exact h.telling wait read hmem
    · obtain ⟨_, hdone, heq⟩ := List.mem_map.1 hmem
      cases heq
      exact mem_done_iff.1 hdone
  heard wait read hmem := by
    cases wait with
    | first => exact .inr hresult
    | last => exact .inl rfl
  asked read hasked := by
    simp only [State.clean, askAll, Bool.or_eq_true] at hasked
    exact hasked.elim (h.asked read) .inl
  unheard hnone := by
    have hsame : (s.waits .first).result = none := hnone
    rw [hsame] at hresult
    cases hresult
  answered := h.answered

theorem resumed_clean (h : s.Sound) (hplace : s.place = .reading)
    (hready : s.ready.countP Handle.isResume = 0) : (s.clean raised).Resumed := by
  intro wait hcurrent
  cases hcurrent
  have hnone : ((s.clean raised).waits .last).result = none := h.last_result_eq_none hplace
  rw [hnone, ready_clean, List.countP_append, countP_isResume_tells, hready]
  rfl

/-- The pair ends when no read is running any more. -/
theorem Sound.conclude (h : s.Sound) (hcurrent : s.current? = some wait)
    (hresult : (s.waits wait).result.isSome = true)
    (hended : ∀ read, s.isRunning read = false) (ending : Ending) : (s.conclude ending).Sound where
  told wait hwait := by cases hwait
  unbegun hplace := by cases hplace
  whole := h.whole
  last := h.last
  left _ := by
    have hfirst : (s.waits .first).result.isSome = true := by
      by_cases hplace : s.place = .reading
      · cases hcurrent.symm.trans (current?_of_reading hplace)
        exact hresult
      · exact (h.left hplace).1
    refine ⟨hfirst, fun read hrunning => ?_⟩
    have hsame : s.isRunning read = true := hrunning
    rw [hended read] at hsame
    cases hsame
  ended _ := hended
  telling := h.telling
  heard other read hmem := by
    refine .inr ((h.heard other read hmem).elim (fun hother => ?_) id)
    cases hcurrent.symm.trans hother
    exact hresult
  asked := h.asked
  unheard := h.unheard
  answered := h.answered

theorem Sound.wake (h : s.Sound) (hready : s.ready = .resume :: rest) : (s.wake rest).Sound where
  told wait hwait := by
    have htold := h.told wait hwait
    rw [hready] at htold
    exact htold
  unbegun hplace := by
    have hzero := h.unbegun hplace
    rw [hready] at hzero
    exact hzero
  whole := h.whole
  last := h.last
  left := h.left
  ended := h.ended
  telling wait read hmem := h.telling wait read (hready ▸ List.mem_cons_of_mem _ hmem)
  heard wait read hmem := h.heard wait read (hready ▸ List.mem_cons_of_mem _ hmem)
  asked := h.asked
  unheard hresult read hended := by
    refine (h.unheard hresult read hended).imp_left fun hmem => ?_
    rw [hready, List.mem_cons] at hmem
    exact hmem.resolve_left (by simp)
  answered := h.answered

end State

namespace Waiting

variable {waiting : Waiting} {wait : Wait} {raised : Option Raised}

/-- Once a wait has a result, it keeps it. -/
theorem tell_result_of_isSome (h : waiting.result.isSome = true) :
    (waiting.tell wait raised).result = waiting.result := by
  obtain ⟨result, hresult⟩ := Option.isSome_iff_exists.1 h
  simp [tell, hresult]

/-- What a wait without a result comes to when it is told of a read. -/
inductive Told (waiting : Waiting) (wait : Wait) (raised : Option Raised)
    (result : Option (Except Raised Unit)) : Prop where
  | raised {first : Raised} (hwait : wait = .first) (hraised : raised = some first)
      (hresult : result = some (.error first))
  | whole (hquiet : wait = .first → raised = none) (htold : waiting.told = 1)
      (hresult : result = some (if waiting.cancelled then .error .cancelled else .ok ()))
  | waits (hquiet : wait = .first → raised = none) (htold : waiting.told ≠ 1)
      (hresult : result = none)

theorem told_tell (h : waiting.result = none) (wait : Wait) (raised : Option Raised) :
    waiting.Told wait raised (waiting.tell wait raised).result := by
  have hwhole : (wait = .first → raised = none) → (waiting.tell wait raised).result =
      if waiting.told + 1 = 2 then some (if waiting.cancelled then .error .cancelled else .ok ())
      else none := by
    intro hquiet
    cases wait with
    | last => simp only [tell, h]
    | first => simp only [tell, h, hquiet rfl]
  by_cases hquiet : wait = .first → raised = none
  · by_cases htold : waiting.told = 1
    · exact .whole hquiet htold (by rw [hwhole hquiet, if_pos (by omega)])
    · exact .waits hquiet htold (by rw [hwhole hquiet, if_neg (by omega)])
  · obtain ⟨rfl, hraised⟩ := Classical.not_imp.1 hquiet
    obtain ⟨first, rfl⟩ := Option.ne_none_iff_exists'.1 hraised
    exact .raised rfl rfl (by simp only [tell, h])

end Waiting

namespace State

variable {s t : State} {wait : Wait} {read : ReadKind} {rest : List Handle}

theorem waits_tell_self (s : State) (rest : List Handle) (wait : Wait) (read : ReadKind) :
    (s.tell rest wait read).waits wait = (s.waits wait).tell wait (raised? (s.reads read)) :=
  Function.update_self _ _ _

theorem waits_tell_of_ne {other : Wait} (h : other ≠ wait) :
    (s.tell rest wait read).waits other = s.waits other := Function.update_of_ne h _ _

theorem told_tell (s : State) (rest : List Handle) (wait other : Wait) (read : ReadKind) :
    ((s.tell rest wait read).waits other).told =
      (s.waits other).told + if other = wait then 1 else 0 := by
  by_cases hsame : other = wait
  · subst hsame
    rw [waits_tell_self, if_pos rfl]
    rfl
  · rw [waits_tell_of_ne hsame, if_neg hsame, Nat.add_zero]

theorem result_tell_of_isSome {other : Wait} (h : (s.waits other).result.isSome = true) :
    ((s.tell rest wait read).waits other).result = (s.waits other).result := by
  by_cases hsame : other = wait
  · subst hsame
    rw [waits_tell_self, Waiting.tell_result_of_isSome h]
  · rw [waits_tell_of_ne hsame]

theorem result_eq_none_of_tell {other : Wait}
    (h : ((s.tell rest wait read).waits other).result = none) : (s.waits other).result = none := by
  rw [← Option.not_isSome_iff_eq_none]
  intro hsome
  rw [← result_tell_of_isSome hsome, h] at hsome
  cases hsome

theorem result_tell (h : (s.waits wait).result = none) (rest : List Handle) (read : ReadKind) :
    (s.waits wait).Told wait (raised? (s.reads read))
      ((s.tell rest wait read).waits wait).result := by
  rw [waits_tell_self]
  exact Waiting.told_tell h wait _

theorem ready_tell (s : State) (rest : List Handle) (wait : Wait) (read : ReadKind) :
    (s.tell rest wait read).ready = rest ++
      if (s.waits wait).result.isNone && ((s.tell rest wait read).waits wait).result.isSome then
        [.resume]
      else [] := by
  rw [waits_tell_self]
  rfl

/-- Telling adds no other handle than the one that resumes the task. -/
theorem mem_ready_tell {other : Wait} {kind : ReadKind} :
    .tell other kind ∈ (s.tell rest wait read).ready ↔ .tell other kind ∈ rest := by
  rw [ready_tell, List.mem_append, or_iff_left_iff_imp]
  split <;> simp

theorem countP_tells_tell (s : State) (rest : List Handle) (wait other : Wait) (read : ReadKind) :
    (s.tell rest wait read).ready.countP (Handle.tells other) =
      rest.countP (Handle.tells other) := by
  rw [ready_tell, List.countP_append]
  split <;> simp [Handle.tells]

theorem countP_tells_ready (hready : s.ready = .tell wait read :: rest) (other : Wait) :
    s.ready.countP (Handle.tells other) =
      rest.countP (Handle.tells other) + if other = wait then 1 else 0 := by
  rw [hready, List.countP_cons]
  simp only [Handle.tells, beq_iff_eq]

theorem mem_ready_of_tell {other : Wait} {kind : ReadKind}
    (hready : s.ready = .tell wait read :: rest)
    (h : .tell other kind ∈ (s.tell rest wait read).ready) : .tell other kind ∈ s.ready :=
  hready ▸ List.mem_cons_of_mem _ (mem_ready_tell.1 h)

theorem Sound.whole_tell (h : s.Sound) {other : Wait}
    (htwo : ((s.tell rest wait read).waits other).told = 2) :
    ((s.tell rest wait read).waits other).result.isSome = true := by
  by_cases hsome : (s.waits other).result.isSome = true
  · rwa [result_tell_of_isSome hsome]
  have hless := mt (h.whole other) hsome
  rw [told_tell] at htwo
  by_cases hsame : other = wait
  · subst hsame
    rw [if_pos rfl] at htwo
    cases result_tell (Option.not_isSome_iff_eq_none.1 hsome) rest read with
    | raised _ _ hresult | whole _ _ hresult => rw [hresult, Option.isSome_some]
    | waits _ hone => omega
  · rw [if_neg hsame] at htwo
    exact absurd htwo hless

theorem Sound.last_tell (h : s.Sound)
    (hresult : ((s.tell rest wait read).waits .last).result.isSome = true) :
    2 ≤ ((s.tell rest wait read).waits .last).told := by
  rw [told_tell]
  by_cases hsome : (s.waits .last).result.isSome = true
  · have htwo := h.last hsome
    omega
  by_cases hsame : .last = wait
  · subst hsame
    rw [if_pos rfl]
    cases result_tell (Option.not_isSome_iff_eq_none.1 hsome) rest read with
    | raised hfirst => cases hfirst
    | whole _ hone => omega
    | waits _ _ hnone =>
        rw [hnone] at hresult
        cases hresult
  · rw [waits_tell_of_ne hsame] at hresult
    exact absurd hresult hsome

/-- While the first wait goes on, the read that it was told of has succeeded. -/
theorem Sound.unheard_tell (h : s.Sound) (hready : s.ready = .tell wait read :: rest)
    (hnone : ((s.tell rest wait read).waits .first).result = none) {kind : ReadKind}
    (hended : s.isRunning kind = false) :
    .tell .first kind ∈ (s.tell rest wait read).ready ∨ raised? (s.reads kind) = none := by
  have hopen := result_eq_none_of_tell hnone
  rw [mem_ready_tell]
  refine (h.unheard hopen kind hended).elim (fun hmem => ?_) .inr
  rw [hready, List.mem_cons, Handle.tell.injEq] at hmem
  rcases hmem with ⟨rfl, rfl⟩ | hmem
  · cases result_tell hopen rest kind with
    | raised _ _ hresult | whole _ _ hresult =>
        rw [hnone] at hresult
        cases hresult
    | waits hquiet => exact .inr (hquiet rfl)
  · exact .inl hmem

/-- When the first wait is told of the last read, and it is not one that raises, then none is. -/
theorem Sound.quiet_of_whole (h : s.Sound) (hready : s.ready = .tell .first read :: rest)
    (hnone : (s.waits .first).result = none) (hquiet : raised? (s.reads read) = none)
    (hone : (s.waits .first).told = 1) (kind : ReadKind) :
    s.isRunning kind = false ∧ raised? (s.reads kind) = none := by
  -- The wait knows of two reads by now, so no handle is left to tell it of one.
  have hsum := h.told .first (first_mem_listening (h.reading_of_result_eq_none hnone))
  have hle := s.length_done_le
  rw [countP_tells_ready hready, if_pos rfl] at hsum
  have hall := length_done_eq_two_iff.1 (by omega : s.done.length = 2)
  have hempty : rest.countP (Handle.tells .first) = 0 := by omega
  refine ⟨hall kind, (h.unheard hnone kind (hall kind)).elim (fun hmem => ?_) id⟩
  rw [hready, List.mem_cons, Handle.tell.injEq] at hmem
  rcases hmem with ⟨-, rfl⟩ | hmem
  · exact hquiet
  · exact absurd (List.countP_eq_zero.1 hempty _ hmem) (by simp [Handle.tells])

/-- The first wait gives the answers when it is told of the last read, and every read has
succeeded. -/
theorem Sound.answered_tell (h : s.Sound) (hready : s.ready = .tell wait read :: rest)
    (hresult : ((s.tell rest wait read).waits .first).result = some (.ok ())) (kind : ReadKind) :
    s.isRunning kind = false ∧ raised? (s.reads kind) = none := by
  by_cases hsome : (s.waits .first).result.isSome = true
  · rw [result_tell_of_isSome hsome] at hresult
    exact h.answered hresult kind
  have hnone := Option.not_isSome_iff_eq_none.1 hsome
  by_cases hsame : .first = wait
  · subst hsame
    cases result_tell hnone rest read with
    | raised _ _ hraised => cases hresult.symm.trans hraised
    | waits _ _ hopen => cases hresult.symm.trans hopen
    | whole hquiet hone => exact h.quiet_of_whole hready hnone (hquiet rfl) hone kind
  · rw [waits_tell_of_ne hsame] at hresult
    cases hnone.symm.trans hresult

theorem Sound.tell (h : s.Sound) (hready : s.ready = .tell wait read :: rest) :
    (s.tell rest wait read).Sound where
  told other hother := by
    have hsum := h.told other hother
    have hdone : (s.tell rest wait read).done = s.done := rfl
    rw [countP_tells_ready hready] at hsum
    rw [countP_tells_tell, told_tell, hdone]
    omega
  unbegun hplace := by
    obtain ⟨htold, hzero⟩ := h.unbegun hplace
    rw [countP_tells_ready hready] at hzero
    rw [countP_tells_tell, told_tell]
    omega
  whole _ htwo := h.whole_tell htwo
  last hresult := h.last_tell hresult
  left hplace := by
    obtain ⟨hresult, hasked⟩ := h.left hplace
    exact ⟨by rwa [result_tell_of_isSome hresult], hasked⟩
  ended := h.ended
  telling other kind hmem := h.telling other kind (mem_ready_of_tell hready hmem)
  heard other kind hmem := by
    refine (h.heard other kind (mem_ready_of_tell hready hmem)).imp_right fun hsome => ?_
    rwa [result_tell_of_isSome hsome]
  asked := h.asked
  unheard hnone _ hended := h.unheard_tell hready hnone hended
  answered hresult := h.answered_tell hready hresult

theorem Resumed.tell (hresumed : s.Resumed) (h : s.Sound)
    (hready : s.ready = .tell wait read :: rest) : (s.tell rest wait read).Resumed := by
  intro current hcurrent
  have hcount : rest.countP Handle.isResume =
      if (s.waits current).result.isSome then 1 else 0 := by
    have hcount := hresumed current hcurrent
    rwa [hready, List.countP_cons_of_neg (by simp [Handle.isResume])] at hcount
  have hadded : ∀ added : Bool, (if added then [Handle.resume] else []).countP Handle.isResume =
      if added then 1 else 0 := by decide
  rw [ready_tell, List.countP_append, hadded, hcount]
  by_cases hsame : current = wait
  · subst hsame
    cases hresult : (s.waits current).result with
    | none => simp
    | some result =>
        rw [result_tell_of_isSome (by rw [hresult]; rfl)]
        simp [hresult]
  · -- The wait that is told is not the task's own, so it is over and resumes nothing.
    have hover : (s.waits wait).result.isSome = true := by
      refine (h.heard wait read (hready ▸ List.mem_cons_self)).resolve_left fun hwait => hsame ?_
      exact Option.some.inj (hcurrent.symm.trans hwait)
    rw [waits_tell_of_ne hsame, Option.isNone_eq_false_iff.2 hover, Bool.false_and]
    rfl

theorem Sound.askAll (h : s.Sound) : s.askAll.Sound where
  told := h.told
  unbegun := h.unbegun
  whole := h.whole
  last := h.last
  left hplace := by
    refine ⟨(h.left hplace).1, fun read hrunning => ?_⟩
    simp [State.askAll, (h.left hplace).2 read hrunning]
  ended := h.ended
  telling := h.telling
  heard := h.heard
  asked read hasked := by
    simp only [State.askAll, Bool.or_eq_true] at hasked
    exact hasked.elim (h.asked read) .inl
  unheard := h.unheard
  answered := h.answered

theorem cancelWait_same (s : State) (wait other : Wait) :
    ((s.cancelWait wait).waits other).told = (s.waits other).told ∧
      ((s.cancelWait wait).waits other).result = (s.waits other).result := by
  by_cases hsame : other = wait
  · subst hsame
    simp [cancelWait]
  · simp [cancelWait, hsame]

theorem Sound.cancelWait (h : s.Sound) (wait : Wait) : (s.cancelWait wait).Sound where
  told other hother := (s.cancelWait_same wait other).1 ▸ h.told other hother
  unbegun hplace := (s.cancelWait_same wait .last).1 ▸ h.unbegun hplace
  whole other := by
    rw [(s.cancelWait_same wait other).1, (s.cancelWait_same wait other).2]
    exact h.whole other
  last := by
    rw [(s.cancelWait_same wait .last).1, (s.cancelWait_same wait .last).2]
    exact h.last
  left hplace := (s.cancelWait_same wait .first).2 ▸ h.left hplace
  ended := h.ended
  telling := h.telling
  heard other read hmem := (s.cancelWait_same wait other).2 ▸ h.heard other read hmem
  asked := h.asked
  unheard hresult := h.unheard ((s.cancelWait_same wait .first).2 ▸ hresult)
  answered hresult := h.answered ((s.cancelWait_same wait .first).2 ▸ hresult)

theorem Sound.interrupt (h : s.Sound) (wait : Wait) : (s.interrupt wait).Sound := by
  unfold State.interrupt
  split
  · exact h.askAll.cancelWait wait
  · exact ⟨h.told, h.unbegun, h.whole, h.last, h.left, h.ended, h.telling, h.heard, h.asked,
      h.unheard, h.answered⟩

theorem Resumed.interrupt (h : s.Resumed) (wait : Wait) : (s.interrupt wait).Resumed := by
  intro current hcurrent
  unfold State.interrupt at hcurrent ⊢
  split
  · rename_i hopen
    rw [if_pos hopen] at hcurrent
    have hsame := (s.askAll.cancelWait_same wait current).2
    exact (congrArg (fun result => if result.isSome then 1 else 0) hsame) ▸ h current hcurrent
  · rename_i hopen
    rw [if_neg hopen] at hcurrent
    exact h current hcurrent

end State

end StageChain.ReadLoop
