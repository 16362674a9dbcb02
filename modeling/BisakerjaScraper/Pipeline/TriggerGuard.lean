import BisakerjaScraper.Core.Errors
import BisakerjaScraper.Python.Locks
import Mathlib.Data.List.Induction

/-! The guard in front of the stages of the scheduler.

    Every trigger of a stage, by hand or by `trigger_stage` of the scheduler, is a call of `run`,
    which looks at the lock before it takes it. Nothing is awaited in between, so a lock that was
    free is taken at once: no call waits, and a call that finds a stage running is refused. -/

namespace Bisakerja

/-- `ScheduledStage`. -/
inductive ScheduledStage where | scrape | normalize | enrich | sync | notifyHandoff
  deriving DecidableEq

/-- `ScheduledRunResult`. -/
structure ScheduledRunResult where
  stage : ScheduledStage
  accepted : Bool
  reason : Option String := none

/-- How a callback ends. -/
inductive CallbackOutcome where
  | returned
  | raised (error : PyException)
  | cancelled

/-- Where a call of `run` stands. -/
inductive TriggerPhase where
  | outside
  | atLock (stage : ScheduledStage)
  | running (stage : ScheduledStage)
  | finished (result : ScheduledRunResult)
  | broken (outcome : CallbackOutcome)

/-- A call that can have started a callback. -/
def TriggerPhase.MayHaveStarted : TriggerPhase → Prop
  | .running _ | .broken _ => True
  | .finished result => result.accepted = true
  | .outside | .atLock _ => False

/-- `ManualTriggerGuard` with its calls, and the callbacks that were started, in order. -/
structure ManualTriggerGuard where
  lock : Lock := {}
  activeStage : Option ScheduledStage := none
  phase : ℕ → TriggerPhase := fun _ => .outside
  started : List (ℕ × ScheduledStage) := []

/-- A call runs from one await to the next: from its beginning, from where it waits for the lock, or
    from the end of its callback. -/
inductive TriggerEvent where
  | call (caller : ℕ) (stage : ScheduledStage)
  | resume (caller : ℕ)
  | ends (caller : ℕ) (outcome : CallbackOutcome)

namespace ManualTriggerGuard

/-- A call stands elsewhere. -/
def move (guard : ManualTriggerGuard) (caller : ℕ) (phase : TriggerPhase) : ManualTriggerGuard :=
  { guard with phase := fun other => if other = caller then phase else guard.phase other }

/-- A call that has the lock awaits its callback. -/
def enter (guard : ManualTriggerGuard) (caller : ℕ) (stage : ScheduledStage) :
    ManualTriggerGuard :=
  move
    { guard with
      activeStage := some stage
      started := guard.started ++ [(caller, stage)] }
    caller (.running stage)

/-- The end of `run` behind the callback: the `finally`, and the lock. -/
def leave (guard : ManualTriggerGuard) (caller : ℕ) (stage : ScheduledStage)
    (outcome : CallbackOutcome) : ManualTriggerGuard :=
  move { guard with activeStage := none, lock := guard.lock.release } caller
    (match outcome with
      | .returned => .finished { stage, accepted := true }
      | outcome => .broken outcome)

/-- What `run` answers while another call has the lock. -/
def refusal (stage : ScheduledStage) : ScheduledRunResult where
  stage
  accepted := false
  reason := some "run already active"

/-- `run` up to its first await. -/
def run (guard : ManualTriggerGuard) (caller : ℕ) (stage : ScheduledStage) : ManualTriggerGuard :=
  if guard.lock.locked then guard.move caller (.finished (refusal stage))
  else
    match guard.lock.acquire caller with
    | (lock, true) => enter { guard with lock } caller stage
    | (lock, false) => move { guard with lock } caller (.atLock stage)

/-- One event. What a call cannot do where it stands changes nothing; where it waits for the lock it
    can be cancelled. -/
def step (guard : ManualTriggerGuard) : TriggerEvent → ManualTriggerGuard
  | .call caller stage =>
    match guard.phase caller with
    | .outside => guard.run caller stage
    | _ => guard
  | .resume caller =>
    match guard.phase caller with
    | .atLock stage =>
      if guard.lock.locked = false ∧ guard.lock.Woken caller then
        enter { guard with lock := guard.lock.takeUp caller } caller stage
      else guard
    | _ => guard
  | .ends caller outcome =>
    match guard.phase caller, outcome with
    | .running stage, outcome => guard.leave caller stage outcome
    | .atLock _, .cancelled =>
      move { guard with lock := guard.lock.abandon caller } caller (.broken .cancelled)
    | _, _ => guard

/-- The guard after some events. -/
def after (events : List TriggerEvent) : ManualTriggerGuard := events.foldl step {}

/-- A callback of a call has been started. -/
def HasStarted (guard : ManualTriggerGuard) (caller : ℕ) : Prop :=
  ∃ stage, (caller, stage) ∈ guard.started

/-- What the guard promises. -/
structure GuardsTriggers (guard : ManualTriggerGuard) : Prop where
  oneRunning : ∀ caller other stage stage', guard.phase caller = .running stage →
    guard.phase other = .running stage' → caller = other
  active : ∀ stage, guard.activeStage = some stage ↔ ∃ caller, guard.phase caller = .running stage
  refusedRunsNothing : ∀ caller result, guard.phase caller = .finished result →
    result.accepted = false → ¬ guard.HasStarted caller
  refusesAtOnce : ∀ caller other stage stage', guard.phase other = .running stage' →
    guard.phase caller = .outside →
      guard.step (.call caller stage) = guard.move caller (.finished (refusal stage))
  acceptsNext : ∀ caller next stage stage' outcome, guard.phase caller = .running stage →
    guard.phase next = .outside →
      ((guard.step (.ends caller outcome)).step (.call next stage')).phase next = .running stage'
  acceptsFirst : ∀ caller stage, guard.activeStage = none → guard.phase caller = .outside →
    (guard.step (.call caller stage)).phase caller = .running stage

/-! ### The invariant -/

variable {guard : ManualTriggerGuard} {caller : ℕ} {stage : ScheduledStage}

/-- Nothing runs, and the lock is free. -/
structure Idle (guard : ManualTriggerGuard) : Prop where
  free : guard.lock = {}
  inactive : guard.activeStage = none
  quiet : ∀ other stage, guard.phase other ≠ .running stage

/-- One call runs and has the lock, for which nobody waits. -/
structure Busy (guard : ManualTriggerGuard) (caller : ℕ) (stage : ScheduledStage) : Prop where
  held : guard.lock = { locked := true }
  active : guard.activeStage = some stage
  running : guard.phase caller = .running stage
  only : ∀ other stage, guard.phase other = .running stage → other = caller

/-- Between two events a guard is idle or busy, no call waits for the lock, and only calls that were
    let through have started a callback. -/
structure Ordered (guard : ManualTriggerGuard) : Prop where
  idleOrBusy : guard.Idle ∨ ∃ caller stage, guard.Busy caller stage
  nobodyWaits : ∀ caller stage, guard.phase caller ≠ .atLock stage
  startedOnly : ∀ caller, guard.HasStarted caller → (guard.phase caller).MayHaveStarted

@[simp] theorem move_phase_self (phase : TriggerPhase) :
    (guard.move caller phase).phase caller = phase := if_pos rfl

@[simp] theorem move_phase_of_ne {other : ℕ} (h : other ≠ caller) (phase : TriggerPhase) :
    (guard.move caller phase).phase other = guard.phase other := if_neg h

theorem run_of_idle (h : guard.Idle) (caller : ℕ) (stage : ScheduledStage) :
    guard.run caller stage = enter { guard with lock := { locked := true } } caller stage := by
  unfold run
  rw [h.free]
  rfl

theorem run_of_busy {other : ℕ} {stage' : ScheduledStage} (h : guard.Busy other stage')
    (caller : ℕ) (stage : ScheduledStage) :
    guard.run caller stage = guard.move caller (.finished (refusal stage)) := by
  unfold run
  rw [h.held]
  rfl

/-- A call that enters an idle guard is the only one that runs. -/
theorem Idle.busy_enter (h : guard.Idle) (caller : ℕ) (stage : ScheduledStage) :
    Busy (enter { guard with lock := { locked := true } } caller stage) caller stage where
  held := rfl
  active := rfl
  running := move_phase_self _
  only other stage' hrunning := by
    by_contra hne
    unfold enter at hrunning
    rw [move_phase_of_ne hne] at hrunning
    exact h.quiet other stage' hrunning

/-- However its callback ends, a call that leaves makes the guard idle. -/
theorem Busy.idle_leave (h : guard.Busy caller stage) (outcome : CallbackOutcome) :
    Idle (guard.leave caller stage outcome) where
  free := by
    change guard.lock.release = {}
    rw [h.held]
    rfl
  inactive := rfl
  quiet other stage' hrunning := by
    unfold leave at hrunning
    by_cases hsame : other = caller
    · rw [hsame, move_phase_self] at hrunning
      cases outcome <;> cases hrunning
    · rw [move_phase_of_ne hsame] at hrunning
      exact hsame (h.only other stage' hrunning)

/-- A call that is refused leaves the one that runs alone. -/
theorem Busy.refuse (h : guard.Busy caller stage) {other : ℕ} (hne : other ≠ caller)
    (result : ScheduledRunResult) :
    Busy (guard.move other (.finished result)) caller stage where
  held := h.held
  active := h.active
  running := by
    rw [move_phase_of_ne hne.symm]
    exact h.running
  only third stage' hrunning := by
    by_cases hsame : third = other
    · rw [hsame, move_phase_self] at hrunning
      cases hrunning
    · rw [move_phase_of_ne hsame] at hrunning
      exact h.only third stage' hrunning

/-! ### Runs -/

theorem ordered_init : Ordered {} where
  idleOrBusy := .inl ⟨rfl, rfl, fun _ _ h => by cases h⟩
  nobodyWaits _ _ h := by cases h
  startedOnly _ h := by
    obtain ⟨_, h⟩ := h
    cases h

/-- A call moves to where it does not wait; it has started no callback, or may have. -/
theorem Ordered.moved (h : guard.Ordered) {guard' : ManualTriggerGuard} {phase : TriggerPhase}
    (hphase : guard'.phase = (guard.move caller phase).phase)
    (hidleOrBusy : guard'.Idle ∨ ∃ other stage, guard'.Busy other stage)
    (hwaits : ∀ stage, phase ≠ .atLock stage)
    (hstarted : ∀ other, guard'.HasStarted other → other ≠ caller → guard.HasStarted other)
    (hmay : guard'.HasStarted caller → phase.MayHaveStarted) : guard'.Ordered where
  idleOrBusy := hidleOrBusy
  nobodyWaits other stage := by
    rw [hphase]
    by_cases hsame : other = caller
    · rw [hsame, move_phase_self]
      exact hwaits stage
    · rw [move_phase_of_ne hsame]
      exact h.nobodyWaits other stage
  startedOnly other hother := by
    rw [hphase]
    by_cases hsame : other = caller
    · rw [hsame, move_phase_self]
      exact hmay (hsame ▸ hother)
    · rw [move_phase_of_ne hsame]
      exact h.startedOnly other (hstarted other hother hsame)

theorem Ordered.call (h : guard.Ordered) (hphase : guard.phase caller = .outside)
    (stage : ScheduledStage) : (guard.run caller stage).Ordered := by
  rcases h.idleOrBusy with hidle | ⟨other, stage', hbusy⟩
  · rw [run_of_idle hidle]
    refine h.moved rfl (.inr ⟨caller, stage, hidle.busy_enter caller stage⟩) nofun ?_
      fun _ => trivial
    rintro third ⟨stage'', hstarted⟩ hne
    rcases List.mem_append.mp hstarted with hstarted | hstarted
    · exact ⟨stage'', hstarted⟩
    · cases List.mem_singleton.mp hstarted
      exact absurd rfl hne
  · rw [run_of_busy hbusy]
    have hne : caller ≠ other := by
      rintro rfl
      rw [hbusy.running] at hphase
      cases hphase
    refine h.moved rfl (.inr ⟨other, stage', hbusy.refuse hne _⟩) nofun (fun _ hs _ => hs) ?_
    -- a call that was outside has started nothing
    intro hstarted
    have hmay := h.startedOnly caller hstarted
    rw [hphase] at hmay
    exact hmay.elim

theorem Ordered.busy (h : guard.Ordered) (hrunning : guard.phase caller = .running stage) :
    guard.Busy caller stage := by
  rcases h.idleOrBusy with hidle | ⟨other, stage', hbusy⟩
  · exact absurd hrunning (hidle.quiet caller stage)
  · have hsame := hbusy.only caller stage hrunning
    subst hsame
    rw [hbusy.running] at hrunning
    cases hrunning
    exact hbusy

theorem Ordered.leave (h : guard.Ordered) (hrunning : guard.phase caller = .running stage)
    (outcome : CallbackOutcome) : (guard.leave caller stage outcome).Ordered := by
  refine h.moved rfl (.inl ((h.busy hrunning).idle_leave outcome)) ?_ (fun _ hs _ => hs) fun _ => ?_
  · cases outcome <;> exact nofun
  · cases outcome <;> trivial

theorem Ordered.step (h : guard.Ordered) (event : TriggerEvent) : (guard.step event).Ordered := by
  cases event with
  | call caller stage =>
    unfold ManualTriggerGuard.step
    dsimp only
    split
    · next hphase => exact h.call hphase stage
    · exact h
  | resume caller =>
    unfold ManualTriggerGuard.step
    dsimp only
    split
    · next hphase => exact absurd hphase (h.nobodyWaits caller _)
    · exact h
  | ends caller outcome =>
    unfold ManualTriggerGuard.step
    dsimp only
    split
    · next hphase => exact h.leave hphase _
    · next hphase => exact absurd hphase (h.nobodyWaits caller _)
    · exact h

theorem ordered_after (events : List TriggerEvent) : (after events).Ordered := by
  unfold after
  induction events using List.reverseRecOn with
  | nil => exact ordered_init
  | append_singleton events event ih =>
    rw [List.foldl_append]
    exact ih.step event

theorem step_call (hphase : guard.phase caller = .outside) :
    guard.step (.call caller stage) = guard.run caller stage := by
  unfold step
  dsimp only
  rw [hphase]

theorem step_ends (hphase : guard.phase caller = .running stage) (outcome : CallbackOutcome) :
    guard.step (.ends caller outcome) = guard.leave caller stage outcome := by
  unfold step
  dsimp only
  rw [hphase]

theorem Idle.accepts (h : guard.Idle) (hphase : guard.phase caller = .outside) :
    (guard.step (.call caller stage)).phase caller = .running stage := by
  rw [step_call hphase, run_of_idle h]
  exact (h.busy_enter caller stage).running

/-- The guard keeps its promises in every interleaving, however the callbacks end. -/
theorem guardsTriggers_after (events : List TriggerEvent) : (after events).GuardsTriggers := by
  have h := ordered_after events
  generalize after events = guard at h
  refine ⟨?_, ?_, ?_, ?_, ?_, ?_⟩
  · intro caller other stage stage' hcaller hother
    exact (h.busy hother).only caller stage hcaller
  · intro stage
    constructor
    · intro hactive
      rcases h.idleOrBusy with hidle | ⟨caller, stage', hbusy⟩
      · rw [hidle.inactive] at hactive
        cases hactive
      · rw [hbusy.active] at hactive
        cases hactive
        exact ⟨caller, hbusy.running⟩
    · rintro ⟨caller, hrunning⟩
      exact (h.busy hrunning).active
  · intro caller result hphase hrefused hstarted
    have hmay := h.startedOnly caller hstarted
    rw [hphase] at hmay
    exact absurd hmay (by simp [TriggerPhase.MayHaveStarted, hrefused])
  · intro caller other stage stage' hrunning hphase
    rw [step_call hphase, run_of_busy (h.busy hrunning)]
  · intro caller next stage stage' outcome hrunning hphase
    have hne : next ≠ caller := by
      rintro rfl
      rw [hrunning] at hphase
      cases hphase
    rw [step_ends hrunning]
    refine Idle.accepts ((h.busy hrunning).idle_leave outcome) ?_
    unfold ManualTriggerGuard.leave
    rw [move_phase_of_ne hne]
    exact hphase
  · intro caller stage hnone hphase
    rcases h.idleOrBusy with hidle | ⟨other, stage', hbusy⟩
    · exact hidle.accepts hphase
    · rw [hbusy.active] at hnone
      cases hnone

end ManualTriggerGuard

end Bisakerja
