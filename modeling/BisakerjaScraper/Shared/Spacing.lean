import BisakerjaScraper.Python.Locks
import BisakerjaScraper.Schemes.Slots
import BisakerjaScraper.Shared.RateLimit

/-! Concurrent requests through one limiter.

    A call of `wait_before_request` reserves its time under the lock and sleeps outside of it, while
    other calls reserve theirs and the ends of earlier requests open and close the circuit. Times
    are exact here. -/

namespace Bisakerja
open Schemes

/-- Where a caller of `wait_before_request` stands. -/
inductive WaitPhase where
  | outside
  | atLock
  | sleeping (seconds : ℚ)
  | admitted
  | rejected (error : PyException)

/-- The limiter with its lock and its callers, and the slots of the admitted requests in the order
    in which they held the lock. -/
structure SpacingState where
  limiter : SourceRateLimiter := {}
  lock : Lock := {}
  phase : ℕ → WaitPhase := fun _ => .outside
  book : List (ℕ × Slot ℚ) := []

/-- A caller runs from one await to the next, and `now` is what the clock reads if it gets that far;
    or a request that was let through ends. -/
inductive SpacingEvent where
  | enter (caller : ℕ) (now : ℚ)
  | resume (caller : ℕ) (now : ℚ)
  | wake (caller : ℕ)
  | succeeded
  | failed (error : PyException) (now : ℚ)

/-- The clock readings of an event. -/
def SpacingEvent.reading : SpacingEvent → Option ℚ
  | .enter _ now | .resume _ now | .failed _ now => some now
  | .wake _ | .succeeded => none

/-- A clock that never goes back. -/
def MonotoneClock (events : List SpacingEvent) : Prop :=
  (events.filterMap SpacingEvent.reading).Pairwise (· ≤ ·)

namespace SpacingState

variable (config : SourceRateLimitConfig)

/-- A caller stands elsewhere. -/
def move (s : SpacingState) (caller : ℕ) (phase : WaitPhase) : SpacingState :=
  { s with phase := fun other => if other = caller then phase else s.phase other }

/-- `wait_before_request` under the lock, which it leaves. -/
def reserve (s : SpacingState) (caller : ℕ) (now : ℚ) : SpacingState :=
  match config.waitBeforeRequest s.limiter now with
  | (limiter, .error error) =>
    move { s with limiter := limiter, lock := s.lock.release } caller (.rejected error)
  | (limiter, .ok seconds) =>
    move
      { s with
        limiter := limiter
        lock := s.lock.release
        book := s.book ++ [(caller, ⟨now, seconds⟩)] }
      caller (if 0 < seconds then .sleeping seconds else .admitted)

/-- One event. What a caller cannot do where it stands changes nothing. -/
def step (s : SpacingState) : SpacingEvent → SpacingState
  | .enter caller now =>
    match s.phase caller with
    | .atLock | .sleeping _ => s
    | _ =>
      match s.lock.acquire caller with
      | (lock, true) => reserve config { s with lock } caller now
      | (lock, false) => move { s with lock } caller .atLock
  | .resume caller now =>
    if s.lock.locked = false ∧ s.lock.Woken caller then
      reserve config { s with lock := s.lock.takeUp caller } caller now
    else s
  | .wake caller =>
    match s.phase caller with
    | .sleeping _ => s.move caller .admitted
    | _ => s
  | .succeeded => { s with limiter := s.limiter.recordSuccess }
  | .failed error now => { s with limiter := recordRequestError config s.limiter error now }

/-- The state after some events. -/
def after (events : List SpacingEvent) : SpacingState := events.foldl (step config) {}

/-- The slots of the admitted requests. -/
def slots (s : SpacingState) : List (Slot ℚ) := s.book.map Prod.snd

end SpacingState

namespace SourceRateLimitConfig

variable (config : SourceRateLimitConfig)

/-- `60.0 / self.config.requests_per_minute`. -/
def interval : ℚ := 60 / config.requestsPerMinute

/-- The send times of admitted requests, in the order of the lock: an interval apart, each later
    than the one before, and none later than it takes for that and to be past some time. -/
structure RequestSpacing (past : ℚ → Prop) (slots : List (Slot ℚ)) : Prop where
  apart : Apart config.interval slots
  inOrder : slots.Pairwise fun a b => a.start < b.start
  prompt : Prompt config.interval past slots

theorem interval_pos : 0 < config.interval := by
  have hrequests : (0 : ℚ) < config.requestsPerMinute := by exact_mod_cast config.requests_pos
  exact div_pos (by norm_num) hrequests

end SourceRateLimitConfig

/-! ### One event -/

variable {config : SourceRateLimitConfig} {limiter limiter' : SourceRateLimiter} {now seconds : ℚ}

@[simp] theorem nextAvailableAt_recordFailure (limiter : SourceRateLimiter) (now : ℚ) :
    (config.recordFailure limiter now).nextAvailableAt = limiter.nextAvailableAt := by
  unfold SourceRateLimitConfig.recordFailure
  dsimp only
  split <;> rfl

@[simp] theorem nextAvailableAt_recordRequestError (error : PyException) :
    (recordRequestError config limiter error now).nextAvailableAt = limiter.nextAvailableAt := by
  unfold recordRequestError
  split
  · exact nextAvailableAt_recordFailure limiter now
  · rfl

theorem schedule_ok (h : config.schedule limiter now = (limiter', .ok seconds)) :
    ⟨now, seconds⟩ = firstSlot limiter.nextAvailableAt now ∧
      limiter'.nextAvailableAt
        = (firstSlot limiter.nextAvailableAt now).start + config.interval := by
  unfold SourceRateLimitConfig.schedule at h
  split at h
  · cases h
  · cases h
    refine ⟨rfl, ?_⟩
    rw [start_firstSlot]
    rfl

theorem schedule_error {error : PyException}
    (h : config.schedule limiter now = (limiter', .error error)) : limiter' = limiter := by
  unfold SourceRateLimitConfig.schedule at h
  split at h <;> cases h
  rfl

/-- An admitted request gets the first free slot, whatever the circuit did. -/
theorem waitBeforeRequest_ok (h : config.waitBeforeRequest limiter now = (limiter', .ok seconds)) :
    ⟨now, seconds⟩ = firstSlot limiter.nextAvailableAt now ∧
      limiter'.nextAvailableAt
        = (firstSlot limiter.nextAvailableAt now).start + config.interval := by
  unfold SourceRateLimitConfig.waitBeforeRequest at h
  split at h
  · split at h
    · -- a circuit that is closed again keeps the next free time
      have hslot := schedule_ok h
      exact hslot
    · cases h
  · exact schedule_ok h

/-- A request that is turned away takes no slot. -/
theorem waitBeforeRequest_error {error : PyException}
    (h : config.waitBeforeRequest limiter now = (limiter', .error error)) :
    limiter'.nextAvailableAt = limiter.nextAvailableAt := by
  unfold SourceRateLimitConfig.waitBeforeRequest at h
  split at h
  · split at h
    · rw [schedule_error h]
    · cases h
      rfl
  · rw [schedule_error h]

/-! ### Runs -/

namespace SpacingState

variable {s : SpacingState} {caller : ℕ}

/-- Between two events the lock is free, the slots are booked up to the limiter's next free time,
    and a sleeping caller sleeps for its slot. -/
structure Spaced (config : SourceRateLimitConfig) (s : SpacingState) : Prop where
  free : s.lock = {}
  booked : Booked config.interval 0 s.slots s.limiter.nextAvailableAt
  sleeps : ∀ caller seconds, s.phase caller = .sleeping seconds →
    ∃ slot, (caller, slot) ∈ s.book ∧ slot.wait = seconds

theorem spaced_init : Spaced config {} where
  free := rfl
  booked := Booked.nil _ _
  sleeps _ _ h := by cases h

/-- Moving a caller to where nobody sleeps keeps the slots. -/
theorem Spaced.move (h : Spaced config s) {phase : WaitPhase}
    (hphase : ∀ seconds, phase ≠ .sleeping seconds) : Spaced config (s.move caller phase) where
  free := h.free
  booked := h.booked
  sleeps other seconds hsleeping := by
    unfold SpacingState.move at hsleeping
    dsimp only at hsleeping
    split at hsleeping
    · exact absurd hsleeping (hphase seconds)
    · exact h.sleeps other seconds hsleeping

/-- The limiter may change in everything but its next free time. -/
theorem Spaced.withLimiter (h : Spaced config s) {limiter : SourceRateLimiter}
    (hnext : limiter.nextAvailableAt = s.limiter.nextAvailableAt) :
    Spaced config { s with limiter } where
  free := h.free
  booked := by
    rw [hnext]
    exact h.booked
  sleeps := h.sleeps

/-- A caller under the lock leaves the book in order. -/
theorem Spaced.reserve (h : Spaced config s) (caller : ℕ) (now : ℚ) :
    Spaced config (reserve config { s with lock := { locked := true } } caller now) := by
  unfold SpacingState.reserve
  dsimp only
  split
  · next limiter error hwait =>
    refine Spaced.move ?_ nofun
    exact { free := rfl
            booked := by rw [waitBeforeRequest_error hwait]; exact h.booked
            sleeps := h.sleeps }
  · next limiter seconds hwait =>
    obtain ⟨hslot, hnext⟩ := waitBeforeRequest_ok hwait
    refine { free := rfl, booked := ?_, sleeps := ?_ }
    · have hbooked := h.booked.snoc config.interval_pos.le now
      rw [← hnext, ← hslot] at hbooked
      simpa [slots, SpacingState.move] using hbooked
    · intro other duration hsleeping
      unfold SpacingState.move at hsleeping ⊢
      dsimp only at hsleeping ⊢
      split at hsleeping
      · next hsame =>
        split at hsleeping
        · cases hsleeping
          rw [hsame]
          exact ⟨_, List.mem_append_right _ (List.mem_singleton_self _), rfl⟩
        · cases hsleeping
      · obtain ⟨slot, hslot, hwaits⟩ := h.sleeps other duration hsleeping
        exact ⟨slot, List.mem_append_left _ hslot, hwaits⟩

theorem Spaced.step (h : Spaced config s) (event : SpacingEvent) :
    Spaced config (step config s event) := by
  cases event with
  | enter caller now =>
    have henter : Spaced config
        (match s.lock.acquire caller with
          | (lock, true) => SpacingState.reserve config { s with lock } caller now
          | (lock, false) => SpacingState.move { s with lock } caller .atLock) := by
      rw [h.free, Lock.acquire_free]
      exact h.reserve caller now
    unfold SpacingState.step
    dsimp only
    split
    · exact h
    · exact h
    · exact henter
  | resume caller now =>
    -- the lock is free, so nobody waits for it
    unfold SpacingState.step
    dsimp only
    rw [if_neg]
    · exact h
    · rw [h.free]
      rintro ⟨-, hwoken⟩
      cases hwoken
  | wake caller =>
    unfold SpacingState.step
    dsimp only
    split
    · exact h.move nofun
    · exact h
  | succeeded => exact h.withLimiter rfl
  | failed error now => exact h.withLimiter (nextAvailableAt_recordRequestError error)

theorem spaced_after (config : SourceRateLimitConfig) (events : List SpacingEvent) :
    Spaced config (after config events) := by
  unfold after
  induction events using List.reverseRecOn with
  | nil => exact spaced_init
  | append_singleton events event ih =>
    rw [List.foldl_append]
    exact ih.step event

/-- Whatever the interleaving, the clock and the circuit do: the send times are an interval apart in
    the order of the lock, and none is later than it takes for that and to be past zero. -/
theorem requestSpacing_after (config : SourceRateLimitConfig) (events : List SpacingEvent) :
    config.RequestSpacing (0 ≤ ·) (after config events).slots := by
  have hbooked := (spaced_after config events).booked
  refine ⟨hbooked.apart, hbooked.apart.imp ?_, hbooked.prompt⟩
  intro a b hab
  exact (lt_add_of_pos_right a.start config.interval_pos).trans_le hab

/-- With a clock that reads -1 the first request waits a second for nothing. -/
theorem not_requestSpacing_below_zero :
    MonotoneClock [.enter 0 (-1)] ∧
      ¬ oneStrike.RequestSpacing (fun _ => True) (after oneStrike [.enter 0 (-1)]).slots := by
  refine ⟨List.pairwise_singleton _ _, fun h => ?_⟩
  have hslots : (after oneStrike [.enter 0 (-1)]).slots = [⟨-1, 1⟩] := by
    have hrate : exceedsFloat oneStrike.requestsPerMinute = false := by decide +kernel
    simp [after, step, Lock.acquire, reserve, SourceRateLimitConfig.waitBeforeRequest,
      SourceRateLimitConfig.schedule, hrate, slots, move]
  have hwait := h.prompt [] ⟨-1, 1⟩ [] hslots 0 trivial ⟨le_refl _, by simp⟩
  norm_num at hwait

end SpacingState

end Bisakerja
