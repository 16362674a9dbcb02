import BisakerjaScraper.Python.Numbers
import BisakerjaScraper.Shared.Requests
import Mathlib.Algebra.Order.Ring.Rat
import Mathlib.Data.List.Induction
import Mathlib.Tactic.NormNum

/-! The rate limiter of a source, with its circuit breaker.

    The limiter spaces the requests of a source, and stops them for a while after repeated failures.
    A request it stops fails like any other, so the client records the rejection as one more failure,
    and the clock of the open circuit starts again. Times are seconds of a monotonic clock. -/

namespace Bisakerja
open Schemes

/-- `RETRIABLE_STATUS_CODES`. -/
def retriableStatusCodes : List ℕ := [408, 429, 500, 502, 503, 504]

/-- `is_retriable_status`. -/
def isRetriableStatus (statusCode : ℕ) : Bool := statusCode ∈ retriableStatusCodes

/-- `SourceRateLimitConfig`. -/
structure SourceRateLimitConfig where
  sourcePlatform : String
  requestsPerMinute : ℕ
  initialBackoffSeconds : ℚ := 1 / 5
  maxBackoffSeconds : ℚ := 30
  circuitBreakerFailureThreshold : ℕ := 3
  circuitBreakerCooldownSeconds : ℚ := 30
  platform_nonempty : sourcePlatform ≠ ""
  requests_pos : 0 < requestsPerMinute
  initial_nonneg : 0 ≤ initialBackoffSeconds
  initial_le_max : initialBackoffSeconds ≤ maxBackoffSeconds
  threshold_pos : 0 < circuitBreakerFailureThreshold
  cooldown_pos : 0 < circuitBreakerCooldownSeconds

/-- `SourceRateLimiter`, past its configuration. -/
structure SourceRateLimiter where
  nextAvailableAt : ℚ := 0
  failureCount : ℕ := 0
  circuitOpen : Bool := false
  circuitOpenedAt : Option ℚ := none

/-- An `int` that no float can hold: it rounds to 2 ** 1024. -/
def exceedsFloat (n : ℕ) : Bool := 2 ^ 1024 - 2 ^ 970 ≤ n

/-- `int` to `float` where it is too large. -/
def intTooLarge : PyException := .plain "OverflowError" "int too large to convert to float"

/-- `round(seconds, 3)` of a number that is not negative. -/
def roundMillis (seconds : ℚ) : ℚ :=
  (roundHalfEven (seconds.num.toNat * 1000) seconds.den : ℕ) / 1000

namespace SourceRateLimitConfig

variable (config : SourceRateLimitConfig)

/-- The `FetchError` of an open circuit. -/
def circuitIsOpen (limiter : SourceRateLimiter) (now : ℚ) : PyException :=
  let waited := match limiter.circuitOpenedAt with
    | some openedAt => now - openedAt
    | none => 0
  .scraper .fetch "source circuit breaker is open" none true
    [("failureCount", .int limiter.failureCount),
      ("retryAfterSeconds", .float (.finite (roundMillis
        (max (config.circuitBreakerCooldownSeconds - waited) 0))))]

/-- The circuit has been open for its cooldown. -/
def cooledDown (limiter : SourceRateLimiter) (now : ℚ) : Bool :=
  match limiter.circuitOpenedAt with
  | some openedAt => config.circuitBreakerCooldownSeconds ≤ now - openedAt
  | none => false

/-- The part of `wait_before_request` past the circuit: the request gets its place. -/
def schedule (limiter : SourceRateLimiter) (now : ℚ) :
    SourceRateLimiter × Except PyException ℚ :=
  if exceedsFloat config.requestsPerMinute then (limiter, .error intTooLarge)
  else
    ({ limiter with
        nextAvailableAt := max now limiter.nextAvailableAt + 60 / config.requestsPerMinute },
      .ok (max (limiter.nextAvailableAt - now) 0))

/-- `wait_before_request`: the limiter afterwards, and the seconds to sleep. -/
def waitBeforeRequest (limiter : SourceRateLimiter) (now : ℚ) :
    SourceRateLimiter × Except PyException ℚ :=
  if limiter.circuitOpen then
    if config.cooledDown limiter now then
      config.schedule
        { limiter with failureCount := 0, circuitOpen := false, circuitOpenedAt := none } now
    else (limiter, .error (config.circuitIsOpen limiter now))
  else config.schedule limiter now

/-- `record_failure`. -/
def recordFailure (limiter : SourceRateLimiter) (now : ℚ) : SourceRateLimiter :=
  let limiter := { limiter with failureCount := limiter.failureCount + 1 }
  if config.circuitBreakerFailureThreshold ≤ limiter.failureCount then
    { limiter with circuitOpen := true, circuitOpenedAt := some now }
  else limiter

/-- `backoff_delay`. -/
def backoffDelay (failureCount : ℕ) : Except PyException ℚ :=
  if failureCount = 0 then .ok 0
  else if exceedsFloat (2 ^ (failureCount - 1)) then .error intTooLarge
  else .ok (min (config.initialBackoffSeconds * 2 ^ (failureCount - 1)) config.maxBackoffSeconds)

end SourceRateLimitConfig

/-- `record_success`. -/
def SourceRateLimiter.recordSuccess (limiter : SourceRateLimiter) : SourceRateLimiter :=
  { limiter with failureCount := 0, circuitOpen := false, circuitOpenedAt := none }

/-- `_record_request_error`: a retryable `FetchError` is a failure. -/
def recordRequestError (config : SourceRateLimitConfig) (limiter : SourceRateLimiter)
    (error : PyException) (now : ℚ) : SourceRateLimiter :=
  if error.retryable then config.recordFailure limiter now else limiter

/-! ### The circuit under the client -/

/-- What the client makes the limiter see: an attempt that asks for its place, and the ends of
    requests that were let through. Attempts of different calls may come in any order. -/
inductive LimiterEvent where
  | attempt (now recordedAt : ℚ)
  | succeeded
  | failed (error : PyException) (now : ℚ)

namespace SourceRateLimitConfig

variable (config : SourceRateLimitConfig)

/-- The limiter after an event. The `FetchError` of an attempt that is turned away comes out of
    `_request_bytes_once` like any other, and is recorded. -/
def observe (limiter : SourceRateLimiter) : LimiterEvent → SourceRateLimiter
  | .attempt now recordedAt =>
    match config.waitBeforeRequest limiter now with
    | (limiter, .ok _) => limiter
    | (limiter, .error error) =>
      if error.isFetchOrParse then recordRequestError config limiter error recordedAt else limiter
  | .succeeded => limiter.recordSuccess
  | .failed error now => recordRequestError config limiter error now

/-- The limiter after some events. -/
def observeAll (events : List LimiterEvent) : SourceRateLimiter :=
  events.foldl config.observe {}

/-- An attempt is turned away: the circuit is open and has not cooled down. -/
def TurnsAway (limiter : SourceRateLimiter) (now : ℚ) : Prop :=
  limiter.circuitOpen = true ∧ config.cooledDown limiter now = false

/-- Every event of a list is an attempt that is turned away. -/
def AllTurnedAway (limiter : SourceRateLimiter) (events : List LimiterEvent) : Prop :=
  ∀ before event rest, events = before ++ event :: rest →
    ∃ now recordedAt, event = .attempt now recordedAt ∧
      config.TurnsAway (before.foldl config.observe limiter) now

/-- The circuit recovers: an attempt that is turned away leaves the count and the opening time, and
    once the cooldown has passed since the circuit opened, an attempt is let through however many
    were turned away. -/
structure Recovers (events : List LimiterEvent) : Prop where
  leaves : ∀ before now recordedAt rest, events = before ++ .attempt now recordedAt :: rest →
    config.TurnsAway (config.observeAll before) now →
      (config.observeAll (before ++ [.attempt now recordedAt])).failureCount
          = (config.observeAll before).failureCount ∧
        (config.observeAll (before ++ [.attempt now recordedAt])).circuitOpenedAt
          = (config.observeAll before).circuitOpenedAt
  letsThrough : ∀ before rejected now recordedAt rest openedAt,
    events = before ++ rejected ++ .attempt now recordedAt :: rest →
    (config.observeAll before).circuitOpenedAt = some openedAt →
    config.AllTurnedAway (config.observeAll before) rejected →
    config.circuitBreakerCooldownSeconds ≤ now - openedAt →
      ¬ config.TurnsAway (config.observeAll (before ++ rejected)) now

/-- No attempt is turned away. -/
def NoneTurnedAway (events : List LimiterEvent) : Prop :=
  ∀ before now recordedAt rest, events = before ++ .attempt now recordedAt :: rest →
    ¬ config.TurnsAway (config.observeAll before) now

variable {config}

/-- An attempt that is turned away is one more failure, and the circuit opens again. -/
theorem observe_turnedAway {limiter : SourceRateLimiter} {now recordedAt : ℚ}
    (h : config.TurnsAway limiter now) :
    config.observe limiter (.attempt now recordedAt) = config.recordFailure limiter recordedAt := by
  obtain ⟨hopen, hcool⟩ := h
  unfold observe waitBeforeRequest
  simp [hopen, hcool, circuitIsOpen, PyException.isFetchOrParse, recordRequestError,
    PyException.retryable]

@[simp] theorem failureCount_recordFailure (limiter : SourceRateLimiter) (now : ℚ) :
    (config.recordFailure limiter now).failureCount = limiter.failureCount + 1 := by
  unfold recordFailure
  dsimp only
  split <;> rfl

theorem observeAll_append (before : List LimiterEvent) (event : LimiterEvent) :
    config.observeAll (before ++ [event]) = config.observe (config.observeAll before) event := by
  unfold observeAll
  rw [List.foldl_append]
  rfl

/-- An open circuit has reached its threshold. -/
def Reached (config : SourceRateLimitConfig) (limiter : SourceRateLimiter) : Prop :=
  limiter.circuitOpen = true → config.circuitBreakerFailureThreshold ≤ limiter.failureCount

theorem reached_recordFailure (limiter : SourceRateLimiter) (now : ℚ) (h : config.Reached limiter) :
    config.Reached (config.recordFailure limiter now) := by
  intro hopen
  unfold recordFailure at hopen ⊢
  dsimp only at hopen ⊢
  split at hopen
  · next hreached =>
    rw [if_pos hreached]
    exact hreached
  · next hshort =>
    have hreached := h hopen
    exact absurd (hreached.trans (Nat.le_succ _)) hshort

theorem reached_recordRequestError (limiter : SourceRateLimiter) (error : PyException) (now : ℚ)
    (h : config.Reached limiter) : config.Reached (recordRequestError config limiter error now) := by
  unfold recordRequestError
  split
  · exact reached_recordFailure limiter now h
  · exact h

theorem reached_schedule (limiter : SourceRateLimiter) (now : ℚ) (h : config.Reached limiter) :
    config.Reached (config.schedule limiter now).1 := by
  unfold schedule
  split <;> exact h

theorem reached_observe (limiter : SourceRateLimiter) (event : LimiterEvent)
    (h : config.Reached limiter) : config.Reached (config.observe limiter event) := by
  cases event with
  | succeeded => exact nofun
  | failed error now => exact reached_recordRequestError limiter error now h
  | attempt now recordedAt =>
    have hwait : config.Reached (config.waitBeforeRequest limiter now).1 := by
      unfold waitBeforeRequest
      split
      · split
        · exact reached_schedule _ now nofun
        · exact h
      · exact reached_schedule limiter now h
    simp only [observe]
    generalize config.waitBeforeRequest limiter now = waited at hwait
    obtain ⟨limiter', error | seconds⟩ := waited
    · dsimp only
      split
      · exact reached_recordRequestError _ _ _ hwait
      · exact hwait
    · exact hwait

theorem reached_observeAll (events : List LimiterEvent) :
    config.Reached (config.observeAll events) := by
  induction events using List.reverseRecOn with
  | nil => exact nofun
  | append_singleton before event ih =>
    rw [observeAll_append]
    exact reached_observe _ event ih

/-- The clock of the circuit starts again with every attempt that is turned away. -/
theorem openedAt_turnedAway (events : List LimiterEvent) {now recordedAt : ℚ}
    (h : config.TurnsAway (config.observeAll events) now) :
    (config.observeAll (events ++ [.attempt now recordedAt])).circuitOpenedAt = some recordedAt := by
  have hreached := reached_observeAll events h.1
  rw [observeAll_append, observe_turnedAway h]
  unfold recordFailure
  dsimp only
  rw [if_pos (hreached.trans (Nat.le_succ _))]

end SourceRateLimitConfig

/-- A limiter that opens its circuit with the first failure, for thirty seconds. -/
def oneStrike : SourceRateLimitConfig where
  sourcePlatform := "glints"
  requestsPerMinute := 60
  circuitBreakerFailureThreshold := 1
  platform_nonempty := by decide
  requests_pos := by decide
  initial_nonneg := by norm_num
  initial_le_max := by norm_num
  threshold_pos := by decide
  cooldown_pos := by norm_num

/-- A request that timed out at 0, an attempt at 29, and one at 31. -/
def impatient : List LimiterEvent :=
  [.attempt 0 0, .failed (.scraper .fetch "source request timed out" none true []) 0,
    .attempt 29 29, .attempt 31 31]

end Bisakerja
