import BisakerjaScraper.Shared.RateLimit
import Mathlib.Tactic.Linarith

/-! The half-open circuit.

    Past its cooldown the circuit of a limiter is closed by the next attempt, with no failure
    counted. What holds it back afterwards is the count alone: the limiter does not know which
    request was the probe, nor whether a result is that of a request from before. -/

namespace Bisakerja
open Schemes

/-- An event of a request, by the number of the request. The part of `wait_before_request` under the
    lock is one event. -/
abbrev RequestEvent := ℕ × LimiterEvent

/-- The times of the failures since the last success, the newest first. An attempt is turned away
    here, so it is one. -/
def failureTimes (events : List RequestEvent) : List ℚ :=
  events.foldl (fun times event =>
    match event.2 with
    | .attempt _ recordedAt => recordedAt :: times
    | .succeeded => []
    | .failed error now => if error.retryable then now :: times else times) []

namespace SourceRateLimitConfig

variable (config : SourceRateLimitConfig)

/-- The limiter after some events. -/
def stateAfter (events : List RequestEvent) : SourceRateLimiter :=
  config.observeAll (events.map Prod.snd)

/-- An attempt finds an open circuit that has cooled down. -/
def Probes (limiter : SourceRateLimiter) (now : ℚ) : Prop :=
  limiter.circuitOpen = true ∧ config.cooledDown limiter now = true

/-- A probe whose result is not known, with the events since. -/
def ProbeSince (seen : List RequestEvent) (id : ℕ) (between : List RequestEvent) : Prop :=
  ∃ before now recordedAt, seen = before ++ (id, .attempt now recordedAt) :: between ∧
    config.Probes (config.stateAfter before) now ∧ ∀ event ∈ between, event.1 ≠ id

/-- A request whose result is not known, and that was let through a closed circuit. -/
def StartedClosed (seen : List RequestEvent) (id : ℕ) : Prop :=
  ∃ before now recordedAt between, seen = before ++ (id, .attempt now recordedAt) :: between ∧
    (config.stateAfter before).circuitOpen = false ∧ ∀ event ∈ between, event.1 ≠ id

/-- The circuit is half-open between a probe and its result: the probe is let through and no other
    request is, its failure opens the circuit for a cooldown, its success closes it, and a request
    from before the circuit opened does not close it. -/
structure HalfOpen (events : List RequestEvent) : Prop where
  admits : ∀ seen id now recordedAt rest, events = seen ++ (id, .attempt now recordedAt) :: rest →
    config.Probes (config.stateAfter seen) now → ¬ config.TurnsAway (config.stateAfter seen) now
  one : ∀ seen probe between id now recordedAt rest,
    events = seen ++ (id, .attempt now recordedAt) :: rest → config.ProbeSince seen probe between →
      config.TurnsAway (config.stateAfter seen) now
  reopens : ∀ seen probe between error now rest,
    events = seen ++ (probe, .failed error now) :: rest → config.ProbeSince seen probe between →
      ∀ later, later - now < config.circuitBreakerCooldownSeconds →
        config.TurnsAway (config.stateAfter (seen ++ [(probe, .failed error now)])) later
  closes : ∀ seen probe between rest, events = seen ++ (probe, .succeeded) :: rest →
    config.ProbeSince seen probe between →
      (config.stateAfter (seen ++ [(probe, .succeeded)])).circuitOpen = false
  late : ∀ seen id rest, events = seen ++ (id, .succeeded) :: rest →
    config.StartedClosed seen id → (config.stateAfter seen).circuitOpen = true →
      (config.stateAfter (seen ++ [(id, .succeeded)])).circuitOpen = true

/-- Some failures since the last success are enough to open the circuit, and the newest was less
    than a cooldown ago. -/
def StillOpen (times : List ℚ) (now : ℚ) : Prop :=
  config.circuitBreakerFailureThreshold ≤ times.length ∧
    ∃ t, times.head? = some t ∧ now - t < config.circuitBreakerCooldownSeconds

/-- Callers that leave a probe alone: another attempt comes only when enough failures since the
    probe have opened the circuit again, a probe that fails is the last failure needed, and a request
    that was let through a closed circuit does not succeed while it is open. -/
structure LeaveAlone (events : List RequestEvent) : Prop where
  attempts : ∀ seen probe between id now recordedAt rest,
    events = seen ++ (id, .attempt now recordedAt) :: rest → config.ProbeSince seen probe between →
      config.StillOpen (failureTimes between) now
  failures : ∀ seen probe between error now rest,
    events = seen ++ (probe, .failed error now) :: rest → config.ProbeSince seen probe between →
      if error.retryable then
        config.circuitBreakerFailureThreshold ≤ (failureTimes between).length + 1
      else
        config.circuitBreakerFailureThreshold ≤ (failureTimes between).length ∧
          ∃ t, (failureTimes between).head? = some t ∧ now ≤ t
  successes : ∀ seen id rest, events = seen ++ (id, .succeeded) :: rest →
    config.StartedClosed seen id → (config.stateAfter seen).circuitOpen = false

/-- What the limiter knows of the failures since a probe: their number, and when they opened the
    circuit. -/
structure Agrees (limiter : SourceRateLimiter) (times : List ℚ) : Prop where
  count : limiter.failureCount = times.length
  isOpen : limiter.circuitOpen = true ↔ config.circuitBreakerFailureThreshold ≤ times.length
  openedAt : limiter.circuitOpen = true → limiter.circuitOpenedAt = times.head?

variable {config} {limiter : SourceRateLimiter} {times : List ℚ} {events seen : List RequestEvent}

theorem stateAfter_append (seen : List RequestEvent) (event : RequestEvent) :
    config.stateAfter (seen ++ [event]) = config.observe (config.stateAfter seen) event.2 := by
  rw [stateAfter, List.map_append, List.map_singleton, observeAll_append]
  rfl

theorem failureTimes_append (between : List RequestEvent) (event : RequestEvent) :
    failureTimes (between ++ [event]) = match event.2 with
      | .attempt _ recordedAt => recordedAt :: failureTimes between
      | .succeeded => []
      | .failed error now =>
        if error.retryable then now :: failureTimes between else failureTimes between := by
  rw [failureTimes, List.foldl_append]
  rfl

theorem Agrees.turnsAway_iff (h : config.Agrees limiter times) (now : ℚ) :
    config.TurnsAway limiter now ↔ config.StillOpen times now := by
  constructor
  · rintro ⟨hopen, hcool⟩
    have hle := h.isOpen.mp hopen
    have hpos := config.threshold_pos
    obtain ⟨t, ht⟩ : ∃ t, times.head? = some t := by
      cases times with
      | nil => simp at hle; omega
      | cons t _ => exact ⟨t, rfl⟩
    rw [cooledDown, h.openedAt hopen, ht] at hcool
    exact ⟨hle, t, ht, by simpa using hcool⟩
  · rintro ⟨hle, t, ht, hlt⟩
    have hopen := h.isOpen.mpr hle
    refine ⟨hopen, ?_⟩
    rw [cooledDown, h.openedAt hopen, ht]
    simpa using hlt

theorem Agrees.recordFailure (h : config.Agrees limiter times) (now : ℚ) :
    config.Agrees (config.recordFailure limiter now) (now :: times) := by
  obtain ⟨hcount, hopen, -⟩ := h
  by_cases hreached : config.circuitBreakerFailureThreshold ≤ times.length + 1
  · constructor <;> simp [SourceRateLimitConfig.recordFailure, hcount, hreached]
  · have hclosed : limiter.circuitOpen = false := by
      rw [← Bool.not_eq_true, hopen]
      omega
    constructor <;> simp [SourceRateLimitConfig.recordFailure, hcount, hreached, hclosed]

/-- One event since a probe, an attempt being turned away. -/
theorem Agrees.observe {between : List RequestEvent} {event : RequestEvent}
    (h : config.Agrees limiter (failureTimes between))
    (hturned : ∀ now recordedAt, event.2 = .attempt now recordedAt → config.TurnsAway limiter now) :
    config.Agrees (config.observe limiter event.2) (failureTimes (between ++ [event])) := by
  rw [failureTimes_append]
  obtain ⟨id, event⟩ := event
  cases event with
  | attempt now recordedAt =>
    rw [observe_turnedAway (hturned now recordedAt rfl)]
    exact h.recordFailure recordedAt
  | succeeded =>
    have hpos := config.threshold_pos
    exact ⟨rfl, by simp [SourceRateLimitConfig.observe, SourceRateLimiter.recordSuccess]; omega,
      nofun⟩
  | failed error now =>
    simp only [SourceRateLimitConfig.observe, recordRequestError]
    split
    · exact h.recordFailure now
    · exact h

/-- The probe closes the circuit, with no failure counted. -/
theorem agrees_probe {now recordedAt : ℚ} (h : config.Probes limiter now) :
    config.Agrees (config.observe limiter (.attempt now recordedAt)) [] := by
  have hpos := config.threshold_pos
  obtain ⟨hopen, hcool⟩ := h
  have hplain : intTooLarge.isFetchOrParse = false := rfl
  have hreset : (config.observe limiter (.attempt now recordedAt)).failureCount = 0 ∧
      (config.observe limiter (.attempt now recordedAt)).circuitOpen = false := by
    by_cases hbig : exceedsFloat config.requestsPerMinute = true <;>
      simp [SourceRateLimitConfig.observe, waitBeforeRequest, hopen, hcool, schedule, hbig, hplain]
  refine ⟨hreset.1, ?_, fun h => ?_⟩
  · rw [hreset.2, List.length_nil]
    simp
    omega
  · rw [hreset.2] at h
    cases h

/-- Since a probe the limiter knows the failures, as long as every attempt is turned away. -/
theorem agrees_since {before : List RequestEvent} {probe : ℕ} {now recordedAt : ℚ}
    (hprobe : config.Probes (config.stateAfter before) now) (between : List RequestEvent)
    (hturned : ∀ first id at' recorded rest,
      between = first ++ (id, .attempt at' recorded) :: rest →
      config.Agrees (config.stateAfter (before ++ (probe, .attempt now recordedAt) :: first))
        (failureTimes first) →
      config.TurnsAway
        (config.stateAfter (before ++ (probe, .attempt now recordedAt) :: first)) at') :
    config.Agrees (config.stateAfter (before ++ (probe, .attempt now recordedAt) :: between))
      (failureTimes between) := by
  induction between using List.reverseRecOn with
  | nil =>
    rw [stateAfter_append]
    exact agrees_probe hprobe
  | append_singleton first event ih =>
    have hfirst := ih fun first' id at' recorded rest hsplit =>
      hturned first' id at' recorded (rest ++ [event]) (by simp [hsplit])
    have hstate : before ++ (probe, .attempt now recordedAt) :: (first ++ [event])
        = (before ++ (probe, .attempt now recordedAt) :: first) ++ [event] := by simp
    rw [hstate, stateAfter_append]
    refine hfirst.observe fun at' recorded hevent => ?_
    exact hturned first event.1 at' recorded [] (by rw [← hevent]) hfirst

/-- Where no attempt since a probe is let through, the limiter knows the failures since. -/
theorem ProbeSince.agrees {probe : ℕ} {between : List RequestEvent}
    (h : config.ProbeSince seen probe between)
    (hturned : ∀ seen' between' id now recordedAt rest,
      seen = seen' ++ (id, .attempt now recordedAt) :: rest →
      config.ProbeSince seen' probe between' →
      config.Agrees (config.stateAfter seen') (failureTimes between') →
      config.TurnsAway (config.stateAfter seen') now) :
    config.Agrees (config.stateAfter seen) (failureTimes between) := by
  obtain ⟨before, now, recordedAt, rfl, hprobe, hids⟩ := h
  refine agrees_since hprobe between fun first id at' recorded rest hsplit hfirst => ?_
  subst hsplit
  exact hturned _ first id at' recorded rest (by simp)
    ⟨before, now, recordedAt, rfl, hprobe, fun event hevent =>
      hids event (List.mem_append_left _ hevent)⟩ hfirst

/-- What the circuit does when a probe fails. -/
theorem turnsAway_probe_failed {id : ℕ} {error : PyException} {now : ℚ}
    (h : config.Agrees (config.stateAfter seen) times) :
    (∀ later, later - now < config.circuitBreakerCooldownSeconds →
        config.TurnsAway (config.stateAfter (seen ++ [(id, .failed error now)])) later) ↔
      if error.retryable then config.circuitBreakerFailureThreshold ≤ times.length + 1
      else config.circuitBreakerFailureThreshold ≤ times.length ∧
        ∃ t, times.head? = some t ∧ now ≤ t := by
  have hcool := config.cooldown_pos
  simp only [stateAfter_append, SourceRateLimitConfig.observe, recordRequestError]
  split
  · simp only [(h.recordFailure now).turnsAway_iff, StillOpen, List.length_cons, List.head?_cons]
    constructor
    · intro hall
      exact (hall now (by simpa using hcool)).1
    · intro hle later hlater
      exact ⟨hle, now, rfl, hlater⟩
  · simp only [h.turnsAway_iff, StillOpen]
    constructor
    · intro hall
      obtain ⟨hle, t, ht, -⟩ := hall now (by simpa using hcool)
      refine ⟨hle, t, ht, ?_⟩
      by_contra hlt
      -- a cooldown after `t` is less than a cooldown after `now`
      obtain ⟨-, t', ht', hlater⟩ := hall (t + config.circuitBreakerCooldownSeconds) (by linarith)
      rw [ht] at ht'
      cases ht'
      linarith
    · rintro ⟨hle, t, ht, hnow⟩ later hlater
      exact ⟨hle, t, ht, by linarith⟩

end SourceRateLimitConfig

/-- A limiter that opens its circuit with the second failure in a row, for thirty seconds. -/
def twoStrikes : SourceRateLimitConfig := { oneStrike with
  circuitBreakerFailureThreshold := 2
  threshold_pos := by decide }

/-- A request times out. -/
def timesOut (now : ℚ) : LimiterEvent :=
  .failed (.scraper .fetch "source request timed out" none true []) now

/-- Three requests, of which two time out. -/
def twoOfThree : List RequestEvent :=
  [(0, .attempt 0 0), (1, .attempt 0 0), (2, .attempt 0 0), (0, timesOut 1), (1, timesOut 1)]

end Bisakerja
