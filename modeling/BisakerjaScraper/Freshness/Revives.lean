import BisakerjaScraper.Freshness.Service
import BisakerjaScraper.Sync.Partition

/-! Jobs the sweep brings back.

    A job that was not seen gets its status by its age alone, whatever its status was. So an expired
    or a closed job that is no older than stale becomes stale, and is synced again. -/

namespace Bisakerja
open Schemes

/-- A later status and one that is earlier than it: `ACTIVE`, `STALE`, `EXPIRED` in this order, with
    `INACTIVE` behind `ACTIVE` and not to be left for `STALE`. -/
def CanonicalJobStatus.MovesBack : CanonicalJobStatus → CanonicalJobStatus → Prop
  | .stale, .active => True
  | .expired, .active => True
  | .inactive, .active => True
  | .expired, .stale => True
  | .inactive, .stale => True
  | _, _ => False

namespace CanonicalJobStatus

theorem not_movesBack_self (status : CanonicalJobStatus) : ¬ status.MovesBack status := by
  cases status with
  | active => exact id
  | stale => exact id
  | inactive => exact id
  | expired => exact id
  | unknown => exact id

/-- Nothing is later than `EXPIRED`. -/
theorem not_movesBack_expired (status : CanonicalJobStatus) : ¬ status.MovesBack .expired := by
  cases status with
  | active => exact id
  | stale => exact id
  | inactive => exact id
  | expired => exact id
  | unknown => exact id

end CanonicalJobStatus

namespace SweepCall

variable (call : SweepCall)

/-- The sweep finds a row stale by its age. -/
def StaleByAge (job : NormalizedJob) : Prop :=
  timedeltaHours call.policy.staleAfterHours ≤ call.now - job.lastSeenAt ∧
    call.now - job.lastSeenAt < timedeltaHours call.policy.expiredAfterHours

/-- The sweep moves no row back that was not seen. -/
def NeverRevives (db : NormalizedJobs) : Prop :=
  ∀ row ∈ db.rows, row.externalId ∉ call.seenExternalIds →
    ∀ after, (call.sweepSource db).1.find? row.id = some after →
      ¬ row.status.MovesBack after.status

/-- After a successful run no expired or closed row of the source is stale by its age. -/
def NoneStaleAgain (db : NormalizedJobs) : Prop :=
  call.sourceRunSuccessful = true → ∀ row ∈ db.rows, row.sourcePlatform = call.sourcePlatform →
    row.externalId ∉ call.seenExternalIds → row.status = .expired ∨ row.status = .inactive →
      ¬ call.StaleByAge row

variable {call}

/-- What becomes of a row that was not seen, by its age. -/
theorem swept_cases {job : NormalizedJob} (hunseen : job.externalId ∉ call.seenExternalIds) :
    (call.sourceRunSuccessful = true ∧ call.StaleByAge job ∧
        call.swept job = { job with status := .stale }) ∨
      (¬ (call.sourceRunSuccessful = true ∧ call.StaleByAge job) ∧
        ((call.swept job).status = .expired ∨ (call.swept job).status = job.status)) := by
  cases hrun : call.sourceRunSuccessful with
  | false =>
    refine .inr ⟨by simp, .inr ?_⟩
    rw [swept_of_failed hunseen hrun]
  | true =>
    unfold swept sweepJob StaleByAge
    by_cases hexpired : timedeltaHours call.policy.expiredAfterHours ≤ call.now - job.lastSeenAt
    · simp [hunseen, hrun, hexpired, Int.not_lt.mpr hexpired]
    · by_cases hstale : timedeltaHours call.policy.staleAfterHours ≤ call.now - job.lastSeenAt
      · simp [hunseen, hrun, hexpired, hstale, Int.not_le.mp hexpired]
      · simp [hunseen, hrun, hexpired, hstale]

/-- A row that was not seen moves back exactly if it is expired or closed, and stale by its age. -/
theorem movesBack_swept_iff {job : NormalizedJob}
    (hunseen : job.externalId ∉ call.seenExternalIds) :
    job.status.MovesBack (call.swept job).status ↔
      call.sourceRunSuccessful = true ∧ (job.status = .expired ∨ job.status = .inactive) ∧
        call.StaleByAge job := by
  rcases swept_cases hunseen with ⟨hrun, hstale, heq⟩ | ⟨hnot, hstatus⟩
  · rw [heq]
    simp only [hrun, hstale, true_and, and_true]
    cases job.status with
    | active => simp [CanonicalJobStatus.MovesBack]
    | stale => simp [CanonicalJobStatus.MovesBack]
    | inactive => simp [CanonicalJobStatus.MovesBack]
    | expired => simp [CanonicalJobStatus.MovesBack]
    | unknown => simp [CanonicalJobStatus.MovesBack]
  · refine iff_of_false ?_ fun h => hnot ⟨h.1, h.2.2⟩
    rcases hstatus with hexpired | hsame
    · rw [hexpired]
      exact CanonicalJobStatus.not_movesBack_expired _
    · rw [hsame]
      exact CanonicalJobStatus.not_movesBack_self _

/-- The sweep revives no row exactly if none that is expired or closed is stale by its age. -/
theorem neverRevives_iff (call : SweepCall) (db : NormalizedJobs) :
    call.NeverRevives db ↔ call.NoneStaleAgain db := by
  constructor
  · intro hnever hrun row hrow hsource hunseen hstatus hstale
    refine hnever row hrow hunseen _ (find?_sweepSource hrow) ?_
    rw [if_pos hsource]
    exact (movesBack_swept_iff hunseen).mpr ⟨hrun, hstatus, hstale⟩
  · intro hnone row hrow hunseen after hafter
    rw [find?_sweepSource hrow, Option.some.injEq] at hafter
    subst hafter
    by_cases hsource : row.sourcePlatform = call.sourcePlatform
    · rw [if_pos hsource, movesBack_swept_iff hunseen]
      rintro ⟨hrun, hstatus, hstale⟩
      exact hnone hrun row hrow hsource hunseen hstatus hstale
    · rw [if_neg hsource]
      exact CanonicalJobStatus.not_movesBack_self _

end SweepCall

/-- A sweep of Dealls thirty hours after time zero in which nothing was seen. -/
def thirtyHoursLater : SweepCall where
  policy := ⟨24, 72, by decide, by decide⟩
  sourcePlatform := "dealls"
  seenExternalIds := ∅
  sourceRunSuccessful := true
  now := timedeltaHours 30

/-- A job that expired. -/
def expiredJob : NormalizedJob := { plainJob "a" "Ac" 0 with status := .expired }

/-- A job that was closed. -/
def closedJob : NormalizedJob := { plainJob "b" "Ac" 0 with status := .inactive }

/-- An expired job and a closed one. -/
def expiredAndClosed : NormalizedJobs := ⟨[expiredJob, closedJob], by decide⟩

/-- Both become stale again. -/
theorem expired_and_closed_revived :
    (thirtyHoursLater.sweepSource expiredAndClosed).1.rows.map NormalizedJob.status
        = [.stale, .stale] ∧
      ¬ thirtyHoursLater.NeverRevives expiredAndClosed := by
  constructor
  · rw [SweepCall.rows_sweepSource]
    decide
  · intro hnever
    refine hnever expiredJob List.mem_cons_self (by decide) _
      (SweepCall.find?_sweepSource List.mem_cons_self) ?_
    rw [if_pos (show expiredJob.sourcePlatform = thirtyHoursLater.sourcePlatform from rfl)]
    exact (SweepCall.movesBack_swept_iff (by decide)).mpr ⟨rfl, .inl rfl, by decide, by decide⟩

end Bisakerja
