import BisakerjaScraper.Persistence.Models
import Mathlib.Data.Finset.Card
import Mathlib.Data.String.Basic

/-! The freshness sweep of a source.

    The sweep goes over the normalized rows of one source. A row that was seen becomes `ACTIVE` with
    the time of the sweep; after a successful run a row that was not seen becomes `STALE` or
    `EXPIRED` by its age. Every row of the source goes into exactly one of the counts, and the sweep
    is idempotent: what it makes of a row is what it would make of it again. -/

namespace Bisakerja
open Schemes

/-- `FreshnessPolicy`. -/
structure FreshnessPolicy where
  staleAfterHours : ℤ
  expiredAfterHours : ℤ
  stale_pos : 1 ≤ staleAfterHours
  stale_lt_expired : staleAfterHours < expiredAfterHours

/-- `FreshnessSweepSummary`. -/
structure FreshnessSweepSummary where
  sourcePlatform : String
  activeCount : ℕ := 0
  staleCount : ℕ := 0
  expiredCount : ℕ := 0
  reactivatedCount : ℕ := 0
  unchangedCount : ℕ := 0
  /-- `metadata["seen"]` -/
  seen : ℕ := 0
  /-- `metadata["total"]` -/
  total : ℕ := 0

/-- `timedelta(hours=hours)`. -/
def timedeltaHours (hours : ℤ) : ℤ := hours * 3600000000

/-- What a sweep is called with. -/
structure SweepCall where
  policy : FreshnessPolicy
  sourcePlatform : String
  seenExternalIds : Finset String
  sourceRunSuccessful : Bool
  now : Time

namespace SweepCall

variable (call : SweepCall)

/-- One turn of the loop: the row and the counts after it. -/
def sweepJob (job : NormalizedJob) (summary : FreshnessSweepSummary) :
    NormalizedJob × FreshnessSweepSummary :=
  if job.externalId ∈ call.seenExternalIds then
    ({ job with status := .active, lastSeenAt := call.now },
      if job.status ≠ .active then { summary with reactivatedCount := summary.reactivatedCount + 1 }
      else { summary with unchangedCount := summary.unchangedCount + 1 })
  else if !call.sourceRunSuccessful then
    (job, { summary with unchangedCount := summary.unchangedCount + 1 })
  else if timedeltaHours call.policy.expiredAfterHours ≤ call.now - job.lastSeenAt then
    ({ job with status := .expired },
      if job.status ≠ .expired then { summary with expiredCount := summary.expiredCount + 1 }
      else { summary with unchangedCount := summary.unchangedCount + 1 })
  else if timedeltaHours call.policy.staleAfterHours ≤ call.now - job.lastSeenAt then
    ({ job with status := .stale },
      if job.status ≠ .stale then { summary with staleCount := summary.staleCount + 1 }
      else { summary with unchangedCount := summary.unchangedCount + 1 })
  else (job, { summary with unchangedCount := summary.unchangedCount + 1 })

/-- The loop over the rows of the source. -/
def sweepJobs : List NormalizedJob → FreshnessSweepSummary →
    List NormalizedJob × FreshnessSweepSummary
  | [], summary => ([], summary)
  | job :: rest, summary =>
    let (job, summary) := call.sweepJob job summary
    let (rest, summary) := sweepJobs rest summary
    (job :: rest, summary)

/-- The rows of the source, by external id. -/
def sourceJobs (db : NormalizedJobs) : List NormalizedJob :=
  (db.rows.filter fun job => job.sourcePlatform = call.sourcePlatform).mergeSort
    fun job other => job.externalId ≤ other.externalId

end SweepCall

/-- `session.flush()` after the loop: the two columns it sets, of the rows it holds. -/
def flushSwept (db : NormalizedJobs) (jobs : List NormalizedJob) : NormalizedJobs :=
  ⟨db.rows.map fun row =>
    match jobs.find? (·.id = row.id) with
    | some job => { row with status := job.status, lastSeenAt := job.lastSeenAt }
    | none => row, by
    rw [List.map_map]
    refine (List.map_congr_left fun row _ => ?_).symm ▸ db.unique
    dsimp only [Function.comp]
    split <;> rfl⟩

/-- `FreshnessService.sweep_source`. -/
def SweepCall.sweepSource (call : SweepCall) (db : NormalizedJobs) :
    NormalizedJobs × FreshnessSweepSummary :=
  let jobs := call.sourceJobs db
  let (swept, summary) := call.sweepJobs jobs { sourcePlatform := call.sourcePlatform }
  (flushSwept db swept,
    { summary with
      activeCount := (swept.filter fun job => job.status = .active).length
      seen := call.seenExternalIds.card
      total := jobs.length })

/-! ### One row -/

/-- The rows counted so far, each once. -/
def FreshnessSweepSummary.counted (summary : FreshnessSweepSummary) : ℕ :=
  summary.reactivatedCount + summary.staleCount + summary.expiredCount + summary.unchangedCount

namespace SweepCall

variable {call : SweepCall}

/-- What the sweep makes of a row. -/
def swept (call : SweepCall) (job : NormalizedJob) : NormalizedJob :=
  (call.sweepJob job { sourcePlatform := call.sourcePlatform }).1

/-- What becomes of a row does not depend on the counts. -/
theorem sweepJob_fst (job : NormalizedJob) (summary : FreshnessSweepSummary) :
    (call.sweepJob job summary).1 = call.swept job := by
  unfold swept sweepJob
  repeat' split
  all_goals rfl

/-- A row is counted once. -/
theorem counted_sweepJob (job : NormalizedJob) (summary : FreshnessSweepSummary) :
    (call.sweepJob job summary).2.counted = summary.counted + 1 := by
  unfold sweepJob FreshnessSweepSummary.counted
  repeat' split
  all_goals
    dsimp only
    omega

/-- The sweep sets two columns of a row. -/
theorem swept_columns (job : NormalizedJob) : ∃ status lastSeenAt,
    call.swept job = { job with status := status, lastSeenAt := lastSeenAt } := by
  unfold swept sweepJob
  repeat' split
  all_goals exact ⟨_, _, rfl⟩

/-- A row that was seen is active, and was seen now. -/
theorem swept_of_seen {job : NormalizedJob} (h : job.externalId ∈ call.seenExternalIds) :
    call.swept job = { job with status := .active, lastSeenAt := call.now } := by
  unfold swept sweepJob
  rw [if_pos h]

/-- A failed run leaves a row that was not seen. -/
theorem swept_of_failed {job : NormalizedJob} (h : job.externalId ∉ call.seenExternalIds)
    (hfailed : call.sourceRunSuccessful = false) : call.swept job = job := by
  unfold swept sweepJob
  rw [if_neg h, hfailed]
  rfl

/-- A swept row is left as it is, and counts as unchanged. -/
theorem sweepJob_swept (job : NormalizedJob) (summary : FreshnessSweepSummary) :
    call.sweepJob (call.swept job) summary =
      (call.swept job, { summary with unchangedCount := summary.unchangedCount + 1 }) := by
  by_cases hseen : job.externalId ∈ call.seenExternalIds
  · rw [swept_of_seen hseen]
    unfold sweepJob
    simp [hseen]
  · cases hrun : call.sourceRunSuccessful with
    | false =>
      rw [swept_of_failed hseen hrun]
      unfold sweepJob
      simp [hseen, hrun]
    | true =>
      unfold swept sweepJob
      by_cases hexpired : timedeltaHours call.policy.expiredAfterHours ≤ call.now - job.lastSeenAt
      · simp [hseen, hrun, hexpired]
      · by_cases hstale : timedeltaHours call.policy.staleAfterHours ≤ call.now - job.lastSeenAt
        · simp [hseen, hrun, hexpired, hstale]
        · simp [hseen, hrun, hexpired, hstale]

/-! ### The loop -/

theorem sweepJobs_fst (jobs : List NormalizedJob) (summary : FreshnessSweepSummary) :
    (call.sweepJobs jobs summary).1 = jobs.map call.swept := by
  induction jobs generalizing summary with
  | nil => rfl
  | cons job rest ih =>
    simp only [sweepJobs, List.map_cons, sweepJob_fst, ih]

theorem counted_sweepJobs (call : SweepCall) (jobs : List NormalizedJob) (summary : FreshnessSweepSummary) :
    (call.sweepJobs jobs summary).2.counted = summary.counted + jobs.length := by
  induction jobs generalizing summary with
  | nil => rfl
  | cons job rest ih =>
    simp only [sweepJobs, ih, counted_sweepJob, List.length_cons]
    omega

/-- The loop over swept rows changes none and counts them as unchanged. -/
theorem sweepJobs_swept (call : SweepCall) {jobs : List NormalizedJob} (summary : FreshnessSweepSummary)
    (h : ∀ job ∈ jobs, ∃ old, job = call.swept old) :
    call.sweepJobs jobs summary =
      (jobs, { summary with unchangedCount := summary.unchangedCount + jobs.length }) := by
  induction jobs generalizing summary with
  | nil => rfl
  | cons job rest ih =>
    obtain ⟨old, rfl⟩ := h job List.mem_cons_self
    simp only [sweepJobs, sweepJob_swept]
    rw [ih _ fun job hjob => h job (List.mem_cons_of_mem _ hjob)]
    simp only [List.length_cons, Nat.add_assoc, Nat.add_comm 1]

/-! ### The table -/

theorem mem_sourceJobs {db : NormalizedJobs} {job : NormalizedJob} :
    job ∈ call.sourceJobs db ↔ job ∈ db.rows ∧ job.sourcePlatform = call.sourcePlatform := by
  simp [sourceJobs]

@[simp] theorem id_swept (job : NormalizedJob) : (call.swept job).id = job.id := by
  obtain ⟨status, lastSeenAt, h⟩ := call.swept_columns job
  rw [h]

@[simp] theorem sourcePlatform_swept (job : NormalizedJob) :
    (call.swept job).sourcePlatform = job.sourcePlatform := by
  obtain ⟨status, lastSeenAt, h⟩ := call.swept_columns job
  rw [h]

/-- The row a loop leaves for a row of the table, if it is one of the source. -/
theorem find?_swept {db : NormalizedJobs} {row : NormalizedJob} (hrow : row ∈ db.rows) :
    ((call.sourceJobs db).map call.swept).find? (fun job => job.id = row.id) =
      if row.sourcePlatform = call.sourcePlatform then some (call.swept row) else none := by
  have hsame : ∀ job ∈ call.sourceJobs db, job.id = row.id → job = row := fun job hjob hid =>
    List.inj_on_of_nodup_map db.unique (mem_sourceJobs.mp hjob).1 hrow hid
  split
  · next hsource =>
    cases hfind : ((call.sourceJobs db).map call.swept).find? (fun job => job.id = row.id) with
    | none =>
      rw [List.find?_eq_none] at hfind
      have hmem := List.mem_map_of_mem (f := call.swept) (mem_sourceJobs.mpr ⟨hrow, hsource⟩)
      exact absurd (by simp) (hfind _ hmem)
    | some job =>
      obtain ⟨old, hold, rfl⟩ := List.mem_map.mp (List.mem_of_find?_eq_some hfind)
      have hid : old.id = row.id := by simpa using List.find?_some hfind
      rw [hsame old hold hid]
  · next hother =>
    rw [List.find?_eq_none]
    intro job hjob hid
    obtain ⟨old, hold, rfl⟩ := List.mem_map.mp hjob
    have heq := hsame old hold (by simpa using hid)
    exact hother (heq ▸ (mem_sourceJobs.mp hold).2)

/-- The sweep rewrites the rows of the source, each on its own. -/
theorem rows_sweepSource (db : NormalizedJobs) : (call.sweepSource db).1.rows =
    db.rows.map fun row =>
      if row.sourcePlatform = call.sourcePlatform then call.swept row else row := by
  unfold sweepSource flushSwept
  dsimp only
  refine List.map_congr_left fun row hrow => ?_
  rw [sweepJobs_fst, find?_swept hrow]
  obtain ⟨status, lastSeenAt, h⟩ := call.swept_columns row
  by_cases hsource : row.sourcePlatform = call.sourcePlatform <;> simp [hsource, h]

/-- What the sweep leaves under the id of a row. -/
theorem find?_sweepSource {db : NormalizedJobs} {row : NormalizedJob} (hrow : row ∈ db.rows) :
    (call.sweepSource db).1.find? row.id =
      some (if row.sourcePlatform = call.sourcePlatform then call.swept row else row) := by
  refine Table.find?_eq_some_iff.mpr ⟨?_, ?_⟩
  · rw [rows_sweepSource]
    exact List.mem_map_of_mem (f := fun row =>
      if row.sourcePlatform = call.sourcePlatform then call.swept row else row) hrow
  · split <;> simp

/-- After a sweep every row of the source is a swept one. -/
theorem swept_of_mem_sourceJobs {db : NormalizedJobs} {job : NormalizedJob}
    (h : job ∈ call.sourceJobs (call.sweepSource db).1) : ∃ old, job = call.swept old := by
  obtain ⟨hmem, hsource⟩ := mem_sourceJobs.mp h
  rw [rows_sweepSource] at hmem
  obtain ⟨old, -, rfl⟩ := List.mem_map.mp hmem
  split at hsource
  · next hold => exact ⟨old, if_pos hold⟩
  · next hold => exact absurd hsource hold

/-! ### The sweep -/

/-- What a sweep promises. -/
structure Sweeps (call : SweepCall) (db : NormalizedJobs) : Prop where
  sameRows : (call.sweepSource db).1.rows.map NormalizedJob.id = db.rows.map NormalizedJob.id
  otherSource : ∀ row ∈ db.rows, row.sourcePlatform ≠ call.sourcePlatform →
    (call.sweepSource db).1.find? row.id = some row
  failedRun : call.sourceRunSuccessful = false → ∀ row ∈ db.rows,
    row.externalId ∉ call.seenExternalIds → (call.sweepSource db).1.find? row.id = some row
  seen : ∀ row ∈ db.rows, row.sourcePlatform = call.sourcePlatform →
    row.externalId ∈ call.seenExternalIds →
      (call.sweepSource db).1.find? row.id =
        some { row with status := .active, lastSeenAt := call.now }
  counted : (call.sweepSource db).2.counted = (call.sweepSource db).2.total
  total : (call.sweepSource db).2.total =
    db.rows.countP fun row => row.sourcePlatform = call.sourcePlatform
  idempotent : (call.sweepSource (call.sweepSource db).1).1 = (call.sweepSource db).1
  noChange : (call.sweepSource (call.sweepSource db).1).2.reactivatedCount = 0 ∧
    (call.sweepSource (call.sweepSource db).1).2.staleCount = 0 ∧
    (call.sweepSource (call.sweepSource db).1).2.expiredCount = 0

/-- A second sweep with the same arguments finds every row as it would leave it. -/
theorem sweepSource_sweepSource (db : NormalizedJobs) :
    (call.sweepSource (call.sweepSource db).1).1 = (call.sweepSource db).1 := by
  have hrows : (call.sweepSource (call.sweepSource db).1).1.rows = (call.sweepSource db).1.rows := by
    rw [rows_sweepSource (call.sweepSource db).1, rows_sweepSource db, List.map_map]
    refine List.map_congr_left fun row _ => ?_
    have hagain : call.swept (call.swept row) = call.swept row := by
      rw [← sweepJob_fst _ { sourcePlatform := call.sourcePlatform }, sweepJob_swept]
    by_cases hsource : row.sourcePlatform = call.sourcePlatform <;> simp [hsource, hagain]
  generalize call.sweepSource (call.sweepSource db).1 = second at hrows
  generalize (call.sweepSource db).1 = first at hrows
  obtain ⟨⟨rows, unique⟩, summary⟩ := second
  obtain ⟨rows', unique'⟩ := first
  cases hrows
  rfl

/-- Every sweep keeps its promises. -/
theorem sweeps (call : SweepCall) (db : NormalizedJobs) : call.Sweeps db where
  sameRows := by
    rw [rows_sweepSource, List.map_map]
    refine List.map_congr_left fun row _ => ?_
    dsimp only [Function.comp]
    split <;> simp
  otherSource row hrow hother := by rw [find?_sweepSource hrow, if_neg hother]
  failedRun hfailed row hrow hunseen := by
    rw [find?_sweepSource hrow, swept_of_failed hunseen hfailed, ite_self]
  seen row hrow hsource hseen := by
    rw [find?_sweepSource hrow, if_pos hsource, swept_of_seen hseen]
  counted := by
    have hcounted := call.counted_sweepJobs (call.sourceJobs db)
      { sourcePlatform := call.sourcePlatform }
    simpa [sweepSource, FreshnessSweepSummary.counted] using hcounted
  total := by simp [sweepSource, sourceJobs, List.countP_eq_length_filter]
  idempotent := sweepSource_sweepSource db
  noChange := by
    have hkept : ∀ job ∈ call.sourceJobs (call.sweepSource db).1, ∃ old, job = call.swept old :=
      fun job => swept_of_mem_sourceJobs
    have hsummary := call.sweepJobs_swept { sourcePlatform := call.sourcePlatform } hkept
    refine ⟨?_, ?_, ?_⟩ <;>
    · unfold sweepSource at hsummary ⊢
      dsimp only at hsummary ⊢
      rw [hsummary]

end SweepCall

end Bisakerja
