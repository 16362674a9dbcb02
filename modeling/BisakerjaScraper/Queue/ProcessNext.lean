import BisakerjaScraper.Queue.Jobs

/-! One turn of a stage worker.

    The claim is written before the handler is looked up, and only an `Exception` out of the handler
    is turned into a failure. A job whose handler is missing, or is cancelled, stays running:
    nothing claims it again. -/

namespace Bisakerja
open Schemes

/-- `StageJobType.name` and `StageJobType.value`. -/
def StageJobType.nameAndValue : StageJobType → String × String
  | .scrapeSource => ("SCRAPE_SOURCE", "scrape-source")
  | .normalizeRaw => ("NORMALIZE_RAW", "normalize-raw")
  | .enrichBatch => ("ENRICH_BATCH", "enrich-batch")
  | .syncBatch => ("SYNC_BATCH", "sync-batch")
  | .notifyHandoff => ("NOTIFY_HANDOFF", "notify-handoff")

/-- `handlers[job_type]` without a handler. -/
def missingHandler (jobType : StageJobType) : PyException :=
  let (name, value) := jobType.nameAndValue
  .plain "KeyError" ("<StageJobType." ++ name ++ ": '" ++ value ++ "'>")

/-- How a handler ends: it returns, it raises an `Exception`, by its class and its text, or it is
    stopped by an exception that is none, like a cancellation. -/
inductive HandlerEnd where
  | returned
  | raised (category : String) (message : Except PyException String)
  | stopped (error : PyException)

/-- `StageJobHandler`, with what it does to the jobs. -/
abbrev StageJobHandler := StageJob → StageJobs → StageJobs × HandlerEnd

/-- `process_next_stage_job`: the jobs afterwards, and what it returns or raises. -/
def processNextStageJob (handlers : StageJobType → Option StageJobHandler) (jobs : StageJobs)
    (jobType : StageJobType) (claimedAt endedAt : Time) :
    StageJobs × Except PyException (Option StageJob) :=
  match claimNext jobs jobType claimedAt with
  | (jobs, none) => (jobs, .ok none)
  | (jobs, some job) =>
    match handlers jobType with
    | none => (jobs, .error (missingHandler jobType))
    | some handler =>
      match handler job jobs with
      | (jobs, .returned) =>
        let jobs := complete jobs job.id endedAt
        (jobs, .ok (jobs.find? job.id))
      | (jobs, .raised category (.ok message)) =>
        let jobs := fail jobs job.id { category, message } endedAt
        (jobs, .ok (jobs.find? job.id))
      | (jobs, .raised _ (.error error)) => (jobs, .error error)
      | (jobs, .stopped error) => (jobs, .error error)

/-! ### Jobs that are stuck -/

/-- A job that was handled: completed, failed or given up. -/
def StageJob.Settled (job : StageJob) : Prop :=
  job.status = .completed ∨ job.status = .failed ∨ job.status = .deadLetter

/-- The row under an id is settled, if it is still there. -/
def SettledAt (jobs : StageJobs) (id : String) : Prop :=
  ∀ row, jobs.find? id = some row → row.Settled

section Process

variable {handlers : StageJobType → Option StageJobHandler} {jobs : StageJobs}
  {jobType : StageJobType} {claimedAt endedAt : Time} {job : StageJob}

theorem settledAt_complete (jobs : StageJobs) (id : String) (now : Time) :
    SettledAt (complete jobs id now) id := by
  intro row hrow
  have hfind := (Table.find?_modify_self jobs id _ (StageJob.id_completed now)).symm.trans hrow
  obtain ⟨old, -, rfl⟩ := Option.map_eq_some_iff.mp hfind
  exact .inl rfl

theorem settledAt_fail (jobs : StageJobs) (id : String) (failure : QueueFailure) (now : Time) :
    SettledAt (fail jobs id failure now) id := by
  intro row hrow
  have hfind := (Table.find?_modify_self jobs id _ fun job => job.id_failed failure now).symm.trans
    hrow
  obtain ⟨old, -, rfl⟩ := Option.map_eq_some_iff.mp hfind
  unfold StageJob.failed
  dsimp only
  split
  · exact .inr (.inr rfl)
  · exact .inr (.inl rfl)

/-- The claimed row is running. -/
theorem not_settledAt_claim (h : selectClaimable jobs jobType claimedAt = some job) :
    ¬ SettledAt (jobs.modify job.id (StageJob.claimed claimedAt) fun _ => rfl) job.id := by
  intro hsettled
  have hfind : (jobs.modify job.id (StageJob.claimed claimedAt) fun _ => rfl).find? job.id
      = some (job.claimed claimedAt) := by
    refine (Table.find?_modify_self jobs job.id _ (StageJob.id_claimed claimedAt)).trans ?_
    rw [Table.find?_of_mem (claimable_of_select h).1]
    rfl
  rcases hsettled _ hfind with hstatus | hstatus | hstatus
  · cases hstatus
  · cases hstatus
  · cases hstatus

variable (handlers jobs jobType claimedAt endedAt)

/-- The job a turn claims does not stay running. -/
def NeverStuck : Prop :=
  ∀ job, selectClaimable jobs jobType claimedAt = some job →
    SettledAt (processNextStageJob handlers jobs jobType claimedAt endedAt).1 job.id

/-- The job a turn claims has a handler, and unless this returns or raises an `Exception` with a
    text, it settled the job itself. -/
def HandledToTheEnd : Prop :=
  ∀ job, selectClaimable jobs jobType claimedAt = some job →
    ∃ handler, handlers jobType = some handler ∧
      match handler (job.claimed claimedAt)
        (jobs.modify job.id (StageJob.claimed claimedAt) (StageJob.id_claimed claimedAt)) with
      | (_, .returned) => True
      | (_, .raised _ (.ok _)) => True
      | (jobs, .raised _ (.error _)) => SettledAt jobs job.id
      | (jobs, .stopped _) => SettledAt jobs job.id

/-- No job is stuck exactly if the one that is claimed is handled to the end. -/
theorem neverStuck_iff :
    NeverStuck handlers jobs jobType claimedAt endedAt ↔
      HandledToTheEnd handlers jobs jobType claimedAt := by
  refine forall_congr' fun job => forall_congr' fun hselect => ?_
  unfold processNextStageJob claimNext
  rw [hselect]
  dsimp only
  cases hhandler : handlers jobType with
  | none =>
    refine iff_of_false (not_settledAt_claim hselect) ?_
    rintro ⟨handler, hnone, -⟩
    cases hnone
  | some handler =>
    simp only [Option.some.injEq, exists_eq_left']
    rcases handler (job.claimed claimedAt)
      (jobs.modify job.id (StageJob.claimed claimedAt) fun _ => rfl) with ⟨after, result⟩
    cases result with
    | returned => exact iff_of_true (settledAt_complete _ _ _) trivial
    | stopped error => exact Iff.rfl
    | raised category message =>
      cases message with
      | ok message => exact iff_of_true (settledAt_fail _ _ _ _) trivial
      | error error => exact Iff.rfl

end Process

/-- One pending job. -/
def onePendingJob : StageJobs :=
  QueueCall.apply (Table.empty StageJob.id) (.enqueue { jobType := .enrichBatch } "e1" 0)

/-- A handler that is cancelled. -/
def cancelledHandler : StageJobHandler := fun _ jobs =>
  (jobs, .stopped (.plain "CancelledError" ""))

/-- Without a handler, and when it is cancelled, the job stays running. -/
theorem stuck_without_handler_and_cancelled :
    ((processNextStageJob (fun _ => none) onePendingJob .enrichBatch 1 2).1.find? "e1").map
        StageJob.status = some .running ∧
      ((processNextStageJob (fun _ => some cancelledHandler) onePendingJob .enrichBatch 1 2).1.find?
        "e1").map StageJob.status = some .running ∧
      ¬ NeverStuck (fun _ => some cancelledHandler) onePendingJob .enrichBatch 1 2 := by
  refine ⟨by decide, by decide, fun h => ?_⟩
  rcases h _ rfl _ rfl with hstatus | hstatus | hstatus
  · cases hstatus
  · cases hstatus
  · cases hstatus

end Bisakerja
