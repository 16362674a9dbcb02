import BisakerjaScraper.Pipeline.RunIds
import BisakerjaScraper.Schemes.Assign

/-! What the staging report and the verify command count of a run.

    Both read the same rows. A request log is written with the status `success` or `failed`; the
    report and the check that a failed enrich stage has evidence look for `succeeded`, the summary
    by model for `success`. Statuses are texts here, as the tables hold them. -/

namespace Bisakerja
open Schemes

/-- An `ai_request_logs` row, as far as the reports read it. -/
structure StoredAiRequestLog where
  normalizedJobId : Option String
  model : String
  status : String
  errorCategory : Option String

/-- A `sync_events` or `notification_handoff_events` row, as far as the reports read it. -/
structure StoredOutcome where
  scrapeRunId : Option String
  status : String

/-- A `scrape_runs` row, as far as the check reads it. -/
structure StoredRun where
  id : String
  status : String

/-- The tables the reports read. -/
structure ReportTables where
  jobs : JobTables
  runs : List StoredRun
  aiLogs : List StoredAiRequestLog
  syncEvents : List StoredOutcome
  handoffEvents : List StoredOutcome

/-- A bucket of `ai_model_summary_from_logs`. -/
structure AiModelBucket where
  requests : ℕ := 0
  successes : ℕ := 0
  rateLimited : ℕ := 0
  failed : ℕ := 0

/-- The model a log is counted under. -/
def StoredAiRequestLog.bucket (log : StoredAiRequestLog) : String :=
  if strip log.model = "" then "unknown" else strip log.model

/-- A log is counted. -/
def AiModelBucket.count (bucket : AiModelBucket) (log : StoredAiRequestLog) : AiModelBucket where
  requests := bucket.requests + 1
  successes := bucket.successes + if log.status = "success" then 1 else 0
  rateLimited := bucket.rateLimited + if log.errorCategory = some "OPENAI_RATE_LIMIT" then 1 else 0
  failed := bucket.failed + if log.status = "success" then 0 else 1

/-- `ai_model_summary_from_logs`, but for the order of its keys. -/
def aiModelSummaryFromLogs (logs : List StoredAiRequestLog) : Assigned String AiModelBucket :=
  logs.foldl (fun summary log => summary.assign log.bucket
    (((summary.get log.bucket).getD {}).count log)) (Table.empty _)

/-- The entry `enrichFailureHasAiEvidence` of `build_strict_invariant_checks`. -/
structure EvidenceCheck where
  passed : Bool
  enrichStatus : String
  failedAiLogs : ℕ

/-- What `build_staging_report` counts of the AI logs, the syncs and the hand-offs. -/
structure StagingReport where
  enriched : ℕ
  syncUpserted : ℕ
  errors : ℕ
  aiByModel : Assigned String AiModelBucket
  notifyAttempted : ℕ
  notifySent : ℕ
  notifyFailed : ℕ
  evidence : EvidenceCheck

/-- What `verify_database_state` counts of them. -/
structure VerifyResult where
  aiRequestLogs : ℕ
  aiByModel : Assigned String AiModelBucket
  syncSent : ℕ
  notifySent : ℕ
  evidence : EvidenceCheck

/-- `event.status in {"failed", "dead-letter"}`. -/
def StoredOutcome.isFailed (event : StoredOutcome) : Bool :=
  event.status ∈ ["failed", "dead-letter"]

/-- `event.status == "sent"`. -/
def StoredOutcome.isSent (event : StoredOutcome) : Bool := event.status = "sent"

/-- The `ai_failed` of the report and of the check. -/
def aiFailed (logs : List StoredAiRequestLog) : List StoredAiRequestLog :=
  logs.filter fun log => log.status ≠ "succeeded"

/-- The `enriched_job_ids` of the report, for the status that marks a log as a success. -/
def enrichedJobIds (success : String) (logs : List StoredAiRequestLog)
    (jobs : List NormalizedJob) : List String :=
  ((logs.filter fun log => log.status = success).filterMap StoredAiRequestLog.normalizedJobId ++
    jobs.flatMap (fun job => job.skillsStaging.map JobSkillStaging.normalizedJobId) ++
    jobs.flatMap (fun job =>
      job.requirementsStaging.map JobRequirementStaging.normalizedJobId)).dedup

namespace ReportTables

variable (db : ReportTables) (runId : String)

/-- The normalized jobs of a run. -/
def normalizedJobs : List NormalizedJob :=
  let rawJobIds := (db.jobs.rawJobs.rows.filter fun raw =>
    (stageRunIds runId).contains raw.scrapeRunId).map RawJob.id
  if rawJobIds = [] then []
  else db.jobs.normalizedJobs.rows.filter fun job => job.rawJobId.any (rawJobIds.contains ·)

/-- The request logs of the jobs of a run. -/
def logs : List StoredAiRequestLog :=
  let ids := (db.normalizedJobs runId).map NormalizedJob.id
  if ids = [] then [] else db.aiLogs.filter fun log => log.normalizedJobId.any (ids.contains ·)

/-- The events of the stages of a run. -/
def ofRun (events : List StoredOutcome) : List StoredOutcome :=
  events.filter fun event => event.scrapeRunId.any ((stageRunIds runId).contains ·)

/-- `stage_runs.get("enrich")`. -/
def enrichRun : Option StoredRun :=
  (verifiedStageId runId .enrich).bind fun id => db.runs.find? fun run => run.id = id

/-- The check that a failed or partial enrich stage has failed requests to show. -/
def evidence : EvidenceCheck where
  passed := !(db.enrichRun runId).any (fun run => run.status ∈ ["failed", "partial"]) ||
    aiFailed (db.logs runId) ≠ []
  enrichStatus := ((db.enrichRun runId).map StoredRun.status).getD "missing"
  failedAiLogs := (aiFailed (db.logs runId)).length

/-- `build_staging_report`. -/
def stagingReport : StagingReport :=
  let syncEvents := ofRun runId db.syncEvents
  let handoffEvents := ofRun runId db.handoffEvents
  { enriched := (enrichedJobIds "succeeded" (db.logs runId) (db.normalizedJobs runId)).length
    syncUpserted := (syncEvents.filter StoredOutcome.isSent).length
    errors := (syncEvents.filter StoredOutcome.isFailed).length +
      (handoffEvents.filter StoredOutcome.isFailed).length + (aiFailed (db.logs runId)).length
    aiByModel := aiModelSummaryFromLogs (db.logs runId)
    notifyAttempted := handoffEvents.length
    notifySent := handoffEvents.length - (handoffEvents.filter StoredOutcome.isFailed).length
    notifyFailed := (handoffEvents.filter StoredOutcome.isFailed).length
    evidence := db.evidence runId }

/-- `verify_database_state`. -/
def verifyDatabaseState : VerifyResult where
  aiRequestLogs := (db.logs runId).length
  aiByModel := aiModelSummaryFromLogs (db.logs runId)
  syncSent := (ofRun runId db.syncEvents).countP StoredOutcome.isSent
  notifySent := (ofRun runId db.handoffEvents).countP StoredOutcome.isSent
  evidence := db.evidence runId

/-- The logs that should count as failed. -/
def unsuccessful : List StoredAiRequestLog :=
  (db.logs runId).filter fun log => log.status ≠ "success"

/-- The report, the verify result and the summaries by model agree with the tables and with each
    other. -/
structure ReportsAgree : Prop where
  failedLogs : aiFailed (db.logs runId) = db.unsuccessful runId
  failedByModel : ∀ model,
    (((db.stagingReport runId).aiByModel.get model).getD {}).failed
      = (db.unsuccessful runId).countP fun log => log.bucket = model
  sameSummary : (db.verifyDatabaseState runId).aiByModel = (db.stagingReport runId).aiByModel
  enriched : (db.stagingReport runId).enriched
    = (enrichedJobIds "success" (db.logs runId) (db.normalizedJobs runId)).length
  errors : (db.stagingReport runId).errors
    = (ofRun runId db.syncEvents).countP StoredOutcome.isFailed +
      (ofRun runId db.handoffEvents).countP StoredOutcome.isFailed + (db.unsuccessful runId).length
  evidence : ((db.stagingReport runId).evidence.passed = true ↔
      ((∃ run, db.enrichRun runId = some run ∧ run.status ∈ ["failed", "partial"]) →
        db.unsuccessful runId ≠ [])) ∧
    (db.stagingReport runId).evidence.failedAiLogs = (db.unsuccessful runId).length ∧
    (db.verifyDatabaseState runId).evidence = (db.stagingReport runId).evidence
  notifySent : (db.stagingReport runId).notifySent
      = (ofRun runId db.handoffEvents).countP StoredOutcome.isSent ∧
    (db.verifyDatabaseState runId).notifySent = (db.stagingReport runId).notifySent
  notifyFailed : (db.stagingReport runId).notifyFailed
    = (ofRun runId db.handoffEvents).countP StoredOutcome.isFailed

end ReportTables

/-! ### The summary by model -/

/-- A bucket holds the counts of the logs of its model. -/
theorem get_aiModelSummary (logs : List StoredAiRequestLog)
    (summary : Assigned String AiModelBucket) (model : String) :
    ((logs.foldl (fun summary log => summary.assign log.bucket
        (((summary.get log.bucket).getD {}).count log)) summary).get model).getD {}
      = (logs.filter fun log => log.bucket = model).foldl AiModelBucket.count
          ((summary.get model).getD {}) := by
  induction logs generalizing summary with
  | nil => rfl
  | cons log logs ih =>
    rw [List.foldl_cons, ih]
    by_cases hmodel : log.bucket = model
    · rw [List.filter_cons_of_pos (by simpa using hmodel), List.foldl_cons, hmodel,
        Assigned.get_assign_self]
      rfl
    · rw [List.filter_cons_of_neg (by simpa using hmodel), Assigned.get_assign_of_ne _ hmodel]

theorem failed_foldl_count (logs : List StoredAiRequestLog) (bucket : AiModelBucket) :
    (logs.foldl AiModelBucket.count bucket).failed
      = bucket.failed + logs.countP fun log => log.status ≠ "success" := by
  induction logs generalizing bucket with
  | nil => rfl
  | cons log logs ih =>
    rw [List.foldl_cons, ih, List.countP_cons]
    by_cases hstatus : log.status = "success" <;> simp [AiModelBucket.count, hstatus]
    omega

/-! ### A status against its complement -/

section

variable {α : Type} {p q : α → Bool} {l : List α}

theorem filter_eq_filter_iff : l.filter p = l.filter q ↔ ∀ x ∈ l, p x = q x := by
  constructor
  · intro h x hx
    have hmem : x ∈ l.filter p ↔ x ∈ l.filter q := by rw [h]
    simp only [List.mem_filter, hx, true_and] at hmem
    exact Bool.eq_iff_iff.mpr hmem
  · exact List.filter_congr

/-- All but those of one kind are those of another exactly when there is no third kind. -/
theorem length_sub_countP_iff (hdisjoint : ∀ x ∈ l, q x = true → p x = false) :
    l.length - l.countP p = l.countP q ↔ ∀ x ∈ l, p x = true ∨ q x = true := by
  have hlength := List.length_eq_countP_add_countP p (l := l)
  have hq : l.countP q = (l.filter fun x => ¬ p x).countP q := by
    rw [List.countP_filter]
    refine List.countP_congr fun x hx => ?_
    cases hqx : q x
    · simp
    · simp [hdisjoint x hx hqx]
  have hrest : l.length - l.countP p = (l.filter fun x => ¬ p x).length := by
    rw [← List.countP_eq_length_filter]
    omega
  rw [hrest, hq, eq_comm, List.countP_eq_length]
  simp only [List.mem_filter, decide_eq_true_eq, and_imp, or_iff_not_imp_left]

end

/-! ### The report -/

theorem aiFailed_eq_unsuccessful_iff {db : ReportTables} {runId : String} :
    aiFailed (db.logs runId) = db.unsuccessful runId ↔
      ∀ log ∈ db.logs runId, log.status ∉ ["success", "succeeded"] := by
  unfold aiFailed ReportTables.unsuccessful
  rw [filter_eq_filter_iff]
  refine forall₂_congr fun log _ => ?_
  by_cases hsuccess : log.status = "success"
  · simp [hsuccess]
  · simp [hsuccess]

theorem notifySent_iff {events : List StoredOutcome} :
    events.length - (events.filter StoredOutcome.isFailed).length
        = events.countP StoredOutcome.isSent ↔
      ∀ event ∈ events, event.status ∈ ["sent", "failed", "dead-letter"] := by
  rw [← List.countP_eq_length_filter, length_sub_countP_iff]
  · refine forall₂_congr fun event _ => ?_
    simp only [StoredOutcome.isFailed, StoredOutcome.isSent, decide_eq_true_eq, List.mem_cons,
      List.not_mem_nil, or_false]
    tauto
  · intro event _ hsent
    simp only [StoredOutcome.isSent, decide_eq_true_eq] at hsent
    simp [StoredOutcome.isFailed, hsent]

/-- Without a log that marks a success, no log adds a job to the enriched ones. -/
theorem enrichedJobIds_congr {logs : List StoredAiRequestLog}
    (h : ∀ log ∈ logs, log.status ∉ ["success", "succeeded"]) (jobs : List NormalizedJob) :
    enrichedJobIds "succeeded" logs jobs = enrichedJobIds "success" logs jobs := by
  have hfilter : (logs.filter fun log => log.status = "succeeded")
      = logs.filter fun log => log.status = "success" := by
    refine filter_eq_filter_iff.mpr fun log hlog => ?_
    have hstatus := h log hlog
    simp only [List.mem_cons, List.not_mem_nil, or_false, not_or] at hstatus
    simp [hstatus.1, hstatus.2]
  unfold enrichedJobIds
  rw [hfilter]

namespace ReportTables

theorem evidence_passed_iff {db : ReportTables} {runId : String} :
    (db.evidence runId).passed = true ↔
      ((∃ run, db.enrichRun runId = some run ∧ run.status ∈ ["failed", "partial"]) →
        aiFailed (db.logs runId) ≠ []) := by
  unfold evidence
  cases db.enrichRun runId with
  | none => simp
  | some run =>
    simp only [Option.any_some, Bool.or_eq_true, Bool.not_eq_true', decide_eq_false_iff_not,
      decide_eq_true_eq, Option.some.injEq, exists_eq_left', imp_iff_not_or]

/-- BUG: the report agrees with the tables exactly when no request log of the run is a success under
    either name, and every hand-off event of the run is sent or failed. A request that succeeded is
    counted as failed and its job is not counted as enriched; an event that still waits is counted
    as sent. -/
theorem reportsAgree_iff (db : ReportTables) (runId : String) :
    db.ReportsAgree runId ↔
      (∀ log ∈ db.logs runId, log.status ∉ ["success", "succeeded"]) ∧
        ∀ event ∈ ofRun runId db.handoffEvents,
          event.status ∈ ["sent", "failed", "dead-letter"] := by
  constructor
  · intro h
    exact ⟨aiFailed_eq_unsuccessful_iff.mp h.failedLogs, notifySent_iff.mp h.notifySent.1⟩
  · rintro ⟨hlogs, hevents⟩
    have hfailed := aiFailed_eq_unsuccessful_iff.mpr hlogs
    have hsent := notifySent_iff.mpr hevents
    exact {
      failedLogs := hfailed
      failedByModel := fun model => by
        have hbucket := get_aiModelSummary (db.logs runId) (Table.empty _) model
        have hcount := failed_foldl_count
          ((db.logs runId).filter fun log => log.bucket = model) {}
        rw [Nat.zero_add] at hcount
        refine (congrArg AiModelBucket.failed hbucket).trans (hcount.trans ?_)
        unfold unsuccessful
        rw [List.countP_filter, List.countP_filter]
        exact List.countP_congr fun log _ => by rw [Bool.and_comm]
      sameSummary := rfl
      enriched := congrArg List.length (enrichedJobIds_congr hlogs _)
      errors := by
        rw [List.countP_eq_length_filter, List.countP_eq_length_filter, ← hfailed]
        rfl
      evidence := by
        refine ⟨?_, congrArg List.length hfailed, rfl⟩
        rw [← hfailed]
        exact evidence_passed_iff
      notifySent := ⟨hsent, hsent.symm⟩
      notifyFailed := List.countP_eq_length_filter.symm }

end ReportTables

/-- A run with one job, one successful request for it and one hand-off that waits. -/
def oneRequestTables : ReportTables where
  jobs :=
    { rawJobs := ⟨[
        { id := "r", scrapeRunId := "mon-scrape", sourcePlatform := "glints", externalId := "abc"
          sourceUrl := none, rawPayload := [], metadataJson := none, payloadHash := none
          scrapedAt := 0 }], List.nodup_singleton _⟩
      normalizedJobs := ⟨[
        { id := "n", rawJobId := some "r", sourcePlatform := "glints", externalId := "abc"
          title := "Dev", companyName := "Ac", sourceUrl := "u", applyUrl := none, status := .active
          normalizedPayload := [], lastSeenAt := 0, postedAt := none }], List.nodup_singleton _⟩ }
  runs := []
  aiLogs := [{ normalizedJobId := some "n", model := "m", status := "success"
               errorCategory := none }]
  syncEvents := []
  handoffEvents := [{ scrapeRunId := some "mon-notify", status := "pending" }]

/-- The request counts as failed and its job as not enriched; the hand-off counts as sent, but not
    for the verify command. -/
theorem success_counts_as_failed :
    (oneRequestTables.stagingReport "mon").errors = 1 ∧
      (oneRequestTables.stagingReport "mon").enriched = 0 ∧
      (oneRequestTables.stagingReport "mon").notifySent = 1 ∧
      (oneRequestTables.verifyDatabaseState "mon").notifySent = 0 ∧
      ¬ oneRequestTables.ReportsAgree "mon" := by
  have hsent : (oneRequestTables.verifyDatabaseState "mon").notifySent = 0 := by decide +kernel
  have hreport : (oneRequestTables.stagingReport "mon").notifySent = 1 := by decide +kernel
  refine ⟨by decide +kernel, by decide +kernel, hreport, hsent, fun h => ?_⟩
  have hagree := h.notifySent.2
  rw [hsent, hreport] at hagree
  cases hagree

end Bisakerja
