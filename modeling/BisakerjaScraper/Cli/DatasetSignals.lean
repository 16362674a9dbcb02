import BisakerjaScraper.Cli.DatasetValues
import BisakerjaScraper.Schemes.Groups

/-! The signals of the exported jobs.

    `fetch_signals` starts from a row of defaults for each job and runs a loop for each query; a
    loop rewrites the signals of the job each row is of. The queries on bookmarks and applications
    stand under one switch, those on the results of the AI features under another; the request
    logs of the AI features are read under neither. -/

namespace Bisakerja
open Schemes

/-! ### The tables -/

/-- A table with its column `job_listing_id`, in the order a query lists it. -/
abbrev JobTable (α : Type) := List (Option String × α)

/-- A row of `bookmarks`. -/
structure Bookmark where
  createdAt : Option Timestamp

/-- A row of `application_records`. -/
structure ApplicationRecord where
  status : DbValue
  appliedAt : Option Timestamp
  updatedAt : Option Timestamp

/-- A row of `fit_score_results`. -/
structure FitScoreResult where
  fitScore : Option ℤ
  readinessLevel : DbValue
  recommendationDecision : DbValue
  modelName : DbValue
  analyzedAt : Option Timestamp

/-- A row of `skill_gap_results`. -/
structure SkillGapResult where
  gaps : Json
  modelName : DbValue
  analyzedAt : Option Timestamp

/-- A row of `cv_analysis_results`. -/
structure CvAnalysisResult where
  language : DbValue
  inputMode : DbValue
  compareSource : DbValue
  modelName : DbValue
  analyzedAt : Option Timestamp

/-- A row of `ai_request_logs`. -/
structure AiRequestLog where
  kind : DbValue
  status : DbValue
  modelName : DbValue
  errorCode : DbValue
  createdAt : DbValue
  inputSummary : Json
  outputSummary : Json

/-- The tables signals are read from; the logs are in the order of `created_at, id`. -/
structure SignalTables where
  bookmarks : JobTable Bookmark
  applicationRecords : JobTable ApplicationRecord
  fitScoreResults : JobTable FitScoreResult
  skillGapResults : JobTable SkillGapResult
  cvAnalysisResults : JobTable CvAnalysisResult
  aiRequestLogs : List AiRequestLog

/-! ### The signals -/

/-- `bookmark_*`. -/
structure BookmarkSignal where
  countTotal : ℕ := 0
  lastCreatedAt : String := ""

/-- `application_*`. -/
structure ApplicationSignal where
  countTotal : ℕ := 0
  countApplied : ℕ := 0
  countInterview : ℕ := 0
  countRejected : ℕ := 0
  countAccepted : ℕ := 0
  lastStatus : String := ""
  lastAppliedAt : String := ""
  lastUpdatedAt : String := ""

/-- `fit_score_*`. -/
structure FitScoreSignal where
  runCount : ℕ := 0
  latest : Option ℤ := none
  latestReadinessLevel : String := ""
  latestDecision : String := ""
  latestModelName : String := ""
  latestAnalyzedAt : String := ""

/-- `skill_gap_*`. -/
structure SkillGapSignal where
  runCount : ℕ := 0
  latestGapCount : Option ℕ := none
  latestModelName : String := ""
  latestAnalyzedAt : String := ""

/-- `cv_analysis_*`. -/
structure CvAnalysisSignal where
  runCount : ℕ := 0
  latestLanguage : String := ""
  latestInputMode : String := ""
  latestCompareSource : String := ""
  latestModelName : String := ""
  latestAnalyzedAt : String := ""

/-- `ai_request_*`. -/
structure AiRequestSignal where
  countTotal : ℕ := 0
  countSucceeded : ℕ := 0
  countFailed : ℕ := 0
  latestKind : String := ""
  latestStatus : String := ""
  latestModelName : String := ""
  latestCreatedAt : String := ""
  errorCodeTop : String := ""

/-- The signals of a job, at first those of `default_signal_row`. -/
structure SignalRow where
  jobId : String
  bookmark : BookmarkSignal := {}
  application : ApplicationSignal := {}
  fitScore : FitScoreSignal := {}
  skillGap : SkillGapSignal := {}
  cvAnalysis : CvAnalysisSignal := {}
  aiRequest : AiRequestSignal := {}

/-- The signals under their column names. -/
def SignalRow.toRow (signal : SignalRow) : ExportRow :=
  [("job_id", .text signal.jobId),
    ("bookmark_count_total", .int signal.bookmark.countTotal),
    ("bookmark_last_created_at", .text signal.bookmark.lastCreatedAt),
    ("application_count_total", .int signal.application.countTotal),
    ("application_count_applied", .int signal.application.countApplied),
    ("application_count_interview", .int signal.application.countInterview),
    ("application_count_rejected", .int signal.application.countRejected),
    ("application_count_accepted", .int signal.application.countAccepted),
    ("application_last_status", .text signal.application.lastStatus),
    ("application_last_applied_at", .text signal.application.lastAppliedAt),
    ("application_last_updated_at", .text signal.application.lastUpdatedAt),
    ("fit_score_run_count", .int signal.fitScore.runCount),
    ("fit_score_latest", .orEmpty .int signal.fitScore.latest),
    ("fit_score_latest_readiness_level", .text signal.fitScore.latestReadinessLevel),
    ("fit_score_latest_decision", .text signal.fitScore.latestDecision),
    ("fit_score_latest_model_name", .text signal.fitScore.latestModelName),
    ("fit_score_latest_analyzed_at", .text signal.fitScore.latestAnalyzedAt),
    ("skill_gap_run_count", .int signal.skillGap.runCount),
    ("skill_gap_latest_gap_count", .orEmpty (fun n : ℕ => .int n) signal.skillGap.latestGapCount),
    ("skill_gap_latest_model_name", .text signal.skillGap.latestModelName),
    ("skill_gap_latest_analyzed_at", .text signal.skillGap.latestAnalyzedAt),
    ("cv_analysis_run_count", .int signal.cvAnalysis.runCount),
    ("cv_analysis_latest_language", .text signal.cvAnalysis.latestLanguage),
    ("cv_analysis_latest_input_mode", .text signal.cvAnalysis.latestInputMode),
    ("cv_analysis_latest_compare_source", .text signal.cvAnalysis.latestCompareSource),
    ("cv_analysis_latest_model_name", .text signal.cvAnalysis.latestModelName),
    ("cv_analysis_latest_analyzed_at", .text signal.cvAnalysis.latestAnalyzedAt),
    ("ai_request_count_total", .int signal.aiRequest.countTotal),
    ("ai_request_count_succeeded", .int signal.aiRequest.countSucceeded),
    ("ai_request_count_failed", .int signal.aiRequest.countFailed),
    ("ai_request_latest_kind", .text signal.aiRequest.latestKind),
    ("ai_request_latest_status", .text signal.aiRequest.latestStatus),
    ("ai_request_latest_model_name", .text signal.aiRequest.latestModelName),
    ("ai_request_latest_created_at", .text signal.aiRequest.latestCreatedAt),
    ("ai_request_error_code_top", .text signal.aiRequest.errorCodeTop)]

/-! ### The queries -/

section Queries

variable {α : Type}

/-- `WHERE job_listing_id IN (…)`. -/
def inClause (jobIds : List String) (table : JobTable α) : List (String × α) :=
  table.filterMap fun row => row.1.bind fun jobId =>
    if jobId ∈ jobIds then some (jobId, row.2) else none

/-- `MAX(column)`, which leaves out `NULL`. -/
def maxOf (column : α → Option Timestamp) (rows : List (String × α)) : Option Timestamp :=
  (rows.filterMap fun row => column row.2).max?

/-- The rows of each job. -/
def grouped (jobIds : List String) (table : JobTable α) : List (String × List (String × α)) :=
  groups Prod.fst (inClause jobIds table)

/-- The rows that are joined with the last time of their job. -/
def latestRows (jobIds : List String) (column : α → Option Timestamp) (table : JobTable α) :
    List (String × α) :=
  let rows := inClause jobIds table
  rows.filter fun row =>
    (column row.2).isSome && column row.2 = maxOf column (rowsOf Prod.fst row.1 rows)

/-- How many rows of a job have a value. -/
def countWhere (p : α → Bool) (rows : List (String × α)) : ℕ := rows.countP fun row => p row.2

end Queries

/-- `column = 'text'`. -/
def DbValue.isText (s : String) : DbValue → Bool
  | .json (.str t) => t = s
  | _ => false

/-! ### The job of a log -/

/-- The words of `TRACKING_KEY_PATTERN`. -/
def trackingWords : List String := ["trace", "tracking", "queryid", "query_id", "solid", "sol_id"]

/-- `TRACKING_KEY_PATTERN.search(key)`. -/
def isTrackingKey (key : String) : Bool :=
  trackingWords.any fun word => key.toList.tails.any fun rest => (literal word.toList rest).isSome

/-- The keys a job id stands under. -/
def jobIdKeys : List String := ["jobId", "job_id", "jobListingId", "job_listing_id"]

mutual

/-- `extract_json_candidates`, of a value that is no text. -/
def jsonCandidates : Json → List Json
  | .dict entries => entryCandidates entries
  | _ => []

/-- The candidates of the entries of a dict. -/
def entryCandidates : List (String × Json) → List Json
  | [] => []
  | (key, value) :: rest =>
    (if isTrackingKey key then []
      else (if key ∈ jobIdKeys then [value] else []) ++ jsonCandidates value) ++
      entryCandidates rest

end

namespace DatasetText

variable (text : DatasetText)

/-- `extract_json_candidates`. -/
def extractJsonCandidates : Json → List Json
  | .str s => ((text.loads s).map jsonCandidates).getD []
  | payload => jsonCandidates payload

/-- `extract_job_id_from_ai_log`. -/
def extractJobIdFromAiLog (row : AiRequestLog) : Option String :=
  (text.extractJsonCandidates row.inputSummary ++
    text.extractJsonCandidates row.outputSummary).findSome? fun
      | .str s => if strip s ≠ "" then some (strip s) else none
      | _ => none

/-- `estimate_gap_count`. -/
def estimateGapCount (gaps : Json) : ℕ :=
  let gaps := match gaps with
    | .str s => (text.loads s).getD .null
    | gaps => gaps
  match gaps with
  | .list xs => xs.length
  | .dict entries =>
    match Dict.get entries "gaps" with
    | .list xs => xs.length
    | _ => entries.length
  | _ => 0

/-- `iso_utc(MAX(column))`. -/
def isoMax {α : Type} (column : α → Option Timestamp) (rows : List (String × α)) : String :=
  ((maxOf column rows).map text.isoformat).getD ""

/-! ### The loops -/

/-- The loops under `include_user_signals`. -/
def writeUserSignals (db : SignalTables) (jobIds : List String) (base : String → SignalRow) :
    String → SignalRow :=
  let base := writeRows Prod.fst (fun group signal =>
    { signal with
      bookmark :=
        { countTotal := group.2.length
          lastCreatedAt := text.isoMax Bookmark.createdAt group.2 } })
    (grouped jobIds db.bookmarks) base
  let base := writeRows Prod.fst (fun group signal =>
    { signal with
      application :=
        { signal.application with
          countTotal := group.2.length
          countApplied := countWhere (fun row => row.status.isText "APPLIED") group.2
          countInterview := countWhere (fun row => row.status.isText "INTERVIEW") group.2
          countRejected := countWhere (fun row => row.status.isText "REJECTED") group.2
          countAccepted := countWhere (fun row => row.status.isText "ACCEPTED") group.2
          lastAppliedAt := text.isoMax ApplicationRecord.appliedAt group.2
          lastUpdatedAt := text.isoMax ApplicationRecord.updatedAt group.2 } })
    (grouped jobIds db.applicationRecords) base
  writeRows Prod.fst (fun row signal =>
    { signal with
      application := { signal.application with lastStatus := text.normalizeEnum row.2.status } })
    (latestRows jobIds ApplicationRecord.updatedAt db.applicationRecords) base

/-- The loops under `include_ai_signals`. -/
def writeAiSignals (db : SignalTables) (jobIds : List String) (base : String → SignalRow) :
    String → SignalRow :=
  let base := writeRows Prod.fst (fun group signal =>
    { signal with
      fitScore :=
        { signal.fitScore with
          runCount := group.2.length
          latestAnalyzedAt := text.isoMax FitScoreResult.analyzedAt group.2 } })
    (grouped jobIds db.fitScoreResults) base
  let base := writeRows Prod.fst (fun row signal =>
    { signal with
      fitScore :=
        { signal.fitScore with
          latest := some (row.2.fitScore.getD 0)
          latestReadinessLevel := text.safeText row.2.readinessLevel
          latestDecision := text.safeText row.2.recommendationDecision
          latestModelName := text.safeText row.2.modelName } })
    (latestRows jobIds FitScoreResult.analyzedAt db.fitScoreResults) base
  let base := writeRows Prod.fst (fun group signal =>
    { signal with
      skillGap :=
        { signal.skillGap with
          runCount := group.2.length
          latestAnalyzedAt := text.isoMax SkillGapResult.analyzedAt group.2 } })
    (grouped jobIds db.skillGapResults) base
  let base := writeRows Prod.fst (fun row signal =>
    { signal with
      skillGap :=
        { signal.skillGap with
          latestGapCount := some (text.estimateGapCount row.2.gaps)
          latestModelName := text.safeText row.2.modelName } })
    (latestRows jobIds SkillGapResult.analyzedAt db.skillGapResults) base
  let base := writeRows Prod.fst (fun group signal =>
    { signal with
      cvAnalysis :=
        { signal.cvAnalysis with
          runCount := group.2.length
          latestAnalyzedAt := text.isoMax CvAnalysisResult.analyzedAt group.2 } })
    (grouped jobIds db.cvAnalysisResults) base
  writeRows Prod.fst (fun row signal =>
    { signal with
      cvAnalysis :=
        { signal.cvAnalysis with
          latestLanguage := text.normalizeEnum row.2.language
          latestInputMode := text.normalizeEnum row.2.inputMode
          latestCompareSource := text.normalizeEnum row.2.compareSource
          latestModelName := text.safeText row.2.modelName } })
    (latestRows jobIds CvAnalysisResult.analyzedAt db.cvAnalysisResults) base

/-- The logs of listed jobs, with the job of each. -/
def listedLogs (db : SignalTables) (jobIds : List String) : List (String × AiRequestLog) :=
  db.aiRequestLogs.filterMap fun log => (text.extractJobIdFromAiLog log).bind fun jobId =>
    if jobId ∈ jobIds then some (jobId, log) else none

/-- How many logs have a status. -/
def countStatus (status : String) (rows : List AiRequestLog) : ℕ :=
  rows.countP fun row => text.normalizeEnum row.status = status

/-- The most frequent error code. -/
def errorCodeTop (rows : List AiRequestLog) : String :=
  ((mostCommon 1 ((rows.filter fun row => row.errorCode.truthy).map fun row =>
    text.safeText row.errorCode)).head?).getD ""

/-- The signals of the logs of a job. -/
def aiRequestSignal (rows : List AiRequestLog) : AiRequestSignal :=
  match rows.getLast? with
  | none => {}
  | some latest =>
    { countTotal := rows.length
      countSucceeded := text.countStatus "SUCCEEDED" rows
      countFailed := text.countStatus "FAILED" rows
      latestKind := text.normalizeEnum latest.kind
      latestStatus := text.normalizeEnum latest.status
      latestModelName := text.safeText latest.modelName
      latestCreatedAt := text.isoUtc latest.createdAt
      errorCodeTop := text.errorCodeTop rows }

/-- The loop over the request logs. -/
def writeAiRequests (db : SignalTables) (jobIds : List String) (base : String → SignalRow) :
    String → SignalRow :=
  writeRows Prod.fst (fun group signal =>
    { signal with aiRequest := text.aiRequestSignal (group.2.map Prod.snd) })
    (groups Prod.fst (text.listedLogs db jobIds)) base

/-- `fetch_signals`. -/
def fetchSignals (db : SignalTables) (jobIds : List String)
    (includeAiSignals includeUserSignals : Bool) : List SignalRow :=
  let base := fun jobId => { jobId }
  let base := if includeUserSignals then text.writeUserSignals db jobIds base else base
  let base := if includeAiSignals then text.writeAiSignals db jobIds base else base
  let base := text.writeAiRequests db jobIds base
  jobIds.map base

end DatasetText

end Bisakerja
