import BisakerjaScraper.Eligibility.Resolver
import BisakerjaScraper.Jobs.AiNormalization
import BisakerjaScraper.Persistence.Repositories
import BisakerjaScraper.Pipeline.Results
import BisakerjaScraper.Schemes.Hoare
import BisakerjaScraper.Schemes.Transaction

/-! The normalize stage with an AI client.

    The raw jobs of a source go through in batches. Each batch is mapped, sent to the AI in one
    request (or one request a job, for a client without a batch method) and written. A database
    operation that raises rolls the session back and is tried once more, and what was not
    committed before is gone then; the counters and the errors of the result are not. -/

namespace Bisakerja
open Schemes

/-- A `normalization_quarantine` row. -/
structure NormalizationQuarantine where
  scrapeRunId : Option String
  rawJobId : Option String
  sourcePlatform : String
  externalId : Option String
  isOpen : Bool
  payloadHash : Option String
  errorCategory : String
  errorMessage : String
  sourceFieldPath : Option String
  retryable : Bool

/-- `AIRequestStatus`. -/
inductive AIRequestStatus where | success | failed
  deriving DecidableEq

/-- An `ai_request_logs` row. -/
structure AIRequestLog where
  scrapeRunId : Option String
  normalizedJobId : Option String
  provider : String
  model : String
  baseUrlAlias : Option String
  latencyMs : Option ℤ
  status : AIRequestStatus
  retryCount : ℕ
  requestHash : String
  responseSummary : Option Dict
  errorCategory : Option String
  errorMessage : Option String

/-- The tables the stage writes. -/
structure StageTables where
  jobs : JobTables
  decisions : EligibilityDecisions := Table.empty _
  quarantine : List NormalizationQuarantine := []
  aiRequestLogs : List AIRequestLog := []

/-- What happens to the jobs of a stage: an answer is accepted for a prompt, a row is written while
    a raw job is processed. -/
inductive NormalizeEvent where
  | accepted (prompt : AINormalizationPromptInput) (output : CanonicalJobSchema)
  | wrote (raw : RawJob) (job : CanonicalJobSchema)

/-- A write of the stage that a rollback can take back: the decisions on its raw jobs, or a
    normalized row. -/
inductive StageWrite where
  | decided (rows : List NormalizationEligibilityDecision)
  | stored (raw : RawJob) (job : CanonicalJobSchema)

/-- The stage at work: the tables as the open transaction shows them, the tables as committed, the
    result of the source, the AI calls made, the position of the clock, and what happened to the
    jobs and to the transaction. -/
structure StageSession where
  tables : StageTables
  committed : StageTables
  result : SourcePipelineResult
  calls : ℕ := 0
  ticks : ℕ := 0
  journal : List NormalizeEvent := []
  history : List (TxEvent StageWrite) := []

/-- A computation of the stage. -/
abbrev StageM := Stateful StageSession PyException

/-- What the stage needs of its surroundings: clock and ids, digests, the failures of the database
    and how a log row is made safe. -/
structure StageHost where
  host : Host
  hash : StableHash
  isoformat : Time → String
  operationalError : ℕ → Bool
  sanitizeSummary : Dict → Dict
  safeMessage : String → String
  baseUrlAlias : Option String

theorem defaultBatchSize_pos : 0 < 5 := by decide

/-- `PipelineConfig`, as far as the stage reads it. -/
structure PipelineConfig where
  aiNormalizationBatchSize : ℕ := 5
  aiOutputLanguage : OutputLanguage := .english
  allowPartial : Bool := true
  batchSize_pos : 0 < aiNormalizationBatchSize := by decide

/-! ### Sources and prompts -/

/-- A source as the stage uses it. All five mappers take the platform from their own constant and
    the external id from the raw job; `describe` is everything else they map. -/
structure NormalizeSource where
  platform : SourcePlatform
  describe : RawJob → Except PyException CanonicalJobSchema

/-- `validate_mapped_job` when the schema refuses the mapped payload. -/
def mappedJobInvalid (externalId : String) : PyException :=
  .scraper .normalize "mapped job failed canonical validation" (some externalId) false
    [("error", .str "ValidationError")]

/-- `source.map_raw_job`. -/
def NormalizeSource.mapRawJob (source : NormalizeSource) (raw : RawJob) :
    Except PyException CanonicalJobSchema :=
  (source.describe raw).bind fun job =>
    if h : raw.externalId ≠ "" then
      .ok { job with
        source := { job.source with platform := source.platform, externalJobId := ⟨raw.externalId, h⟩ } }
    else .error (mappedJobInvalid raw.externalId)

/-- The members of `SourcePlatform`. -/
def SourcePlatform.all : List SourcePlatform := [.dealls, .glints, .jobstreet, .kalibrr, .kitalulus]

/-- `source_platform_enum`. -/
def sourcePlatformEnum (value : String) (externalId : Option String) :
    Except PyException SourcePlatform :=
  match SourcePlatform.all.find? fun platform => platform.value = value with
  | some platform => .ok platform
  | none =>
    .error (.scraper .normalize "unsupported source platform for AI normalization" externalId false
      [("source_field_path", .str "source_platform")])

/-- `endpoint_type_from_payload`. -/
def endpointTypeFromPayload (payload : Dict) : NormalizationEndpointType :=
  if hasDetailCoverage (fun s => strip s ≠ "") (.dict payload) then .detail else .list

/-- `prompt_input_from_raw_job`. -/
def promptInputFromRawJob (isoformat : Time → String) (raw : RawJob) (sourcePlatform : String)
    (outputLanguage : OutputLanguage) : Except PyException (Option AINormalizationPromptInput) :=
  if raw.rawPayload = [] then .ok none
  else
    (sourcePlatformEnum sourcePlatform (some raw.externalId)).map fun platform =>
      some
        { sourcePlatform := platform
          endpointType := endpointTypeFromPayload raw.rawPayload
          rawPayloadSubset :=
            [("sourcePlatform", .str sourcePlatform), ("externalId", .str raw.externalId),
              ("sourceUrl", .ofOption raw.sourceUrl),
              ("scrapedAt", .str (isoformat raw.scrapedAt)), ("payload", .dict raw.rawPayload)]
          outputLanguage := outputLanguage }

/-! ### The AI client -/

/-- The AI client: the validation it applies, and the provider behind it. An answer is the parsed
    response, `none` where the schema refuses it; a client may lack the batch method. -/
structure AiClient where
  text : NormalizationText
  model : ℕ → String
  hasNormalizeJobs : Bool
  answerJob : ℕ → AINormalizationPromptInput → Except PyException (Option CanonicalJobSchema)
  answerJobs : ℕ → AINormalizationBatchPromptInput →
    Except PyException (Option AINormalizationBatchOutput)

/-- `OpenAINormalizationInvalidResponseError`. -/
def invalidResponseError (exc : PyException) : PyException :=
  match exc with
  | .other "AINormalizationContractError" message _ _ =>
    .other "OpenAINormalizationInvalidResponseError" message
      (some "OPENAI_INVALID_RESPONSE") false
  | exc => exc

/-- The position of the next request. -/
def nextCall : StageM ℕ := .update fun s => (s.calls, { s with calls := s.calls + 1 })

/-- Notes what happened. -/
def logEvents (events : List NormalizeEvent) : StageM PUnit :=
  .change fun s => { s with journal := s.journal ++ events }

/-- The accepted jobs of a batch answer, each with the prompt it answers. -/
def acceptedEvents (input : AINormalizationBatchPromptInput)
    (results : List AINormalizationBatchItemResult) : List NormalizeEvent :=
  (input.items.zip results).filterMap fun entry =>
    entry.2.normalizedJob.map fun job => .accepted (input.promptFor entry.1) job

namespace AiClient

variable (client : AiClient)

/-- `normalize_job`. -/
def normalizeJob (prompt : AINormalizationPromptInput) : StageM CanonicalJobSchema := do
  let call ← nextCall
  let output ← Stateful.ofExcept (client.answerJob call prompt)
  let validated ← Stateful.ofExcept
    ((client.text.validateAiNormalizationOutput output prompt).mapError invalidResponseError)
  logEvents (output.toList.map fun job => .accepted prompt job)
  pure validated

/-- `normalize_jobs`; a batch prompt takes at most 50 items. -/
def normalizeJobs (input : AINormalizationBatchPromptInput) :
    StageM (List AINormalizationBatchItemResult) :=
  if 50 < input.items.length then .raise (.plain "ValidationError" "items")
  else do
    let call ← nextCall
    let output ← Stateful.ofExcept (client.answerJobs call input)
    let validated ← Stateful.ofExcept
      ((client.text.validateAiNormalizationBatchOutput output input).mapError invalidResponseError)
    logEvents (acceptedEvents input ((output.map Subtype.val).getD []))
    pure validated

end AiClient

/-! ### Errors -/

/-- `normalize_error_from_ai_exception`. -/
def normalizeErrorFromAiException (exc : PyException) (externalId : String) : PyException :=
  .scraper .normalize "AI normalization failed" (some externalId) exc.retryable
    [("error", .str exc.category), ("source_field_path", .str "raw_payload")]

/-- `normalize_error_from_batch_item`. -/
def normalizeErrorFromBatchItem (externalId : String) (errorCode errorMessage : Option String) :
    PyException :=
  .scraper .normalize (orText errorMessage "AI normalization batch returned partial error")
    (some externalId) false
    [("error", .str (orText errorCode "NORMALIZE_PARTIAL_ERROR")),
      ("source_field_path", .str "raw_payload")]

/-! ### The database -/

/-- An `OperationalError`. -/
def operationalError : PyException := .plain "OperationalError" "database operation failed"

/-- The session after `session.rollback()`. -/
def StageSession.rollback (s : StageSession) : StageSession :=
  { s with tables := s.committed, history := s.history ++ [.rolledBack] }

/-- The session after `session.commit()`. -/
def StageSession.commit (s : StageSession) : StageSession :=
  { s with committed := s.tables, history := s.history ++ [.committed] }

/-- One try of a database operation: it runs, or the session is rolled back. -/
def dbAttempt {α : Type} (h : StageHost) (operation : StageSession → α × StageSession) : StageM α :=
  fun s =>
    let s' := { s with ticks := s.ticks + 1 }
    if h.operationalError s.ticks then (.error operationalError, s'.rollback)
    else (.ok (operation s').1, (operation s').2)

/-- A try ends behind the operation, or with the session rolled back. -/
theorem triple_dbAttempt {α : Type} {h : StageHost} {operation : StageSession → α × StageSession}
    {P : StageSession → Prop} {Q : α → StageSession → Prop} {E : PyException → StageSession → Prop}
    (hop : ∀ s, P s → Q (operation { s with ticks := s.ticks + 1 }).1
      (operation { s with ticks := s.ticks + 1 }).2)
    (hfails : ∀ s, P s → h.operationalError s.ticks = true →
      E operationalError { s with ticks := s.ticks + 1 }.rollback) :
    Triple P (dbAttempt h operation) Q E := by
  intro s hs
  unfold dbAttempt
  dsimp only
  cases hfail : h.operationalError s.ticks with
  | true => exact hfails s hs hfail
  | false => exact hop s hs

/-- `_db_operation_with_retry`: two tries. -/
def dbOperationWithRetry {α : Type} (h : StageHost) (operation : StageSession → α × StageSession) :
    StageM α :=
  .handle (dbAttempt h operation) fun _ => dbAttempt h operation

/-- `_commit_normalize_progress`. -/
def commitNormalizeProgress (h : StageHost) : StageM PUnit :=
  dbOperationWithRetry h fun s => (⟨⟩, s.commit)

/-- `upsert_normalized_job` on the tables of the stage. -/
def StageSession.upsert (h : StageHost) (raw : RawJob) (job : CanonicalJobSchema)
    (s : StageSession) : String × StageSession :=
  let written := upsertNormalizedJob h.host h.isoformat job (some raw.id)
    { tables := s.tables.jobs, ticks := s.ticks }
  (written.1.1,
    { s with
      tables := { s.tables with jobs := written.2.tables }
      ticks := written.2.ticks
      journal := s.journal ++ [.wrote raw job]
      history := s.history ++ [.wrote (.stored raw job)] })

/-- `_upsert_normalized_job_with_retry`. -/
def upsertNormalizedJobWithRetry (h : StageHost) (raw : RawJob) (job : CanonicalJobSchema) :
    StageM String :=
  dbOperationWithRetry h (StageSession.upsert h raw job)

/-- `quarantine.resolve_for_raw_job`. -/
def resolveForRawJob (raw : RawJob) : StageM PUnit :=
  .change fun s => { s with tables := { s.tables with
    quarantine := s.tables.quarantine.map fun row =>
      if row.rawJobId = some raw.id ∧ row.isOpen then { row with isOpen := false } else row } }

/-- `quarantine.record_raw_job_failure`. -/
def recordRawJobFailure (raw : RawJob) (summary : RunErrorSummary) (exc : PyException) :
    StageM PUnit :=
  .change fun s => { s with tables := { s.tables with
    quarantine := s.tables.quarantine ++
      [{ scrapeRunId := some raw.scrapeRunId
         rawJobId := some raw.id
         sourcePlatform := raw.sourcePlatform
         externalId := some raw.externalId
         isOpen := true
         payloadHash := raw.payloadHash
         errorCategory := summary.category
         errorMessage := String.ofList (summary.message.toList.take 500)
         sourceFieldPath := exc.sourceFieldPath
         retryable := exc.retryable }] } }

/-- Changes the result of the source. -/
def changeResult (f : SourcePipelineResult → SourcePipelineResult) : StageM PUnit :=
  .change fun s => { s with result := f s.result }

/-- `normalized += 1` and `persisted += 1`. -/
def countNormalized : StageM PUnit :=
  changeResult fun result => { result with counts := { result.counts with
    normalized := result.counts.normalized + 1, persisted := result.counts.persisted + 1 } }

/-- `normalization_response_summary`. -/
def normalizationResponseSummary (sourcePlatform : String) (endpointType : Option String)
    (itemsCount successCount failedCount : ℕ) : Dict :=
  [("requestType", .str "normalization"), ("sourcePlatform", .str sourcePlatform),
    ("endpointType", .ofOption endpointType), ("itemsCount", .int itemsCount),
    ("successCount", .int successCount), ("failedCount", .int failedCount)]

/-- A prompt item dumped, as the log hashes it. -/
def AINormalizationBatchPromptItem.modelDump (item : AINormalizationBatchPromptItem) : Json :=
  .dict [("itemId", .str item.itemId), ("sourcePlatform", .str item.sourcePlatform.value),
    ("endpointType", .str item.endpointType.value),
    ("rawPayloadSubset", .dict item.rawPayloadSubset)]

/-! ### The stage -/

/-- What a stage is built with. -/
structure NormalizeStage where
  env : StageHost
  config : PipelineConfig
  client : AiClient
  source : NormalizeSource
  hasQuarantine : Bool

namespace NormalizeStage

variable (stage : NormalizeStage)

/-- `source.source_platform`. -/
def sourcePlatform : String := stage.source.platform.value

/-- `if self.quarantine is not None: …`. -/
def whenQuarantine (action : StageM PUnit) : StageM PUnit :=
  if stage.hasQuarantine then action else pure ⟨⟩

/-- `_record_normalize_failure`. -/
def recordNormalizeFailure (raw : RawJob) (exc : PyException) : StageM PUnit := do
  let summary := errorSummary stage.sourcePlatform exc
  changeResult fun result =>
    { result with
      errors := result.errors ++ [summary]
      counts := { result.counts with skipped := result.counts.skipped + 1 } }
  stage.whenQuarantine (recordRawJobFailure raw summary exc)

/-- The row `_record_normalization_ai_log` creates. -/
def aiLog (raw : RawJob) (item : AINormalizationBatchPromptItem) (status : AIRequestStatus)
    (normalizedJobId : Option String) (summary : Dict) (error : Option PyException)
    (s : StageSession) : AIRequestLog where
  scrapeRunId := some raw.scrapeRunId
  normalizedJobId := normalizedJobId
  provider := "openai-compatible"
  model := stage.client.model s.calls
  baseUrlAlias := stage.env.baseUrlAlias
  latencyMs := some (stage.env.host.latencyMs s.ticks)
  status := status
  retryCount := 0
  requestHash := stage.env.hash.digest item.modelDump
  responseSummary := some (stage.env.sanitizeSummary summary)
  errorCategory := error.map PyException.category
  errorMessage := error.map fun exc => stage.env.safeMessage exc.message

/-- `_record_normalization_ai_log`. -/
def recordNormalizationAiLog (raw : RawJob) (item : AINormalizationBatchPromptItem)
    (status : AIRequestStatus) (normalizedJobId : Option String) (summary : Dict)
    (error : Option PyException) : StageM PUnit :=
  dbOperationWithRetry stage.env fun s => (⟨⟩, { s with tables := { s.tables with
    aiRequestLogs := s.tables.aiRequestLogs ++
      [stage.aiLog raw item status normalizedJobId summary error s] } })

/-- The writes that follow an accepted job: the row, its log, the quarantine, the counters. -/
def storeNormalized (raw : RawJob) (item : AINormalizationBatchPromptItem)
    (job : CanonicalJobSchema) : StageM PUnit := do
  let normalizedJobId ← upsertNormalizedJobWithRetry stage.env raw job
  stage.recordNormalizationAiLog raw item .success (some normalizedJobId)
    (normalizationResponseSummary stage.sourcePlatform (some item.endpointType.value) 1 1 0) none
  stage.whenQuarantine (resolveForRawJob raw)
  countNormalized

/-- The items a batch sends, each with its raw job: `raw_by_item_id` and `prompt_items`. -/
abbrev PromptItems := List (RawJob × AINormalizationBatchPromptItem)

/-- One turn of the first loop of `_normalize_batch`: the item to send, if there is one. A raw job
    without a payload is stored as its source maps it. -/
def promptItem (raw : RawJob) : StageM (Option (RawJob × AINormalizationBatchPromptItem)) :=
  match stage.source.mapRawJob raw with
  | .error exc => do
    stage.recordNormalizeFailure raw exc
    pure none
  | .ok mapped => do
    match ← Stateful.ofExcept (promptInputFromRawJob stage.env.isoformat raw stage.sourcePlatform
        stage.config.aiOutputLanguage) with
    | none =>
      let _ ← upsertNormalizedJobWithRetry stage.env raw mapped
      stage.whenQuarantine (resolveForRawJob raw)
      countNormalized
      pure none
    | some prompt =>
      pure (some (raw,
        { itemId := raw.id
          sourcePlatform := prompt.sourcePlatform
          endpointType := prompt.endpointType
          rawPayloadSubset := prompt.rawPayloadSubset }))

/-- The first loop of `_normalize_batch`. -/
def promptItems : List RawJob → StageM PromptItems
  | [] => pure []
  | raw :: rest => do
    let item ← stage.promptItem raw
    let items ← promptItems rest
    pure (item.toList ++ items)

/-- What a failed batch request records for each item. -/
def recordBatchFailure (items : PromptItems) (exc : PyException) : StageM PUnit :=
  .forEach items fun entry => do
    stage.recordNormalizeFailure entry.1 (normalizeErrorFromAiException exc entry.1.externalId)
    stage.recordNormalizationAiLog entry.1 entry.2 .failed none
      (normalizationResponseSummary stage.sourcePlatform none items.length 0 items.length)
      (some exc)

/-- One turn of the last loop of `_normalize_batch`. -/
def storeBatchItem (items : PromptItems) (result : AINormalizationBatchItemResult) :
    StageM PUnit :=
  match items.find? fun entry => entry.2.itemId = result.itemId.1 with
  | none => .raise (.plain "KeyError" result.itemId.1)
  | some (raw, item) =>
    match result.normalizedJob with
    | some job => stage.storeNormalized raw item job
    | none => do
      let exc := normalizeErrorFromBatchItem raw.externalId result.errorCode result.errorMessage
      stage.recordNormalizeFailure raw exc
      stage.recordNormalizationAiLog raw item .failed none
        (normalizationResponseSummary stage.sourcePlatform (some item.endpointType.value) 1 0 1)
        (some exc)

/-- `_apply_ai_normalization`. -/
def applyAiNormalization (raw : RawJob) (mapped : CanonicalJobSchema) :
    StageM CanonicalJobSchema := do
  match ← Stateful.ofExcept (promptInputFromRawJob stage.env.isoformat raw stage.sourcePlatform
      stage.config.aiOutputLanguage) with
  | none => pure mapped
  | some prompt =>
    .handle (stage.client.normalizeJob prompt) fun exc =>
      .raise (normalizeErrorFromAiException exc raw.externalId)

/-- `_map_stored_raw_job`. -/
def mapStoredRawJob (raw : RawJob) : StageM CanonicalJobSchema := do
  let mapped ← Stateful.ofExcept (stage.source.mapRawJob raw)
  stage.applyAiNormalization raw mapped

/-- One turn of `_normalize_batch_with_single_requests`. -/
def normalizeSingle (entry : RawJob × AINormalizationBatchPromptItem) : StageM PUnit := do
  commitNormalizeProgress stage.env
  match ← Stateful.attempt (stage.mapStoredRawJob entry.1) with
  | .ok job => stage.storeNormalized entry.1 entry.2 job
  | .error exc => do
    stage.recordNormalizeFailure entry.1 exc
    stage.recordNormalizationAiLog entry.1 entry.2 .failed none
      (normalizationResponseSummary stage.sourcePlatform (some entry.2.endpointType.value) 1 0 1)
      (some exc)

/-- The request of `_normalize_batch` and what follows it. -/
def normalizeItems (items : PromptItems) : StageM PUnit :=
  if items.isEmpty then pure ⟨⟩
  else if stage.client.hasNormalizeJobs then do
    commitNormalizeProgress stage.env
    match ← Stateful.attempt (stage.client.normalizeJobs
        { items := items.map Prod.snd, outputLanguage := stage.config.aiOutputLanguage }) with
    | .error exc => stage.recordBatchFailure items exc
    | .ok results => .forEach results (stage.storeBatchItem items)
  else .forEach items stage.normalizeSingle

/-- `_normalize_batch`. -/
def normalizeBatch (rawBatch : List RawJob) : StageM PUnit := do
  let items ← stage.promptItems rawBatch
  stage.normalizeItems items

/-- `chunked`. -/
def chunked {α : Type} (size : ℕ) (items : List α) : List (List α) :=
  (List.range ((items.length + size - 1) / size)).map fun index =>
    (items.drop (index * size)).take size

/-- `_normalize_source_with_ai_batch`. -/
def normalizeSourceWithAiBatch (rawJobs : List RawJob) : StageM PUnit :=
  .forEach (chunked stage.config.aiNormalizationBatchSize rawJobs) fun rawBatch => do
    commitNormalizeProgress stage.env
    stage.normalizeBatch rawBatch
    commitNormalizeProgress stage.env

end NormalizeStage

/-- The raw rows `_normalize_source` selects, in its order. -/
def normalizeScope (db : JobTables) (platform : String) (scrapeRunId : Option String) :
    List RawJob :=
  (db.rawJobs.rows.filter fun raw =>
    raw.sourcePlatform = platform && scrapeRunId.all (raw.scrapeRunId = ·)).insertionSort
    fun a b => a.scrapedAt < b.scrapedAt ∨ (a.scrapedAt = b.scrapedAt ∧ a.id.toList ≤ b.id.toList)

end Bisakerja
