import BisakerjaScraper.Pipeline.NormalizeSource
import BisakerjaScraper.Pipeline.Scrape
import BisakerjaScraper.Schemes.Calls

/-! What leaves a source as an exception.

    Every call a source makes in the scrape or the normalize stage may return or raise: to its
    fetcher or its mapper, to the AI, the backend, the database, the quarantine or the progress
    hook. Each call of a pass is named by its place, so that any outcomes at all are an input. A
    pass raises when a call raises that no handler stands over. -/

namespace Bisakerja
open Schemes

/-- A computation on the result of a source. -/
abbrev SourceM := Stateful SourcePipelineResult PyException

namespace PyException

/-- `except OperationalError`. -/
def isOperational : PyException → Bool
  | .other className _ _ _ => className = "OperationalError"
  | .scraper _ _ _ _ _ => false

/-- `except BackendIdentityLookupError`. -/
def isLookupError : PyException → Bool
  | .other className _ _ _ => className = "BackendIdentityLookupError"
  | .scraper _ _ _ _ _ => false

end PyException

/-! ### A database operation with one retry -/

/-- The calls of `_db_operation_with_retry`. A commit that finds no transaction is one that returns. -/
structure RetryCalls where
  first : Option PyException := none
  rollback : Option PyException := none
  emitProgress : Option PyException := none
  second : Option PyException := none
  secondRollback : Option PyException := none

namespace RetryCalls

variable (calls : RetryCalls)

/-- `_db_operation_with_retry`. -/
def run : SourceM PUnit :=
  .handle (.call calls.first) fun exc =>
    if exc.isOperational then do
      .call calls.rollback
      .call calls.emitProgress
      .handle (.call calls.second) fun exc =>
        if exc.isOperational then do
          .call calls.secondRollback
          .raise exc
        else .raise exc
    else .raise exc

/-- The operation fails: another exception than the one it is retried after, or no luck the second
    time. -/
def Fails : Prop :=
  ∃ exc, calls.first = some exc ∧ (exc.isOperational = true →
    calls.rollback ≠ none ∨ calls.emitProgress ≠ none ∨ calls.second ≠ none)

variable {calls}

theorem ends_second : Ends (.handle (.call calls.second) fun exc =>
    if exc.isOperational then do
      .call calls.secondRollback
      .raise exc
    else .raise exc : SourceM PUnit) (calls.second ≠ none) ⟨⟩ := by
  refine ((Ends.call calls.second).handle (d := True) fun exc => ?_).of_iff (by simp)
  split
  · exact ((Ends.call calls.secondRollback).bind (.raise exc _)).of_iff (by simp)
  · exact .raise exc _

theorem ends_run : Ends calls.run calls.Fails ⟨⟩ := by
  unfold run Fails
  cases hfirst : calls.first with
  | none => exact (Ends.pure _).of_iff (by simp)
  | some exc =>
    change Ends (if exc.isOperational then _ else _) _ _
    cases hclass : exc.isOperational with
    | true =>
      rw [if_pos rfl]
      refine (((Ends.call _).bind ((Ends.call _).bind ends_second))).of_iff ?_
      simp [hclass]
    | false =>
      rw [if_neg (by decide)]
      exact (Ends.raise _ _).of_iff (by simp [hclass])

end RetryCalls

/-! ### Scraping -/

/-- A source in a scrape run. `started` is what `source_pipeline_result_from` reads off it; the rows
    are written in the order of the jobs. -/
structure ScrapeCalls where
  started : SourcePipelineResult
  recencyMode : String
  fetchRawJobs : Except PyException (List LiveRawJob)
  paginationReport : Option Dict := none
  upsertRawJob : ℕ → Option PyException := fun _ => none
  commit : Option PyException := none
  rollback : Option PyException := none

namespace ScrapeCalls

variable (calls : ScrapeCalls) (allowPartial : Bool)

/-- The result after the fetch. -/
def fetchedResult (fetched : List LiveRawJob) (result : SourcePipelineResult) :
    SourcePipelineResult :=
  let bounded := updateSourceTimestampBounds
    { result with counts := { result.counts with fetched := fetched.length } } fetched
  match calls.paginationReport with
  | some report => updateSourcePaginationReport bounded report
  | none => bounded

/-- The `try` block of `_scrape_source`. -/
def scrapeBody : SourceM PUnit := do
  let jobs ← Stateful.ofExcept calls.fetchRawJobs
  let fetched := orderFetchedRawJobs calls.recencyMode jobs
  .change (calls.fetchedResult fetched)
  .forEach fetched.zipIdx fun entry => do
    .call (calls.upsertRawJob entry.2)
    .change fun result => result.countWritten 1
  .call calls.commit
  .change fun result => { result with status := .completed }

/-- The result after the `except` block of `_scrape_source`. -/
def recordFailure (exc : PyException) (result : SourcePipelineResult) : SourcePipelineResult :=
  { result with
    errors := result.errors ++ [errorSummary calls.started.sourcePlatform exc]
    counts := { result.counts with skipped := result.counts.fetched - result.counts.persisted }
    status := .failed }

/-- `_scrape_source`. -/
def scrapeSource : SourceM PUnit :=
  .handle calls.scrapeBody fun exc => do
    .call calls.rollback
    .change (calls.recordFailure exc)
    if allowPartial then pure ⟨⟩ else .raise exc

/-- Some call of the `try` block raises. -/
def BodyFails : Prop :=
  match calls.fetchRawJobs with
  | .error _ => True
  | .ok jobs =>
    (∃ entry ∈ (orderFetchedRawJobs calls.recencyMode jobs).zipIdx,
      calls.upsertRawJob entry.2 ≠ none) ∨ calls.commit ≠ none

/-- An exception leaves the source: where partial runs are not allowed, or where the rollback raises
    too. -/
def Escapes : Prop := calls.BodyFails ∧ (calls.rollback ≠ none ∨ allowPartial = false)

variable {calls allowPartial}

theorem ends_scrapeBody : Ends calls.scrapeBody calls.BodyFails ⟨⟩ := by
  unfold scrapeBody BodyFails
  cases calls.fetchRawJobs with
  | error exc => exact .raise exc _
  | ok jobs =>
    refine Ends.step (a := jobs) (fun _ => .inr ⟨id, rfl⟩) ((Ends.change _).step ?_)
    refine (Ends.forEach _ fun entry => ?_).bind
      (((Ends.call calls.commit).bind (.change _)).of_iff (by simp))
    exact ((Ends.call _).bind (.change _)).of_iff (by simp)

theorem ends_scrapeSource :
    Ends (calls.scrapeSource allowPartial) (calls.Escapes allowPartial) ⟨⟩ := by
  refine ends_scrapeBody.handle fun exc => (Ends.call _).bind ((Ends.change _).step ?_)
  cases allowPartial with
  | true => exact (Ends.pure _).of_iff (by simp)
  | false => exact (Ends.raise _ _).of_iff (by simp)

end ScrapeCalls

/-! ### Normalizing -/

/-- The calls for a raw job before it is in a batch request, or without an AI client. -/
structure JobCalls where
  mapRawJob : Option PyException := none
  upsertNormalizedJob : RetryCalls := {}
  resolveForRawJob : Option PyException := none
  recordRawJobFailure : Option PyException := none

/-- The calls for an item of a batch. -/
structure ItemCalls where
  commitNormalizeProgress : RetryCalls := {}
  mapStoredRawJob : Option PyException := none
  upsertNormalizedJob : RetryCalls := {}
  recordAiLog : RetryCalls := {}
  resolveForRawJob : Option PyException := none
  recordRawJobFailure : Option PyException := none

/-- The calls for a batch. The items are told apart by their place: in the answer, or in the request
    where there is no answer to the batch. -/
structure BatchCalls where
  commitBefore : RetryCalls := {}
  emitProgress : Option PyException := none
  commitRequest : RetryCalls := {}
  normalizeJobs : Except PyException (List AINormalizationBatchItemResult)
  item : ℕ → ItemCalls := fun _ => {}
  commitAfter : RetryCalls := {}
  emitWait : Option PyException := none

/-- A source in a normalize run. -/
structure NormalizeCalls where
  sourcePlatform : String
  rawJobs : Except PyException (List RawJob)
  findExisting : Option PyException := none
  resolveForRawJobs : Option PyException := none
  decision : RawJob → EligibilityDecisionReason := fun _ => .normalizationEligible
  job : RawJob → JobCalls := fun _ => {}
  batch : ℕ → BatchCalls := fun _ => { normalizeJobs := .ok [] }
  commit : Option PyException := none

/-- What the orchestrator is built with, as far as it says which calls a source makes. -/
structure StageSettings where
  isoformat : Time → String
  eligibilityResolver : Option IdentityText := none
  hasBackendIdentityLookup : Bool := false
  requireBackendIdentityLookup : Bool := false
  hasAiClient : Bool := false
  hasNormalizeJobs : Bool := true
  hasQuarantine : Bool := false
  hasInterBatchDelay : Bool := false
  config : PipelineConfig := {}

namespace NormalizeCalls

variable (calls : NormalizeCalls) (settings : StageSettings)

/-- `if self.quarantine is not None: …`. -/
def quarantineCall (outcome : Option PyException) : SourceM PUnit :=
  if settings.hasQuarantine then .call outcome else pure ⟨⟩

/-- `normalized += 1` and `persisted += 1`. -/
def countNormalized : SourceM PUnit :=
  .change fun result => { result with counts := { result.counts with
    normalized := result.counts.normalized + 1, persisted := result.counts.persisted + 1 } }

/-- `_record_normalize_failure`. -/
def recordNormalizeFailure (recordRawJobFailure : Option PyException) (exc : PyException) :
    SourceM PUnit := do
  .change fun result =>
    { result with
      errors := result.errors ++ [errorSummary calls.sourcePlatform exc]
      counts := { result.counts with skipped := result.counts.skipped + 1 } }
  quarantineCall settings recordRawJobFailure

/-- `_lookup_backend_identities`. -/
def lookupBackendIdentities (text : IdentityText) (rawJobs : List RawJob) : SourceM PUnit :=
  if askedIdentities text rawJobs = [] then pure ⟨⟩
  else if settings.hasBackendIdentityLookup then
    .handle (.call calls.findExisting) fun exc =>
      if exc.isLookupError then
        if settings.requireBackendIdentityLookup then
          .raise (lookupError "backend identity lookup failed" true)
        else pure ⟨⟩
      else .raise exc
  else if settings.requireBackendIdentityLookup then
    .raise (lookupError "backend identity lookup is required but not configured" false)
  else pure ⟨⟩

/-- `eligible_raw_jobs`. -/
def eligible (rawJobs : List RawJob) : List RawJob :=
  match settings.eligibilityResolver with
  | some _ => rawJobs.filter fun raw => calls.decision raw = .normalizationEligible
  | none => rawJobs

/-- The gate of `_normalize_source`. -/
def gate (rawJobs : List RawJob) : SourceM PUnit :=
  match settings.eligibilityResolver with
  | some text => do
    calls.lookupBackendIdentities settings text rawJobs
    .call calls.resolveForRawJobs
    .change fun result => { result with counts := { result.counts with
      skipped := result.counts.skipped + (rawJobs.length - (calls.eligible settings rawJobs).length) } }
  | none =>
    if settings.requireBackendIdentityLookup then .raise gateRequiredError else pure ⟨⟩

/-- The `try` block for a raw job that is stored as it was mapped. -/
def storeMapped (job : JobCalls) : SourceM PUnit := do
  .call job.mapRawJob
  job.upsertNormalizedJob.run
  quarantineCall settings job.resolveForRawJob
  countNormalized

/-- One turn of the loop without an AI client. -/
def normalizeMapped (raw : RawJob) : SourceM PUnit := do
  match ← Stateful.attempt (storeMapped settings (calls.job raw)) with
  | .ok _ => pure ⟨⟩
  | .error exc => calls.recordNormalizeFailure settings (calls.job raw).recordRawJobFailure exc

/-- `prompt_input_from_raw_job`. -/
def promptInput (raw : RawJob) : Except PyException (Option AINormalizationPromptInput) :=
  promptInputFromRawJob settings.isoformat raw calls.sourcePlatform settings.config.aiOutputLanguage

/-- A raw job that the batch asks the AI for. -/
def prompted (raw : RawJob) : Bool :=
  (calls.job raw).mapRawJob.isNone && match calls.promptInput settings raw with
    | .ok prompt => prompt.isSome
    | .error _ => false

/-- One turn of the first loop of `_normalize_batch`. -/
def promptItem (raw : RawJob) : SourceM PUnit :=
  match (calls.job raw).mapRawJob with
  | some exc => calls.recordNormalizeFailure settings (calls.job raw).recordRawJobFailure exc
  | none =>
    match calls.promptInput settings raw with
    | .error exc => .raise exc
    | .ok none => do
      (calls.job raw).upsertNormalizedJob.run
      quarantineCall settings (calls.job raw).resolveForRawJob
      countNormalized
    | .ok (some _) => if raw.id = "" then .raise (.plain "ValidationError" "itemId") else pure ⟨⟩

/-- The writes that follow an accepted job. -/
def storeNormalized (item : ItemCalls) : SourceM PUnit := do
  item.upsertNormalizedJob.run
  item.recordAiLog.run
  quarantineCall settings item.resolveForRawJob
  countNormalized

/-- The writes that follow a failed item. -/
def recordItemFailure (item : ItemCalls) (exc : PyException) : SourceM PUnit := do
  calls.recordNormalizeFailure settings item.recordRawJobFailure exc
  item.recordAiLog.run

/-- One turn of the last loop of `_normalize_batch`. -/
def storeBatchItem (items : List RawJob) (item : ItemCalls)
    (result : AINormalizationBatchItemResult) : SourceM PUnit :=
  match items.find? fun raw => raw.id = result.itemId.1 with
  | none => .raise (.plain "KeyError" result.itemId.1)
  | some raw =>
    match result.normalizedJob with
    | some _ => storeNormalized settings item
    | none => calls.recordItemFailure settings item
        (normalizeErrorFromBatchItem raw.externalId result.errorCode result.errorMessage)

/-- One turn of `_normalize_batch_with_single_requests`. -/
def normalizeSingle (item : ItemCalls) : SourceM PUnit := do
  item.commitNormalizeProgress.run
  match item.mapStoredRawJob with
  | some exc => calls.recordItemFailure settings item exc
  | none => storeNormalized settings item

/-- The batch request of `_normalize_batch` and what follows it. -/
def requestItems (batch : BatchCalls) (items : List RawJob) : SourceM PUnit := do
  batch.commitRequest.run
  match batch.normalizeJobs with
  | .error exc =>
    .forEach items.zipIdx fun entry =>
      calls.recordItemFailure settings (batch.item entry.2)
        (normalizeErrorFromAiException exc entry.1.externalId)
  | .ok results =>
    .forEach results.zipIdx fun entry =>
      calls.storeBatchItem settings items (batch.item entry.2) entry.1

/-- The part of `_normalize_batch` behind its first loop. -/
def normalizeItems (batch : BatchCalls) (items : List RawJob) : SourceM PUnit :=
  if items = [] then pure ⟨⟩
  else if settings.hasNormalizeJobs then calls.requestItems settings batch items
  else .forEach items.zipIdx fun entry => calls.normalizeSingle settings (batch.item entry.2)

/-- One turn of `_normalize_source_with_ai_batch`. -/
def normalizeBatch (total : ℕ) (entry : List RawJob × ℕ) : SourceM PUnit := do
  (calls.batch entry.2).commitBefore.run
  .call (calls.batch entry.2).emitProgress
  .forEach entry.1 (calls.promptItem settings)
  calls.normalizeItems settings (calls.batch entry.2) (entry.1.filter (calls.prompted settings))
  (calls.batch entry.2).commitAfter.run
  if settings.hasInterBatchDelay = true ∧ entry.2 + 1 < total then
    .call (calls.batch entry.2).emitWait
  else pure ⟨⟩

/-- The batches of a source. -/
def batches (rawJobs : List RawJob) : List (List RawJob) :=
  NormalizeStage.chunked settings.config.aiNormalizationBatchSize (calls.eligible settings rawJobs)

/-- The part of `_normalize_source` behind the gate. -/
def normalizeEligible (rawJobs : List RawJob) : SourceM PUnit :=
  if settings.hasAiClient then
    .forEach (calls.batches settings rawJobs).zipIdx
      (calls.normalizeBatch settings (calls.batches settings rawJobs).length)
  else .forEach (calls.eligible settings rawJobs) (calls.normalizeMapped settings)

/-- `_normalize_source`. -/
def normalizeSource : SourceM PUnit := do
  let rawJobs ← Stateful.ofExcept calls.rawJobs
  .change fun result => { result with counts := { result.counts with fetched := rawJobs.length } }
  calls.gate settings rawJobs
  calls.normalizeEligible settings rawJobs
  .call calls.commit
  .change PipelineOrchestrator.closeResult

/-! ### Which calls no handler stands over -/

/-- A call to the quarantine, where there is one, raises. -/
def QuarantineFails (outcome : Option PyException) : Prop :=
  settings.hasQuarantine = true ∧ outcome ≠ none

/-- The backend is asked for, and the lookup does not come through: not configured but required, or
    raising what is not let pass. -/
def LookupFails (text : IdentityText) (rawJobs : List RawJob) : Prop :=
  askedIdentities text rawJobs ≠ [] ∧
    if settings.hasBackendIdentityLookup then
      ∃ exc, calls.findExisting = some exc ∧
        (exc.isLookupError = true → settings.requireBackendIdentityLookup = true)
    else settings.requireBackendIdentityLookup = true

/-- The gate raises. -/
def GateFails (rawJobs : List RawJob) : Prop :=
  match settings.eligibilityResolver with
  | some text => calls.LookupFails settings text rawJobs ∨ calls.resolveForRawJobs ≠ none
  | none => settings.requireBackendIdentityLookup = true

/-- A job cannot be stored as it was mapped. -/
def StoreFails (job : JobCalls) : Prop :=
  job.mapRawJob ≠ none ∨ job.upsertNormalizedJob.Fails ∨
    QuarantineFails settings job.resolveForRawJob

/-- A turn without an AI client: the failure cannot be quarantined either. -/
def TurnEscapes (raw : RawJob) : Prop :=
  StoreFails settings (calls.job raw) ∧
    QuarantineFails settings (calls.job raw).recordRawJobFailure

/-- A turn of the first loop of a batch: only the mapper has a handler. -/
def PromptEscapes (raw : RawJob) : Prop :=
  match (calls.job raw).mapRawJob with
  | some _ => QuarantineFails settings (calls.job raw).recordRawJobFailure
  | none =>
    match calls.promptInput settings raw with
    | .error _ => True
    | .ok none => (calls.job raw).upsertNormalizedJob.Fails ∨
        QuarantineFails settings (calls.job raw).resolveForRawJob
    | .ok (some _) => raw.id = ""

/-- The writes for an accepted job have no handler. -/
def AcceptedEscapes (item : ItemCalls) : Prop :=
  item.upsertNormalizedJob.Fails ∨ item.recordAiLog.Fails ∨
    QuarantineFails settings item.resolveForRawJob

/-- Nor have those for a failed item. -/
def FailedEscapes (item : ItemCalls) : Prop :=
  QuarantineFails settings item.recordRawJobFailure ∨ item.recordAiLog.Fails

/-- A result of a batch answer: it must also answer an item of the batch. -/
def ResultEscapes (items : List RawJob) (item : ItemCalls)
    (result : AINormalizationBatchItemResult) : Prop :=
  match items.find? fun raw => raw.id = result.itemId.1 with
  | none => True
  | some _ =>
    match result.normalizedJob with
    | some _ => AcceptedEscapes settings item
    | none => FailedEscapes settings item

/-- An item that is asked for on its own. -/
def SingleEscapes (item : ItemCalls) : Prop :=
  item.commitNormalizeProgress.Fails ∨
    match item.mapStoredRawJob with
    | some _ => FailedEscapes settings item
    | none => AcceptedEscapes settings item

/-- The request of a batch, whose answer has a handler, and what follows it. -/
def RequestEscapes (batch : BatchCalls) (items : List RawJob) : Prop :=
  batch.commitRequest.Fails ∨
    match batch.normalizeJobs with
    | .error _ => ∃ entry ∈ items.zipIdx, FailedEscapes settings (batch.item entry.2)
    | .ok results => ∃ entry ∈ results.zipIdx, ResultEscapes settings items (batch.item entry.2) entry.1

/-- The part of a batch behind its first loop. -/
def ItemsEscape (batch : BatchCalls) (items : List RawJob) : Prop :=
  items ≠ [] ∧
    if settings.hasNormalizeJobs then RequestEscapes settings batch items
    else ∃ entry ∈ items.zipIdx, SingleEscapes settings (batch.item entry.2)

/-- A batch: its commits and the progress hook have no handler. -/
def BatchEscapes (total : ℕ) (entry : List RawJob × ℕ) : Prop :=
  (calls.batch entry.2).commitBefore.Fails ∨ (calls.batch entry.2).emitProgress ≠ none ∨
    (∃ raw ∈ entry.1, calls.PromptEscapes settings raw) ∨
    ItemsEscape settings (calls.batch entry.2) (entry.1.filter (calls.prompted settings)) ∨
    (calls.batch entry.2).commitAfter.Fails ∨
    (settings.hasInterBatchDelay = true ∧ entry.2 + 1 < total) ∧
      (calls.batch entry.2).emitWait ≠ none

/-- Behind the gate an exception leaves the source. -/
def EligibleEscape (rawJobs : List RawJob) : Prop :=
  if settings.hasAiClient then
    ∃ entry ∈ (calls.batches settings rawJobs).zipIdx,
      calls.BatchEscapes settings (calls.batches settings rawJobs).length entry
  else ∃ raw ∈ calls.eligible settings rawJobs, calls.TurnEscapes settings raw

/-- An exception leaves the source: from its read, from the gate, from behind the gate, or from the
    last commit. -/
def Escapes : Prop :=
  match calls.rawJobs with
  | .error _ => True
  | .ok rawJobs => calls.GateFails settings rawJobs ∨ calls.EligibleEscape settings rawJobs ∨
      calls.commit ≠ none

/-! ### A source raises exactly then -/

variable {calls settings}

theorem ends_quarantineCall (outcome : Option PyException) :
    Ends (quarantineCall settings outcome) (QuarantineFails settings outcome) ⟨⟩ := by
  unfold quarantineCall QuarantineFails
  cases settings.hasQuarantine with
  | true => exact (Ends.call outcome).of_iff (by simp)
  | false => exact (Ends.pure _).of_iff (by simp)

theorem ends_recordNormalizeFailure (outcome : Option PyException) (exc : PyException) :
    Ends (calls.recordNormalizeFailure settings outcome exc) (QuarantineFails settings outcome) ⟨⟩ :=
  (Ends.change _).step (ends_quarantineCall outcome)

theorem ends_counted (outcome : Option PyException) : Ends (do
    quarantineCall settings outcome
    countNormalized) (QuarantineFails settings outcome) ⟨⟩ :=
  ((ends_quarantineCall outcome).bind (.change _)).of_iff (by simp)

theorem ends_lookupBackendIdentities (text : IdentityText) (rawJobs : List RawJob) :
    Ends (calls.lookupBackendIdentities settings text rawJobs)
      (calls.LookupFails settings text rawJobs) ⟨⟩ := by
  unfold lookupBackendIdentities LookupFails
  split
  · next hempty => exact (Ends.pure _).of_iff (by simp [hempty])
  · next hasked =>
    cases settings.hasBackendIdentityLookup with
    | true =>
      rw [if_pos rfl, if_pos rfl]
      cases hfind : calls.findExisting with
      | none => exact (Ends.pure _).of_iff (by simp)
      | some exc =>
        change Ends (if exc.isLookupError then _ else _) _ _
        cases hclass : exc.isLookupError with
        | true =>
          rw [if_pos rfl]
          cases settings.requireBackendIdentityLookup with
          | true => exact (Ends.raise _ _).of_iff (by simp [hasked])
          | false => exact (Ends.pure _).of_iff (by simp [hclass])
        | false =>
          rw [if_neg Bool.false_ne_true]
          exact (Ends.raise _ _).of_iff (by simp [hasked, hclass])
    | false =>
      rw [if_neg Bool.false_ne_true, if_neg Bool.false_ne_true]
      cases settings.requireBackendIdentityLookup with
      | true => exact (Ends.raise _ _).of_iff (by simp [hasked])
      | false => exact (Ends.pure _).of_iff (by simp)

theorem ends_gate (rawJobs : List RawJob) :
    Ends (calls.gate settings rawJobs) (calls.GateFails settings rawJobs) ⟨⟩ := by
  unfold gate GateFails
  cases settings.eligibilityResolver with
  | some text =>
    exact (ends_lookupBackendIdentities text rawJobs).bind
      (((Ends.call _).bind (.change _)).of_iff (by simp))
  | none =>
    dsimp only
    cases settings.requireBackendIdentityLookup with
    | true => exact (Ends.raise _ _).of_iff (by simp)
    | false => exact (Ends.pure _).of_iff (by simp)

theorem ends_storeMapped (job : JobCalls) :
    Ends (storeMapped settings job) (StoreFails settings job) ⟨⟩ :=
  (Ends.call _).bind (RetryCalls.ends_run.bind (ends_counted _))

theorem ends_normalizeMapped (raw : RawJob) :
    Ends (calls.normalizeMapped settings raw) (calls.TurnEscapes settings raw) ⟨⟩ := by
  unfold normalizeMapped TurnEscapes
  refine Ends.of_iff (Ends.attempt_bind (d := False)
    (r := QuarantineFails settings (calls.job raw).recordRawJobFailure)
    (ends_storeMapped (calls.job raw)) ?_ fun exc => ?_) (by simp)
  · exact .pure _
  · exact ends_recordNormalizeFailure _ exc

theorem ends_promptItem (raw : RawJob) :
    Ends (calls.promptItem settings raw) (calls.PromptEscapes settings raw) ⟨⟩ := by
  unfold promptItem PromptEscapes
  cases (calls.job raw).mapRawJob with
  | some exc => exact ends_recordNormalizeFailure _ exc
  | none =>
    rcases calls.promptInput settings raw with exc | _ | prompt
    · exact .raise exc _
    · exact RetryCalls.ends_run.bind (ends_counted _)
    · exact ((Ends.raise _ _).ite (.pure _)).of_iff (by simp)

theorem ends_storeNormalized (item : ItemCalls) :
    Ends (storeNormalized settings item) (AcceptedEscapes settings item) ⟨⟩ :=
  RetryCalls.ends_run.bind (RetryCalls.ends_run.bind (ends_counted _))

theorem ends_recordItemFailure (item : ItemCalls) (exc : PyException) :
    Ends (calls.recordItemFailure settings item exc) (FailedEscapes settings item) ⟨⟩ :=
  (ends_recordNormalizeFailure _ exc).bind RetryCalls.ends_run

theorem ends_storeBatchItem (items : List RawJob) (item : ItemCalls)
    (result : AINormalizationBatchItemResult) :
    Ends (calls.storeBatchItem settings items item result) (ResultEscapes settings items item result)
      ⟨⟩ := by
  unfold storeBatchItem ResultEscapes
  cases items.find? fun raw => raw.id = result.itemId.1 with
  | none => exact .raise _ _
  | some raw =>
    cases result.normalizedJob with
    | some _ => exact ends_storeNormalized item
    | none => exact ends_recordItemFailure item _

theorem ends_normalizeSingle (item : ItemCalls) :
    Ends (calls.normalizeSingle settings item) (SingleEscapes settings item) ⟨⟩ := by
  refine RetryCalls.ends_run.bind ?_
  cases item.mapStoredRawJob with
  | some exc => exact ends_recordItemFailure item exc
  | none => exact ends_storeNormalized item

theorem ends_requestItems (batch : BatchCalls) (items : List RawJob) :
    Ends (calls.requestItems settings batch items) (RequestEscapes settings batch items) ⟨⟩ := by
  refine RetryCalls.ends_run.bind ?_
  cases batch.normalizeJobs with
  | error exc => exact .forEach _ fun entry => ends_recordItemFailure _ _
  | ok results => exact .forEach _ fun entry => ends_storeBatchItem _ _ _

theorem ends_normalizeItems (batch : BatchCalls) (items : List RawJob) :
    Ends (calls.normalizeItems settings batch items) (ItemsEscape settings batch items) ⟨⟩ := by
  unfold normalizeItems ItemsEscape
  split
  · next hempty => exact (Ends.pure _).of_iff (by simp [hempty])
  · next hitems =>
    refine ((ends_requestItems batch items).ite
      (.forEach _ fun entry => ends_normalizeSingle _)).of_iff ?_
    simp only [ne_eq, hitems, not_false_eq_true, true_and]

theorem ends_normalizeBatch (total : ℕ) (entry : List RawJob × ℕ) :
    Ends (calls.normalizeBatch settings total entry) (calls.BatchEscapes settings total entry)
      ⟨⟩ := by
  refine RetryCalls.ends_run.bind ((Ends.call _).bind ((Ends.forEach _ ends_promptItem).bind
    ((ends_normalizeItems _ _).bind (RetryCalls.ends_run.bind ?_))))
  exact ((Ends.call _).ite (.pure _)).of_iff (by simp)

theorem ends_normalizeEligible (rawJobs : List RawJob) :
    Ends (calls.normalizeEligible settings rawJobs) (calls.EligibleEscape settings rawJobs) ⟨⟩ := by
  unfold normalizeEligible EligibleEscape
  exact (Ends.forEach _ fun entry => ends_normalizeBatch _ entry).ite
    (.forEach _ ends_normalizeMapped)

/-- A source raises in the normalize stage exactly when an exception escapes its handlers. -/
theorem ends_normalizeSource : Ends (calls.normalizeSource settings) (calls.Escapes settings) ⟨⟩ := by
  unfold normalizeSource Escapes
  cases calls.rawJobs with
  | error exc => exact .raise exc _
  | ok rawJobs =>
    refine Ends.step (a := rawJobs) (fun _ => .inr ⟨id, rfl⟩) ((Ends.change _).step ?_)
    exact (ends_gate rawJobs).bind ((ends_normalizeEligible rawJobs).bind
      (((Ends.call _).bind (.change _)).of_iff (by simp)))

end NormalizeCalls

end Bisakerja
