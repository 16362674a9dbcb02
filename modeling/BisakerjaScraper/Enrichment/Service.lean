import BisakerjaScraper.Enrichment.Repositories

/-! The enrichment stage.

    A batch takes the jobs that are up for enrichment and asks the AI about each. A retryable error
    is asked again while attempts are left; every job ends with one row in the log, and a success
    with its staging rows. -/

namespace Bisakerja
open Schemes

/-- `EnrichmentServiceConfig`. -/
structure EnrichmentServiceConfig where
  provider : String := "openai-compatible"
  model : String := "unknown"
  baseUrl : Option String := none
  batchSize : ℕ := 10
  maxAttempts : ℕ := 2
  batchSize_pos : 0 < batchSize := by decide
  maxAttempts_pos : 0 < maxAttempts := by decide

/-- `EnrichmentJobResult`, without the id of its log row. -/
structure EnrichmentJobResult where
  normalizedJobId : String
  status : AIRequestStatus
  errorCategory : Option String := none
  errorMessage : Option String := none

/-- `EnrichmentBatchResult`. -/
structure EnrichmentBatchResult where
  processed : ℕ := 0
  succeeded : ℕ := 0
  failed : ℕ := 0
  results : List EnrichmentJobResult := []

/-- `EnrichmentService` with its client: what the client answers each call, the model it used last,
    the text `str` makes of a value, and the message of a `ValidationError`. -/
structure EnrichmentService (casefold : String → String) where
  config : EnrichmentServiceConfig
  host : Host
  hash : StableHash
  hostname : String → Option String
  clientModel : String
  lastModel : ℕ → Option String
  enrichJob : ℕ → EnrichmentJobInput → Except PyException (EnrichmentOutput casefold)
  str : Json → String
  validationMessage : NormalizedJob → String

/-- The session of a service: its tables, the calls made and the position of the clock. -/
structure EnrichmentSession where
  tables : StageTables
  calls : ℕ := 0
  ticks : ℕ := 0

/-- `EnrichmentJobInput` dumped. -/
def EnrichmentJobInput.modelDump (job : EnrichmentJobInput) : Json :=
  .dict [("title", .str job.title), ("description", .ofOption job.description),
    ("requirements", .ofOption job.requirements), ("company", .str job.company),
    ("source", .str job.source)]

/-- `as_optional_text`. -/
def asOptionalText : Json → Option String
  | .str s => if strip s ≠ "" then some s else none
  | _ => none

/-- `failed_request_input`. -/
def failedRequestInput : EnrichmentJobInput where
  title := ⟨"unavailable title", by decide⟩
  description := none
  requirements := none
  company := ⟨"unavailable company", by decide⟩
  source := ⟨"unavailable source", by decide⟩
  clean := by decide +kernel

namespace EnrichmentService

variable {casefold : String → String} (service : EnrichmentService casefold)

/-- `enrichment_input_from_job`; `none` is a `ValidationError`. -/
def enrichmentInputFromJob (job : NormalizedJob) : Option EnrichmentJobInput :=
  let payload := job.normalizedPayload
  let company := payload.get "company"
  let companyName :=
    if company.isDict && (company.get "name").truthy then company.get "name"
    else .str job.companyName
  let source := payload.get "source"
  let sourceName :=
    if source.isDict && (source.get "platform").truthy then source.get "platform"
    else .str job.sourcePlatform
  EnrichmentJobInput.validate job.title (asOptionalText (payload.get "description"))
    (asOptionalText (payload.get "requirements")) (service.str companyName) (service.str sourceName)

/-- The model a log row names when the client has not named one: `config.model or client.model`. -/
def fallbackModel : String := orText (some service.config.model) service.clientModel

/-- `selected_model_for_log`. -/
def selectedModelForLog (calls : ℕ) : String :=
  match service.lastModel calls with
  | some model => if strip model ≠ "" then model else service.fallbackModel
  | none => service.fallbackModel

/-- The attempts of `enrich_one`: what they end with, the retries and the calls made. -/
def attempts (request : EnrichmentJobInput) : ℕ → ℕ → ℕ →
    Except PyException (EnrichmentOutput casefold) × ℕ × ℕ
  | 0, retryCount, calls =>
    (.error (.plain "RuntimeError" "unknown enrichment failure"), retryCount, calls)
  | left + 1, retryCount, calls =>
    match service.enrichJob calls request with
    | .ok output => (.ok output, retryCount, calls + 1)
    | .error exc =>
      if !exc.retryable || left = 0 then (.error exc, retryCount, calls + 1)
      else attempts request left (retryCount + 1) (calls + 1)

/-- A log row of a job. -/
def logFor (job : NormalizedJob) (scrapeRunId : Option String) (model : String)
    (latencyMs : ℤ) (status : AIRequestStatus) (retryCount : ℕ) (request : EnrichmentJobInput)
    (responseSummary : Dict) (error : Option PyException) : AIRequestLogInput where
  normalizedJobId := job.id
  scrapeRunId := scrapeRunId
  provider := service.config.provider
  model := model
  baseUrl := service.config.baseUrl
  latencyMs := some latencyMs
  status := status
  retryCount := retryCount
  request := request.modelDump
  responseSummary := some responseSummary
  errorCategory := error.map PyException.category
  errorMessage := error.map PyException.message

/-- A failed job: its log row and its result. -/
def recordFailure (job : NormalizedJob) (scrapeRunId : Option String) (model : String)
    (latencyMs : ℤ) (retryCount : ℕ) (request : EnrichmentJobInput) (exc : PyException)
    (s : EnrichmentSession) : EnrichmentJobResult × EnrichmentSession :=
  ({ normalizedJobId := job.id, status := .failed, errorCategory := some exc.category
     errorMessage := some exc.message },
    { s with
      tables := createAiRequestLog service.hash service.hostname
        (service.logFor job scrapeRunId model latencyMs .failed retryCount request
          [("errorCategory", .str exc.category)] (some exc)) s.tables })

/-- `enrich_one`. -/
def enrichOne (scrapeRunId : Option String) (job : NormalizedJob) (s : EnrichmentSession) :
    EnrichmentJobResult × EnrichmentSession :=
  match service.enrichmentInputFromJob job with
  | none =>
    service.recordFailure job scrapeRunId service.fallbackModel 0 0 failedRequestInput
      (.plain "ValidationError" (service.validationMessage job)) s
  | some request =>
    let ended := service.attempts request service.config.maxAttempts 0 s.calls
    let s' := { s with calls := ended.2.2, ticks := s.ticks + 1 }
    let latencyMs := service.host.latencyMs s.ticks
    let model := service.selectedModelForLog s'.calls
    match ended.1 with
    | .ok output =>
      let logged := createAiRequestLog service.hash service.hostname
        (service.logFor job scrapeRunId model latencyMs .success ended.2.1 request
          (responseSummaryFromOutput output) none) s'.tables
      ({ normalizedJobId := job.id, status := .success },
        { s' with tables := upsertOutput job.id output .ai logged })
    | .error exc => service.recordFailure job scrapeRunId model latencyMs ended.2.1 request exc s'

/-- `enrich_one` for every job of a batch. -/
def enrichAll (scrapeRunId : Option String) :
    List NormalizedJob → EnrichmentSession → List EnrichmentJobResult × EnrichmentSession
  | [], s => ([], s)
  | job :: rest, s =>
    let item := service.enrichOne scrapeRunId job s
    let items := enrichAll scrapeRunId rest item.2
    (item.1 :: items.1, items.2)

/-- `enrich_pending_batch`. -/
def enrichPendingBatch (scrapeRunId : Option String) (s : EnrichmentSession) :
    EnrichmentBatchResult × EnrichmentSession :=
  let enriched := service.enrichAll scrapeRunId
    (s.tables.listUnenrichedJobs service.config.batchSize) s
  ({ processed := enriched.1.length
     succeeded := enriched.1.countP fun item => item.status = .success
     failed := enriched.1.countP fun item => item.status ≠ .success
     results := enriched.1 }, enriched.2)

end EnrichmentService

/-! ### What a batch leaves in the log -/

/-- The jobs whose enrichment succeeded. -/
def succeededOf (results : List EnrichmentJobResult) : List String :=
  (results.filter fun item => item.status = .success).map EnrichmentJobResult.normalizedJobId

theorem succeeded_createAiRequestLog (hash : StableHash) (hostname : String → Option String)
    (item : AIRequestLogInput) (tables : StageTables) :
    (createAiRequestLog hash hostname item tables).succeeded
      = tables.succeeded ++ if item.status = .success then [item.normalizedJobId] else [] := by
  unfold createAiRequestLog StageTables.succeeded
  rw [List.filterMap_append]
  by_cases h : item.status = .success <;> simp [AIRequestLog.successFor, h]

theorem succeeded_upsertOutput {casefold : String → String} (jobId : String)
    (output : EnrichmentOutput casefold) (origin : EnrichmentSource) (tables : StageTables) :
    (upsertOutput jobId output origin tables).succeeded = tables.succeeded := rfl

namespace EnrichmentService

variable {casefold : String → String} (service : EnrichmentService casefold)

/-- One job adds a success to the log exactly when its result is one. -/
theorem succeeded_enrichOne (scrapeRunId : Option String) (job : NormalizedJob)
    (s : EnrichmentSession) :
    (service.enrichOne scrapeRunId job s).2.tables.succeeded
      = s.tables.succeeded ++ succeededOf [(service.enrichOne scrapeRunId job s).1] := by
  unfold enrichOne
  cases service.enrichmentInputFromJob job with
  | none => simp [recordFailure, succeeded_createAiRequestLog, logFor, succeededOf]
  | some request =>
    dsimp only
    cases (service.attempts request service.config.maxAttempts 0 s.calls).1 with
    | error exc => simp [recordFailure, succeeded_createAiRequestLog, logFor, succeededOf]
    | ok output =>
      simp [succeeded_upsertOutput, succeeded_createAiRequestLog, logFor, succeededOf]

theorem succeeded_enrichAll (scrapeRunId : Option String) (jobs : List NormalizedJob)
    (s : EnrichmentSession) :
    (service.enrichAll scrapeRunId jobs s).2.tables.succeeded
      = s.tables.succeeded ++ succeededOf (service.enrichAll scrapeRunId jobs s).1 := by
  induction jobs generalizing s with
  | nil => simp [enrichAll, succeededOf]
  | cons job rest ih =>
    rw [enrichAll]
    dsimp only
    rw [ih, succeeded_enrichOne, List.append_assoc]
    simp only [succeededOf, ← List.map_append, ← List.filter_append, List.singleton_append]

/-- A batch counts each of its jobs once. -/
theorem counts_enrichPendingBatch (scrapeRunId : Option String) (s : EnrichmentSession) :
    let result := (service.enrichPendingBatch scrapeRunId s).1
    result.processed = result.succeeded + result.failed := by
  have h := List.length_eq_countP_add_countP
    (fun item : EnrichmentJobResult => item.status = .success)
    (l := (service.enrichPendingBatch scrapeRunId s).1.results)
  simpa [enrichPendingBatch] using h

end EnrichmentService

end Bisakerja
