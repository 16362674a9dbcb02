import BisakerjaScraper.Enrichment.Schemas
import BisakerjaScraper.Jobs.AiNormalization
import BisakerjaScraper.Schemes.Assign

/-! The clients of the AI provider, and what they count.

    A call takes the next model, counts a request, asks the provider, reads the message of the
    response and validates what it parsed. The three calls differ in their names and in the reading
    and validation only. A call counts its outcome where the provider's error is caught and behind
    the validation; what is raised in between is counted nowhere. -/

namespace Bisakerja
open Schemes

/-! ### Errors -/

/-- The subclasses of `OpenAIEnrichmentError` and, under other names, `OpenAINormalizationError`. -/
inductive OpenAIErrorKind where
  | auth | timeout | rateLimit | invalidResponse | providerUnavailable

namespace OpenAIErrorKind

/-- The end of the class's name. -/
def suffix : OpenAIErrorKind → String
  | auth => "AuthError"
  | timeout => "TimeoutError"
  | rateLimit => "RateLimitError"
  | invalidResponse => "InvalidResponseError"
  | providerUnavailable => "ProviderUnavailableError"

/-- The class's `code`. -/
def code : OpenAIErrorKind → String
  | auth => "OPENAI_AUTH_ERROR"
  | timeout => "OPENAI_TIMEOUT"
  | rateLimit => "OPENAI_RATE_LIMIT"
  | invalidResponse => "OPENAI_INVALID_RESPONSE"
  | providerUnavailable => "OPENAI_PROVIDER_UNAVAILABLE"

/-- The class's `retryable`. -/
def retryable : OpenAIErrorKind → Bool
  | auth => false
  | timeout => true
  | rateLimit => true
  | invalidResponse => false
  | providerUnavailable => true

end OpenAIErrorKind

/-! ### Metrics -/

/-- One dict of `_empty_metrics`. -/
structure Metrics where
  requests : ℕ := 0
  successes : ℕ := 0
  rateLimited : ℕ := 0
  failed : ℕ := 0

/-- The argument `outcome` of `_record_metrics`. -/
inductive MetricsOutcome where | request | success | rateLimited | failed

namespace Metrics

/-- What `_record_metrics` adds to one dict. -/
def record (m : Metrics) : MetricsOutcome → Metrics
  | .request => { m with requests := m.requests + 1 }
  | .success => { m with successes := m.successes + 1 }
  | .rateLimited => { m with rateLimited := m.rateLimited + 1, failed := m.failed + 1 }
  | .failed => { m with failed := m.failed + 1 }

/-- The outcomes counted so far. -/
def outcomes (m : Metrics) : ℕ := m.successes + m.failed

/-- Every request has its outcome, and a rate limit is a failure. -/
structure Balanced (m : Metrics) : Prop where
  requests : m.requests = m.successes + m.failed
  rateLimited : m.rateLimited ≤ m.failed

end Metrics

/-- `OpenAIModelRotator`: the models, and the one that is next. -/
structure OpenAIModelRotator where
  models : List String
  index : ℕ
  index_lt : index < models.length

namespace OpenAIModelRotator

/-- `OpenAIModelRotator(models)`; `none` is the `ValueError` on no model. -/
def create (models : List String) : Option OpenAIModelRotator :=
  let normalized := (models.map strip).filter (· ≠ "")
  if h : 0 < normalized.length then some ⟨normalized, 0, h⟩ else none

/-- `next_model`. -/
def nextModel (rotator : OpenAIModelRotator) : String × OpenAIModelRotator :=
  (rotator.models.get ⟨rotator.index, rotator.index_lt⟩,
    { rotator with
      index := (rotator.index + 1) % rotator.models.length
      index_lt := Nat.mod_lt _ (Nat.zero_lt_of_lt rotator.index_lt) })

end OpenAIModelRotator

/-- The state of a client apart from its rotator. -/
structure OpenAIClient where
  lastModel : String
  metricsByModel : Assigned String Metrics := Table.empty _
  metricsByRequestType : Assigned String Metrics := Table.empty _

namespace OpenAIClient

/-- The metrics of a model, as `metrics_snapshot` reads them. -/
def ofModel (client : OpenAIClient) (model : String) : Metrics :=
  (client.metricsByModel.get model).getD {}

/-- The metrics of a request type. -/
def ofRequestType (client : OpenAIClient) (requestType : String) : Metrics :=
  (client.metricsByRequestType.get requestType).getD {}

/-- `_record_metrics`. -/
def recordMetrics (client : OpenAIClient) (model requestType : String) (outcome : MetricsOutcome) :
    OpenAIClient :=
  { client with
    metricsByModel :=
      client.metricsByModel.assign model ((client.ofModel model).record outcome)
    metricsByRequestType :=
      client.metricsByRequestType.assign requestType
        ((client.ofRequestType requestType).record outcome) }

/-- All metrics of the client balance. -/
structure Balanced (client : OpenAIClient) : Prop where
  byModel : ∀ model, (client.ofModel model).Balanced
  byRequestType : ∀ requestType, (client.ofRequestType requestType).Balanced

end OpenAIClient

/-! ### Calls -/

/-- `response.choices[0].message`, if the response has one. -/
inductive MessageLookup (α : Type) where
  /-- An `AttributeError` or `IndexError`. -/
  | missing
  /-- Any other exception, as the `TypeError` on `choices` that are `None`. -/
  | raised (exc : PyException)
  /-- The message: its `refusal`, and what it parsed if that has a type the call takes. -/
  | message (refusal : Option String) (parsed : Option α)

/-- What the provider does with a request. -/
inductive ProviderReply (α : Type) where
  | authenticationError
  | timeoutError
  | rateLimitError
  | connectionError
  | statusError (statusCode : ℤ)
  /-- An exception of no class the client catches. -/
  | raised (exc : PyException)
  | response (lookup : MessageLookup α)

/-- What one of the three calls does in its own way. -/
structure AiRequest (α β : Type) where
  /-- What its error classes are called after. -/
  family : String
  requestType : String
  refused : String
  mismatch : String
  validate : α → Except PyException β
  /-- The class of exceptions caught around the validation. -/
  caughtClass : String

namespace AiRequest

variable {α β : Type} (request : AiRequest α β)

/-- One of the error classes of the call. -/
def error (kind : OpenAIErrorKind) (message : String) : PyException :=
  .other ("OpenAI" ++ request.family ++ kind.suffix) message (some kind.code) kind.retryable

/-- Reading the response: `parse_enrichment_response` and the like. -/
def parse : MessageLookup α → Except PyException α
  | .missing => .error (request.error .invalidResponse "OpenAI response missing message")
  | .raised exc => .error exc
  | .message refusal parsed =>
    if orText refusal "" ≠ "" then .error (request.error .invalidResponse request.refused)
    else
      match parsed with
      | none => .error (request.error .invalidResponse request.mismatch)
      | some output => .ok output

/-- The exception is caught around the validation. -/
def catches (exc : PyException) : Bool :=
  match exc with
  | .other className _ _ _ => className = request.caughtClass
  | .scraper _ _ _ _ _ => false

/-- A call from the model it selected to its result. -/
def run (reply : ProviderReply α) (model : String) (client : OpenAIClient) :
    Except PyException β × OpenAIClient :=
  let client := { client with lastModel := model }.recordMetrics model request.requestType .request
  let recorded := client.recordMetrics model request.requestType
  match reply with
  | .authenticationError =>
    (.error (request.error .auth "OpenAI authentication failed"), recorded .failed)
  | .timeoutError => (.error (request.error .timeout "OpenAI request timed out"), recorded .failed)
  | .rateLimitError =>
    (.error (request.error .rateLimit "OpenAI rate limit exceeded"), recorded .rateLimited)
  | .connectionError =>
    (.error (request.error .providerUnavailable "OpenAI provider connection failed"),
      recorded .failed)
  | .statusError statusCode =>
    if 500 ≤ statusCode then
      (.error (request.error .providerUnavailable "OpenAI provider unavailable"), recorded .failed)
    else (.error (request.error .invalidResponse "OpenAI request failed"), recorded .failed)
  | .raised exc => (.error exc, client)
  | .response lookup =>
    match request.parse lookup with
    | .error exc => (.error exc, client)
    | .ok output =>
      match request.validate output with
      | .error exc =>
        if request.catches exc then
          (.error (request.error .invalidResponse exc.message), recorded .failed)
        else (.error exc, client)
      | .ok validated => (.ok validated, recorded .success)

end AiRequest

/-- `enrich_job`. -/
def OpenAIEnrichmentClient.enrichJob (casefold : String → String) (job : EnrichmentJobInput) :
    AiRequest (EnrichmentOutput casefold) (EnrichmentOutput casefold) where
  family := "Enrichment"
  requestType := "enrichment"
  refused := "OpenAI response refused enrichment request"
  mismatch := "OpenAI response did not match schema"
  validate output := Enrichment.validateEnrichmentOutput casefold output job.cleanText
  caughtClass := "EnrichmentValidationError"

/-- `normalize_job`: a message parses to a schema or a dict, which is what the schema makes of its
    dump. -/
def OpenAINormalizationClient.normalizeJob (text : NormalizationText)
    (promptInput : AINormalizationPromptInput) :
    AiRequest (Option CanonicalJobSchema) CanonicalJobSchema where
  family := "Normalization"
  requestType := "normalization"
  refused := "OpenAI response refused normalization request"
  mismatch := "OpenAI response did not match schema"
  validate output := text.validateAiNormalizationOutput output promptInput
  caughtClass := "AINormalizationContractError"

/-- `normalize_jobs`. -/
def OpenAINormalizationClient.normalizeJobs (text : NormalizationText)
    (promptInput : AINormalizationBatchPromptInput) :
    AiRequest (Option AINormalizationBatchOutput) (List AINormalizationBatchItemResult) where
  family := "Normalization"
  requestType := "normalization"
  refused := "OpenAI response refused normalization request"
  mismatch := "OpenAI response did not match batch schema"
  validate output := text.validateAiNormalizationBatchOutput output promptInput
  caughtClass := "AINormalizationContractError"

end Bisakerja
