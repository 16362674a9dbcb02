import BisakerjaScraper.Eligibility.Lookup
import BisakerjaScraper.Pipeline.Normalize
import BisakerjaScraper.Pipeline.RunIds

/-! The normalize stage of one source, from its raw jobs to its commit.

    The raw jobs in scope go through the gate, and those it lets through are normalized: in batches
    with an AI client, or one by one as their source maps them. What is pending is committed once
    more at the end. -/

namespace Bisakerja
open Schemes

/-- `PipelineOrchestrator`, as far as the normalize stage of a source uses it. The sync events and
    the tables of the backend are read only. -/
structure PipelineOrchestrator extends NormalizeStage where
  hasAiClient : Bool := true
  eligibilityResolver : Option IdentityText
  syncEvents : SyncEvents
  backend : BackendTables
  backendIdentityLookup : BackendLookup
  requireBackendIdentityLookup : Bool := false
  allowNormalizationReprocess : Bool := false

/-- A database operation that is tried once. -/
def dbOperation {α : Type} (h : StageHost) (operation : StageSession → α × StageSession) : StageM α :=
  fun s =>
    let s' := { s with ticks := s.ticks + 1 }
    if h.operationalError s.ticks then (.error operationalError, s')
    else (.ok (operation s').1, (operation s').2)

/-- An operation that is tried once is done, or the session is left as it was. -/
theorem triple_dbOperation {α : Type} {h : StageHost} {operation : StageSession → α × StageSession}
    {P : StageSession → Prop} {Q : α → StageSession → Prop} {E : PyException → StageSession → Prop}
    (hop : ∀ s, P s → Q (operation { s with ticks := s.ticks + 1 }).1
      (operation { s with ticks := s.ticks + 1 }).2)
    (hfails : ∀ s, P s → h.operationalError s.ticks = true →
      E operationalError { s with ticks := s.ticks + 1 }) :
    Triple P (dbOperation h operation) Q E := by
  intro s hs
  unfold dbOperation
  dsimp only
  cases hfail : h.operationalError s.ticks with
  | true => exact hfails s hs hfail
  | false => exact hop s hs

/-- The `NormalizeError` of a gate that has no resolver. -/
def gateRequiredError : PyException :=
  .scraper .normalize "eligibility gate requires backend identity lookup" none false
    [("source_field_path", .str "raw_jobs")]

/-- The raw jobs whose decision lets them through. -/
def eligibleRawJobs (rawJobs : List RawJob)
    (decisions : List NormalizationEligibilityDecision) : List RawJob :=
  (rawJobs.zip decisions).filterMap fun entry =>
    if entry.2.decision = .normalizationEligible then some entry.1 else none

namespace PipelineOrchestrator

variable (o : PipelineOrchestrator)

/-- The resolver with the rows it reads. -/
def resolver (text : IdentityText) (rawJobs : List RawJob) (existing : BackendExisting)
    (tables : StageTables) : EligibilityResolver where
  text := text
  hash := o.env.hash
  rawJobs := rawJobs
  normalizedJobs := tables.jobs.normalizedJobs
  events := o.syncEvents
  backendExisting := existing
  allowReprocess := o.allowNormalizationReprocess

/-- `resolve_for_raw_jobs` on the tables of the stage. -/
def resolve (text : IdentityText) (scrapeRunId : String) (rawJobs : List RawJob)
    (existing : BackendExisting) (s : StageSession) :
    List NormalizationEligibilityDecision × StageSession :=
  let resolved := (o.resolver text rawJobs existing s.tables).resolveForRawJobs scrapeRunId
    s.tables.decisions
  (resolved.1,
    { s with
      tables := { s.tables with decisions := resolved.2 }
      history := s.history ++ [.wrote (.decided resolved.1)] })

/-- The run id of the decisions: `scrape_run_id or run_id`. -/
def decisionScopeRunId (runId : String) : String :=
  (scrapeRunIdForNormalizeRun runId).getD runId

/-- The gate of `_normalize_source`. -/
def gate (runId : String) (rawJobs : List RawJob) : StageM (List RawJob) :=
  match o.eligibilityResolver with
  | some text => do
    let existing ← Stateful.ofExcept (lookupBackendIdentities text o.backend
      o.backendIdentityLookup o.requireBackendIdentityLookup rawJobs)
    let decisions ← dbOperation o.env
      (o.resolve text (decisionScopeRunId runId) rawJobs existing)
    let eligible := eligibleRawJobs rawJobs decisions
    changeResult fun result => { result with counts := { result.counts with
      skipped := result.counts.skipped + (rawJobs.length - eligible.length) } }
    pure eligible
  | none => if o.requireBackendIdentityLookup then .raise gateRequiredError else pure rawJobs

/-- The `try` block for a raw job that is stored as it was mapped. -/
def storeMapped (raw : RawJob) : StageM PUnit := do
  let mapped ← Stateful.ofExcept (o.source.mapRawJob raw)
  let _ ← upsertNormalizedJobWithRetry o.env raw mapped
  o.whenQuarantine (resolveForRawJob raw)
  countNormalized

/-- One turn of the loop without an AI client. -/
def normalizeMapped (raw : RawJob) : StageM PUnit := do
  match ← Stateful.attempt (o.storeMapped raw) with
  | .ok _ => pure ⟨⟩
  | .error exc => o.recordNormalizeFailure raw exc

/-- The part of `_normalize_source` behind the gate. -/
def normalizeEligible (eligible : List RawJob) : StageM PUnit :=
  if o.hasAiClient then o.normalizeSourceWithAiBatch eligible
  else .forEach eligible o.normalizeMapped

/-- The scope of a normalize run. -/
def scope (runId : String) (tables : StageTables) : List RawJob :=
  normalizeScope tables.jobs o.sourcePlatform (scrapeRunIdForNormalizeRun runId)

/-- `parsed = normalized` and the status of the source. -/
def closeResult (result : SourcePipelineResult) : SourcePipelineResult :=
  { result with
    counts := { result.counts with parsed := result.counts.normalized }
    status := if result.errors.isEmpty then .completed else .failed }

/-- `_normalize_source`. -/
def normalizeSource (runId : String) : StageM PUnit := do
  let rawJobs ← dbOperation o.env fun s => (o.scope runId s.tables, s)
  changeResult fun result => { result with counts := { result.counts with fetched := rawJobs.length } }
  let eligible ← o.gate runId rawJobs
  o.normalizeEligible eligible
  dbOperation o.env fun s => (⟨⟩, s.commit)
  changeResult closeResult

end PipelineOrchestrator

/-- The session in which a source begins: everything is committed, nothing is counted. -/
def StageSession.begin (tables : StageTables) (platform : String) (calls ticks : ℕ) :
    StageSession where
  tables := tables
  committed := tables
  result := { sourcePlatform := platform, status := .started }
  calls := calls
  ticks := ticks

end Bisakerja
