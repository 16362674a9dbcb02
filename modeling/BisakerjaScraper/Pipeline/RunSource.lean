import BisakerjaScraper.Pipeline.LiveSources
import BisakerjaScraper.Pipeline.NormalizeSource
import BisakerjaScraper.Pipeline.Scrape

/-! A source that is scraped and normalized in one go.

    `run` fetches the jobs of a source, maps them all, has the AI normalize what was mapped, and
    writes each raw job with its job. The jobs are mapped at the same time; each asks the AI at most
    once, and what it is answered does not depend on the others, so they stand one after another
    here. No source has the hook `enrich_mapped_jobs`. -/

namespace Bisakerja
open Schemes

/-- The raw job of the source that a live job carries. -/
def LiveRawJob.sourceJob (raw : LiveRawJob) : RawSourceJob where
  sourcePlatform := raw.sourcePlatform
  externalId := raw.externalId
  sourceUrl := raw.sourceUrl
  rawPayload := raw.rawPayload

/-- `prompt_input_from_raw_job` of a job that was just fetched: it has no scrape time yet. -/
def promptInputFromLiveJob (raw : LiveRawJob) (sourcePlatform : String)
    (outputLanguage : OutputLanguage) : Except PyException (Option AINormalizationPromptInput) :=
  if raw.rawPayload = [] then .ok none
  else
    (sourcePlatformEnum sourcePlatform (some raw.externalId)).map fun platform =>
      some
        { sourcePlatform := platform
          endpointType := endpointTypeFromPayload raw.rawPayload
          rawPayloadSubset :=
            [("sourcePlatform", .str sourcePlatform), ("externalId", .str raw.externalId),
              ("sourceUrl", .str raw.sourceUrl), ("scrapedAt", .null),
              ("payload", .dict raw.rawPayload)]
          outputLanguage := outputLanguage }

/-- The `PersistError` of `write_job`. -/
def jobWriteError (raw : LiveRawJob) : PyException :=
  .scraper .persist "job persistence write failed" (some raw.externalId) false
    [("error", .str "OperationalError")]

/-- A source of `run`: the orchestrator, what its fetcher returns, whether a transaction is open
    already when a job is written, and how the sync hook ends. A fetcher returns jobs of its own
    source. -/
structure SourceRun where
  orchestrator : PipelineOrchestrator
  scrape : ScrapeEnv
  text : MapperText
  live : LivePipelineSource
  fetched : Except PyException PaginatedFetchResult
  ofSource : ∀ result, fetched = .ok result → ∀ raw ∈ result.rawJobs,
    raw.sourcePlatform = live.platform.value
  inTransaction : ℕ → Bool
  syncHook : Except PyException PUnit := .ok ⟨⟩

namespace SourceRun

variable (run : SourceRun)

/-- `_map_one`, `_apply_ai_normalization` included. -/
def mapOne (raw : LiveRawJob) : StageM CanonicalJobSchema := do
  let scrapedAt ← .update fun s =>
    (run.scrape.host.utcNow s.ticks, { s with ticks := s.ticks + 1 })
  let mapped ← Stateful.ofExcept (run.text.mapJob run.live.platform raw.sourceJob scrapedAt)
  if run.orchestrator.hasAiClient then
    match ← Stateful.ofExcept (promptInputFromLiveJob raw run.live.platform.value
        run.orchestrator.config.aiOutputLanguage) with
    | none => pure mapped
    | some prompt =>
      .handle (run.orchestrator.client.normalizeJob prompt) fun exc =>
        .raise (normalizeErrorFromAiException exc raw.externalId)
  else pure mapped

/-- `asyncio.gather` of the mappings: all of them end before one that raised is seen. -/
def mapAll : List LiveRawJob → StageM (List (Except PyException CanonicalJobSchema))
  | [] => pure []
  | raw :: rest => do
    let result ← Stateful.attempt (run.mapOne raw)
    let results ← mapAll rest
    pure (result :: results)

/-- The raw row `write_job` stores for a job, under an id. -/
def rawRow (raw : LiveRawJob) (id : String) (ticks : ℕ) : RawJob where
  id := id
  scrapeRunId := run.scrape.runId
  sourcePlatform := raw.sourcePlatform
  externalId := raw.externalId
  sourceUrl := some raw.sourceUrl
  rawPayload := raw.rawPayload
  metadataJson := some (rawMetadataFrom run.scrape.isoformat raw)
  payloadHash := some (run.scrape.hash.digest (.dict raw.rawPayload))
  scrapedAt := run.scrape.host.utcNow ticks

/-- The session after the two upserts of `write_job`. -/
def written (raw : LiveRawJob) (job : CanonicalJobSchema) (s : StageSession) : StageSession :=
  let stored := upsertRawJob run.scrape.host run.scrape.hash
    (ScrapeSource.rawInputFrom run.scrape raw s.ticks) { tables := s.tables.jobs, ticks := s.ticks }
  let s' := { s with
    tables := { s.tables with jobs := stored.2.tables }
    ticks := stored.2.ticks }
  (s'.upsert run.orchestrator.env (run.rawRow raw stored.1.1 s.ticks) job).2

/-- `write_job`: in a transaction that is open, or in one of its own. -/
def writeJob (raw : LiveRawJob) (job : CanonicalJobSchema) : StageM PUnit := fun s =>
  let s' := { s with ticks := s.ticks + 1 }
  if run.orchestrator.env.operationalError s.ticks then (.error (jobWriteError raw), s'.rollback)
  else if run.inTransaction s.ticks then (.ok ⟨⟩, run.written raw job s')
  else (.ok ⟨⟩, (run.written raw job s').commit)

/-- The loop of `_run_source` that writes the jobs. -/
def writeAll (entries : List (LiveRawJob × CanonicalJobSchema)) : StageM PUnit :=
  .forEach entries fun entry => do
    run.writeJob entry.1 entry.2
    changeResult fun result => { result with counts := { result.counts with
      persisted := result.counts.persisted + 1 } }

/-- What `fetch_raw_jobs` gives, in the order it is written. -/
def fetchOrdered : Except PyException (PaginatedFetchResult × List LiveRawJob) := do
  let fetched ← run.fetched
  let jobs ← run.live.fetchRawJobs run.scrape.dates fetched
  pure (fetched, orderFetchedRawJobs run.live.recencyMode jobs)

/-- The `try` block of `_run_source`. -/
def body : StageM PUnit := do
  let (fetched, ordered) ← Stateful.ofExcept run.fetchOrdered
  changeResult (ScrapeSource.fetchedResult ordered fetched)
  let results ← run.mapAll ordered
  let mapped ← Stateful.ofExcept (results.mapM id)
  changeResult fun result => { result with counts := { result.counts with
    parsed := ordered.length, normalized := mapped.length } }
  run.writeAll (ordered.zip mapped)
  Stateful.ofExcept run.syncHook
  changeResult fun result => { result with status := .completed }

/-- The result of a source that raised. -/
def failed (exc : PyException) (result : SourcePipelineResult) : SourcePipelineResult :=
  { result with
    errors := result.errors ++ [errorSummary run.live.platform.value exc]
    counts := { result.counts with skipped := result.counts.fetched - result.counts.persisted }
    status := .failed }

/-- `_run_source`. -/
def runSource : StageM PUnit := do
  match ← Stateful.attempt run.body with
  | .ok _ => pure ⟨⟩
  | .error exc => do
    changeResult (run.failed exc)
    if run.orchestrator.config.allowPartial then pure ⟨⟩ else .raise exc

end SourceRun

end Bisakerja
