import BisakerjaScraper.Persistence.Repositories
import BisakerjaScraper.Pipeline.Fetchers
import BisakerjaScraper.Schemes.Hoare
import BisakerjaScraper.Schemes.Transaction

/-! The scrape stage.

    Every source of a run is a task: it looks at the challenge state, reads its pages, and then
    writes and commits its raw jobs without giving way to the other tasks. The tasks share the
    database session and the challenge state and are interleaved in any order. When all are done
    their results are merged and the run is finished. -/

namespace Bisakerja
open Schemes

/-- `optional_int`; a bool is an `int`. -/
def optionalInt (report : Dict) (key : String) : Option ℤ :=
  match report.get key with
  | .int n => some n
  | .bool b => some (if b then 1 else 0)
  | _ => none

/-- `optional_text`. -/
def optionalText (report : Dict) (key : String) : Option String :=
  match report.get key with
  | .str s => if strip s = "" then none else some s
  | _ => none

/-- `update_source_pagination_report` with the report of a source. -/
def updateSourcePaginationReport (result : SourcePipelineResult) (report : Dict) :
    SourcePipelineResult :=
  { result with
    pagesAttempted := optionalInt report "pagesAttempted"
    pagesSucceeded := optionalInt report "pagesSucceeded"
    pagesFailed := optionalInt report "pagesFailed"
    stopReason := optionalText report "stopReason"
    dedupedCount := optionalInt report "dedupedCount"
    totalAvailable := optionalInt report "totalAvailable"
    truncatedCount := (optionalInt report "truncatedCount").getD 0 }

theorem pagesFailed_updateSourcePaginationReport (result : SourcePipelineResult) (report : Dict) :
    (updateSourcePaginationReport result report).pagesFailed = optionalInt report "pagesFailed" :=
  rfl

theorem stopReason_updateSourcePaginationReport (result : SourcePipelineResult) (report : Dict) :
    (updateSourcePaginationReport result report).stopReason = optionalText report "stopReason" :=
  rfl

/-- `raw_metadata_from`. -/
def rawMetadataFrom (isoformat : Time → String) (job : LiveRawJob) : Dict :=
  (Dict.merge
    [("keyword", .str job.keyword), ("recencyMode", .str job.recencyMode),
      ("recencyDays", .int job.recencyDays), ("requestedLimit", .int job.requestedLimit),
      ("sourceTimestamp", .ofOption (job.sourceTimestamp.map isoformat))]
    job.fetchMetadata).filter fun entry => match entry.2 with
      | .null => false
      | _ => true

/-- What a scrape run needs of its surroundings. -/
structure ScrapeEnv where
  host : Host
  hash : StableHash
  isoformat : Time → String
  dates : DateText
  settings : ScraperSettings
  allowPartial : Bool := true
  runId : String

/-- A live source of a run, the answers it gets, and the failures of the database: an exception for
    the row of an external id, an exception for the commit. -/
structure ScrapeSource where
  live : LivePipelineSource
  feed : SourceFeed
  samePlatform : live.platform = feed.platform
  lastPaginationReport : Option Dict := none
  writeError : String → Option PyException := fun _ => none
  commitError : Option PyException := none

/-- The session while a source is stored: the tables as the open transaction shows them, the tables
    as committed, the result of the source, the position of the clock, and the rows written so far,
    by identity, with what happened to the transaction. -/
structure ScrapeSession where
  tables : JobTables
  committed : JobTables
  result : SourcePipelineResult
  ticks : ℕ
  history : List (TxEvent (String × String)) := []

/-- A computation of the scrape stage. -/
abbrev ScrapeM := Stateful ScrapeSession PyException

/-- Raises what there is to raise. -/
def raiseIfSome : Option PyException → ScrapeM PUnit
  | some exc => .raise exc
  | none => pure ⟨⟩

namespace ScrapeSource

variable (source : ScrapeSource) (env : ScrapeEnv)

/-- `source.source_platform`. -/
def sourcePlatform : String := source.live.platform.value

/-- `source_pipeline_result_from`. -/
def sourcePipelineResultFrom : SourcePipelineResult :=
  let result : SourcePipelineResult :=
    { sourcePlatform := source.sourcePlatform
      status := .started
      keyword := some source.live.keyword
      requestedLimit := some source.live.requestedLimit
      recencyMode := some source.live.recencyMode
      recencyDays := some source.live.recencyDays }
  match source.lastPaginationReport with
  | some report => updateSourcePaginationReport result report
  | none => result

/-- `raw_input_from`. -/
def rawInputFrom (job : LiveRawJob) (ticks : ℕ) : RawJobInput where
  scrapeRunId := env.runId
  sourcePlatform := job.sourcePlatform
  externalId := job.externalId
  sourceUrl := some job.sourceUrl
  rawPayload := job.rawPayload
  metadataJson := some (rawMetadataFrom env.isoformat job)
  scrapedAt := some (env.host.utcNow ticks)

/-- The write of one raw job. -/
def writeRow (job : LiveRawJob) (s : ScrapeSession) : ScrapeSession :=
  let written := (upsertRawJob env.host env.hash (rawInputFrom env job s.ticks)
    { tables := s.tables, ticks := s.ticks }).2
  { s with
    tables := written.tables
    ticks := written.ticks
    result := { s.result with counts :=
      { s.result.counts with persisted := s.result.counts.persisted + 1 } }
    history := s.history ++ [.wrote (rawInputFrom env job s.ticks).identity] }

/-- `upsert_raw_job` of one fetched job. -/
def storeJob (job : LiveRawJob) : ScrapeM PUnit := do
  raiseIfSome (source.writeError job.externalId)
  .change (writeRow env job)

/-- The result of a source after its fetch. -/
def fetchedResult (ordered : List LiveRawJob) (fetched : PaginatedFetchResult)
    (result : SourcePipelineResult) : SourcePipelineResult :=
  updateSourcePaginationReport
    (updateSourceTimestampBounds
      { result with counts := { result.counts with fetched := ordered.length } } ordered)
    fetched.report

/-- The jobs of a fetch, in order, counted, written and committed. -/
def storeAll (ordered : List LiveRawJob) (fetched : PaginatedFetchResult) : ScrapeM PUnit := do
  .change fun s => { s with result := fetchedResult ordered fetched s.result }
  .forEach ordered (source.storeJob env)
  raiseIfSome source.commitError
  .change fun s =>
    { s with
      committed := s.tables
      result := { s.result with status := .completed }
      history := s.history ++ [.committed] }

/-- The `try` block of `_scrape_source`. -/
def scrapeBody (outcome : Except PyException PaginatedFetchResult) : ScrapeM PUnit := do
  let fetched ← Stateful.ofExcept outcome
  let jobs ← Stateful.ofExcept (source.live.fetchRawJobs env.dates fetched)
  source.storeAll env (orderFetchedRawJobs source.live.recencyMode jobs) fetched

/-- The session after the `except` block of `_scrape_source`. -/
def recordFailure (exc : PyException) (s : ScrapeSession) : ScrapeSession :=
  { s with
    tables := s.committed
    history := s.history ++ [.rolledBack]
    result := { s.result with
      errors := s.result.errors ++ [errorSummary source.sourcePlatform exc]
      counts := { s.result.counts with
        skipped := s.result.counts.fetched - s.result.counts.persisted }
      status := .failed } }

/-- `_scrape_source` once the fetcher is done. -/
def scrapeSource (outcome : Except PyException PaginatedFetchResult) : ScrapeM PUnit :=
  .handle (source.scrapeBody env outcome) fun exc => do
    .change (source.recordFailure exc)
    raiseIfSome (if env.allowPartial then none else some exc)

end ScrapeSource

/-! ### The tasks of a run -/

/-- How far a source has come. `blocked` says that it found a challenge remembered; `raised` is what
    `_scrape_source` raised after it had recorded the failure. -/
inductive SourceTask where
  | waiting
  | fetching
  | fetched (blocked : Bool) (outcome : Except PyException PaginatedFetchResult)
  | done (blocked : Bool) (outcome : Except PyException PaginatedFetchResult)
      (result : SourcePipelineResult) (raised : Option PyException)

namespace SourceTask

/-- The result of a source that is done. -/
def result : SourceTask → Option SourcePipelineResult
  | .done _ _ result _ => some result
  | _ => none

/-- The exception of a source that raised. -/
def raised : SourceTask → Option PyException
  | .done _ _ _ raised => raised
  | _ => none

end SourceTask

/-- `challenge_state["blocked"] = True` with its reason, after a challenge. -/
def ChallengeState.remember (state : ChallengeState) : Option ChallengeReason → ChallengeState
  | some reason => { blocked := true, reason }
  | none => state

/-- The state of a run with `n` sources. -/
structure ScrapeState (n : ℕ) where
  tasks : Fin n → SourceTask
  tables : JobTables
  ticks : ℕ
  challenge : ChallengeState

/-- Moves one task. -/
def ScrapeState.setTask {n : ℕ} (s : ScrapeState n) (i : Fin n) (task : SourceTask) :
    ScrapeState n :=
  { s with tasks := Function.update s.tasks i task }

/-- `RunStatus`. -/
inductive RunStatus where | started | completed | failed | partialRun
  deriving DecidableEq

/-- The columns of a `scrape_runs` row that the tracker writes at the end. -/
structure RunRecord where
  status : RunStatus := .started
  rawRecordsCount : ℕ := 0
  normalizedRecordsCount : ℕ := 0
  errorCategory : Option String := none
  errorMessage : Option String := none
  summary : RunSummary := {}

/-- `_finish_stage_run`: the row that `complete_run` or `partial_run` leaves. -/
def finishStageRun (results : List SourcePipelineResult) : RunRecord :=
  let summary := mergeSourceResults results
  let record : RunRecord :=
    { rawRecordsCount := summary.counts.fetched
      normalizedRecordsCount := summary.counts.normalized
      summary }
  match summary.errors with
  | [] => { record with status := .completed }
  | error :: _ =>
    { record with
      status := .partialRun
      errorCategory := some error.category
      errorMessage := some error.message }

/-- A scrape run: its sources, and what it starts from. -/
structure ScrapeRun (n : ℕ) where
  env : ScrapeEnv
  sources : Fin n → ScrapeSource
  tables : JobTables
  challenge : ChallengeState := {}

namespace ScrapeRun

variable {n : ℕ} (run : ScrapeRun n)

/-- No source has begun. -/
def start : ScrapeState n where
  tasks := fun _ => .waiting
  tables := run.tables
  ticks := 0
  challenge := run.challenge

/-- The session a source is stored with. -/
def session (i : Fin n) (s : ScrapeState n) : ScrapeSession where
  tables := s.tables
  committed := s.tables
  result := (run.sources i).sourcePipelineResultFrom
  ticks := s.ticks

/-- What task `i` does until it gives way again. -/
def advance (s : ScrapeState n) (i : Fin n) : ScrapeState n :=
  match s.tasks i with
  | .waiting =>
    if (run.sources i).live.platform = .jobstreet ∧ s.challenge.blocked then
      s.setTask i (.fetched true (.ok s.challenge.blockedResult))
    else s.setTask i .fetching
  | .fetching =>
    match (run.sources i).feed.fetchPages run.env.settings (run.sources i).live.requestedLimit with
    | .error exc => s.setTask i (.fetched false (.error exc))
    | .ok pages =>
      { s.setTask i (.fetched false (.ok pages.fetchResult)) with
        challenge := s.challenge.remember pages.challenge }
  | .fetched blocked outcome =>
    let ended := (run.sources i).scrapeSource run.env outcome (run.session i s)
    let raised := match ended.1 with
      | .ok _ => none
      | .error exc => some exc
    { s.setTask i (.done blocked outcome ended.2.result raised) with
      tables := ended.2.committed, ticks := ended.2.ticks }
  | .done _ _ _ _ => s

/-- The run under a schedule: which task goes on next. -/
def execute (schedule : List (Fin n)) : ScrapeState n := schedule.foldl run.advance run.start

end ScrapeRun

namespace ScrapeState

variable {n : ℕ} (s : ScrapeState n)

/-- Every source is done. -/
def Finished : Prop := ∀ i, ((s.tasks i).result).isSome = true

instance : Decidable s.Finished :=
  inferInstanceAs (Decidable (∀ i, ((s.tasks i).result).isSome = true))

/-- `source_results`, in the order of the sources. -/
def sourceResults : List SourcePipelineResult := (List.ofFn s.tasks).filterMap SourceTask.result

/-- The row of the run. It is written when every source is done; an exception that leaves
    `asyncio.gather` leaves `run_scrape` too, and the row stays as it was started. -/
def runRecord : RunRecord :=
  match (List.ofFn s.tasks).findSome? SourceTask.raised with
  | some _ => {}
  | none => if s.Finished then finishStageRun s.sourceResults else {}

end ScrapeState

/-! ### What a source leaves behind -/

/-- The stop reason as `optional_text` reads it off a report. -/
def reportedStopReason (reason : String) : Option String :=
  if strip reason = "" then none else some reason

/-- The pair a fetched job is stored under. -/
def LiveRawJob.identity (job : LiveRawJob) : String × String := (job.sourcePlatform, job.externalId)

/-- The result with some more jobs counted as persisted. -/
def SourcePipelineResult.countWritten (result : SourcePipelineResult) (written : ℕ) :
    SourcePipelineResult :=
  { result with counts :=
    { result.counts with persisted := result.counts.persisted + written } }

theorem SourcePipelineResult.countWritten_zero (result : SourcePipelineResult) :
    result.countWritten 0 = result := rfl

theorem SourcePipelineResult.report_countWritten (result : SourcePipelineResult) (written : ℕ) :
    (result.countWritten written).pagesFailed = result.pagesFailed ∧
      (result.countWritten written).stopReason = result.stopReason := ⟨rfl, rfl⟩

theorem SourcePipelineResult.countWritten_succ (result : SourcePipelineResult) (written : ℕ) :
    result.countWritten (written + 1) = (result.countWritten written).countWritten 1 := rfl

theorem triple_raiseIfSome {P : ScrapeSession → Prop} (x : Option PyException) :
    Triple P (raiseIfSome x) (fun _ s => P s ∧ x = none) (fun exc s => P s ∧ x = some exc) := by
  intro s hs
  cases x with
  | none => exact ⟨hs, rfl⟩
  | some exc => exact ⟨hs, rfl⟩

namespace ScrapeSource

variable {source : ScrapeSource} {env : ScrapeEnv} {start : ScrapeSession}

/-- The session after some jobs were written: nothing is committed, they are counted and stored,
    and what the run had stored before is stored still. -/
structure Storing (source : ScrapeSource) (env : ScrapeEnv) (start : ScrapeSession)
    (result : SourcePipelineResult) (written : List LiveRawJob) (s : ScrapeSession) : Prop where
  committed : s.committed = start.tables
  result_eq : s.result = result.countWritten written.length
  ticks : start.ticks ≤ s.ticks
  fresh : FreshIds env.host { tables := s.tables, ticks := s.ticks }
  stored : ∀ job ∈ written, s.tables.StoredBy env.runId job.identity
  kept : ∀ identity, start.tables.StoredBy env.runId identity →
    s.tables.StoredBy env.runId identity
  accepted : ∀ job ∈ written, source.writeError job.externalId = none

theorem triple_storeJob (hinj : Function.Injective env.host.newId) (result : SourcePipelineResult)
    (written : List LiveRawJob) (job : LiveRawJob) :
    Triple (source.Storing env start result written) (source.storeJob env job)
      (fun _ => source.Storing env start result (written ++ [job]))
      (fun exc s => source.Storing env start result written s ∧
        source.writeError job.externalId = some exc) := by
  refine (triple_raiseIfSome _).bind fun _ => .change fun s hs => ?_
  obtain ⟨hs, haccepted⟩ := hs
  have hfresh := freshIds_upsertRawJob hinj env.hash (rawInputFrom env job s.ticks) hs.fresh
  have hkept : ∀ identity, s.tables.StoredBy env.runId identity →
      (writeRow env job s).tables.StoredBy env.runId identity :=
    fun identity h => storedBy_upsertRawJob env.host env.hash h
  have hself : (writeRow env job s).tables.StoredBy env.runId job.identity :=
    storedBy_upsertRawJob_self env.hash (rawInputFrom env job s.ticks) hs.fresh
  have hticks : s.ticks ≤ (writeRow env job s).ticks :=
    upsertRawJob_ticks env.host env.hash (rawInputFrom env job s.ticks)
      { tables := s.tables, ticks := s.ticks }
  refine ⟨hs.committed, ?_, hs.ticks.trans hticks, hfresh, ?_,
    fun identity h => hkept identity (hs.kept identity h), ?_⟩
  · change s.result.countWritten 1 = _
    rw [hs.result_eq, List.length_append]
    exact (SourcePipelineResult.countWritten_succ result written.length).symm
  · intro job' hjob'
    rcases List.mem_append.mp hjob' with hjob' | hjob'
    · exact hkept _ (hs.stored job' hjob')
    · cases List.mem_singleton.mp hjob'
      exact hself
  · intro job' hjob'
    rcases List.mem_append.mp hjob' with hjob' | hjob'
    · exact hs.accepted job' hjob'
    · cases List.mem_singleton.mp hjob'
      exact haccepted

/-- The first exception the database has for some jobs and their commit. -/
def storeError (source : ScrapeSource) (ordered : List LiveRawJob) : Option PyException :=
  (ordered.findSome? fun job => source.writeError job.externalId).or source.commitError

/-- Storing either writes and commits every job or raises the first exception there is. -/
theorem triple_storeAll (hinj : Function.Injective env.host.newId)
    (hfresh : FreshIds env.host { tables := start.tables, ticks := start.ticks })
    (hcommitted : start.committed = start.tables) (ordered : List LiveRawJob)
    (fetched : PaginatedFetchResult) :
    Triple (fun s => s = start) (source.storeAll env ordered fetched)
      (fun _ s => source.storeError ordered = none ∧
        ∃ s', source.Storing env start (fetchedResult ordered fetched start.result) ordered s' ∧
          s = { s' with
            committed := s'.tables
            result := { s'.result with status := .completed }
            history := s'.history ++ [.committed] })
      (fun exc s => source.storeError ordered = some exc ∧
        ∃ written, source.Storing env start (fetchedResult ordered fetched start.result) written s) := by
  have hloop := Triple.forEach (f := source.storeJob env)
    (I := source.Storing env start (fetchedResult ordered fetched start.result))
    (E := fun exc s => source.storeError ordered = some exc ∧
      ∃ written, source.Storing env start (fetchedResult ordered fetched start.result) written s)
    ordered (by
      rintro written job rest rfl
      refine (triple_storeJob hinj _ written job).weaken_error ?_
      rintro exc s ⟨hs, hexc⟩
      refine ⟨?_, written, hs⟩
      unfold storeError
      rw [List.findSome?_append, List.findSome?_eq_none_iff.mpr hs.accepted, List.findSome?_cons,
        hexc]
      rfl)
  refine Triple.bind (.change fun s hs => ?_) fun _ => hloop.bind fun _ =>
    ((triple_raiseIfSome _).weaken_error ?_).bind fun _ => .change fun s hs => ?_
  · subst hs
    exact ⟨hcommitted, (SourcePipelineResult.countWritten_zero _).symm, Nat.le_refl _, hfresh, nofun,
      fun _ h => h, nofun⟩
  · rintro exc s ⟨hs, hexc⟩
    refine ⟨?_, ordered, hs⟩
    unfold storeError
    rw [List.findSome?_eq_none_iff.mpr hs.accepted, hexc]
    rfl
  · obtain ⟨hs, hcommit⟩ := hs
    refine ⟨?_, s, hs, rfl⟩
    unfold storeError
    rw [List.findSome?_eq_none_iff.mpr hs.accepted, hcommit]
    rfl

/-- The exception a source meets after its fetch: that of the fetcher, of a timestamp, of a write or
    of the commit. -/
def firstError (source : ScrapeSource) (env : ScrapeEnv)
    (outcome : Except PyException PaginatedFetchResult) : Option PyException :=
  match outcome with
  | .error exc => some exc
  | .ok fetched =>
    match source.live.fetchRawJobs env.dates fetched with
    | .error exc => some exc
    | .ok jobs => source.storeError (orderFetchedRawJobs source.live.recencyMode jobs)

/-- A source that meets no exception is completed, reports its pages and stores every job it
    fetched. -/
structure Scraped (source : ScrapeSource) (env : ScrapeEnv)
    (outcome : Except PyException PaginatedFetchResult) (result : SourcePipelineResult)
    (tables : JobTables) : Prop where
  status : result.status = .completed
  errors : result.errors = []
  persisted : result.counts.persisted = result.counts.fetched
  reported : ∀ fetched, outcome = .ok fetched → result.pagesFailed = some (fetched.pagesFailed : ℤ) ∧
    result.stopReason = reportedStopReason fetched.stopReason
  stored : ∀ fetched jobs, outcome = .ok fetched →
    source.live.fetchRawJobs env.dates fetched = .ok jobs →
    ∀ job ∈ jobs, tables.StoredBy env.runId job.identity

/-- A source that meets an exception is failed with that one error, and stores nothing. -/
structure GaveUp (source : ScrapeSource) (exc : PyException) (result : SourcePipelineResult) :
    Prop where
  status : result.status = .failed
  errors : result.errors = [errorSummary source.sourcePlatform exc]

/-- The committed tables after a source: the ids to come are still fresh, and what the run had
    stored is stored still. -/
structure Settled (env : ScrapeEnv) (start s : ScrapeSession) : Prop where
  fresh : FreshIds env.host { tables := s.committed, ticks := s.ticks }
  kept : ∀ identity, start.tables.StoredBy env.runId identity →
    s.committed.StoredBy env.runId identity

/-- The session of a source that met an exception: nothing is committed, no error is noted yet. -/
structure Interrupted (start s : ScrapeSession) : Prop where
  committed : s.committed = start.tables
  errors : s.result.errors = []
  ticks : start.ticks ≤ s.ticks

theorem errors_fetchedResult (ordered : List LiveRawJob) (fetched : PaginatedFetchResult)
    (result : SourcePipelineResult) :
    (fetchedResult ordered fetched result).errors = result.errors ∧
      (fetchedResult ordered fetched result).counts
        = { result.counts with fetched := ordered.length } := by
  unfold fetchedResult updateSourcePaginationReport updateSourceTimestampBounds
  split <;> exact ⟨rfl, rfl⟩

theorem scrapeBody_of_error {fetched : PaginatedFetchResult} {exc : PyException}
    (hjobs : source.live.fetchRawJobs env.dates fetched = .error exc) :
    source.scrapeBody env (.ok fetched) = .raise exc := by
  change Stateful.bind (Stateful.ofExcept (source.live.fetchRawJobs env.dates fetched)) _ = _
  rw [hjobs]
  rfl

theorem scrapeBody_of_ok {fetched : PaginatedFetchResult} {jobs : List LiveRawJob}
    (hjobs : source.live.fetchRawJobs env.dates fetched = .ok jobs) :
    source.scrapeBody env (.ok fetched)
      = source.storeAll env (orderFetchedRawJobs source.live.recencyMode jobs) fetched := by
  change Stateful.bind (Stateful.ofExcept (source.live.fetchRawJobs env.dates fetched)) _ = _
  rw [hjobs]
  rfl

/-- The report of a fetch gives the failed pages and the stop reason. -/
theorem report_fetchedResult (ordered : List LiveRawJob) (fetched : PaginatedFetchResult)
    (result : SourcePipelineResult) :
    (fetchedResult ordered fetched result).pagesFailed = some (fetched.pagesFailed : ℤ) ∧
      (fetchedResult ordered fetched result).stopReason
        = reportedStopReason fetched.stopReason := by
  have hpages : optionalInt fetched.report "pagesFailed" = some (fetched.pagesFailed : ℤ) := rfl
  have hreason : optionalText fetched.report "stopReason"
      = reportedStopReason fetched.stopReason := rfl
  unfold fetchedResult
  rw [pagesFailed_updateSourcePaginationReport, stopReason_updateSourcePaginationReport, hpages,
    hreason]
  exact ⟨rfl, rfl⟩

/-- A source starts without errors and with nothing persisted. -/
theorem sourcePipelineResultFrom_start (source : ScrapeSource) :
    source.sourcePipelineResultFrom.errors = [] ∧
      source.sourcePipelineResultFrom.counts.persisted = 0 := by
  unfold sourcePipelineResultFrom
  dsimp only
  split <;> exact ⟨rfl, rfl⟩

/-- The `try` block stores every job or raises the first exception there is. -/
theorem triple_scrapeBody (hinj : Function.Injective env.host.newId)
    (hfresh : FreshIds env.host { tables := start.tables, ticks := start.ticks })
    (hcommitted : start.committed = start.tables) (herrors : start.result.errors = [])
    (hpersisted : start.result.counts.persisted = 0)
    (outcome : Except PyException PaginatedFetchResult) :
    Triple (fun s => s = start) (source.scrapeBody env outcome)
      (fun _ s => source.firstError env outcome = none ∧ Settled env start s ∧
        source.Scraped env outcome s.result s.committed)
      (fun exc s => source.firstError env outcome = some exc ∧ Interrupted start s) := by
  unfold firstError
  cases outcome with
  | error exc =>
    rintro s rfl
    exact ⟨rfl, hcommitted, herrors, Nat.le_refl _⟩
  | ok fetched =>
    cases hjobs : source.live.fetchRawJobs env.dates fetched with
    | error exc =>
      rw [scrapeBody_of_error hjobs]
      rintro s rfl
      exact ⟨by simp only [hjobs], hcommitted, herrors, Nat.le_refl _⟩
    | ok jobs =>
      rw [scrapeBody_of_ok hjobs]
      simp only [hjobs]
      set ordered := orderFetchedRawJobs source.live.recencyMode jobs with hordered
      obtain ⟨hnoErrors, hcounts⟩ := errors_fetchedResult ordered fetched start.result
      refine (triple_storeAll hinj hfresh hcommitted ordered fetched).conseq (fun _ => id) ?_ ?_
      · rintro - s ⟨hnone, s', hs', rfl⟩
        refine ⟨hnone, ⟨hs'.fresh, hs'.kept⟩, rfl, ?_, ?_, ?_, ?_⟩
        · change s'.result.errors = []
          rw [hs'.result_eq]
          exact hnoErrors.trans herrors
        · change s'.result.counts.persisted = s'.result.counts.fetched
          rw [hs'.result_eq]
          unfold SourcePipelineResult.countWritten
          dsimp only
          rw [hcounts]
          dsimp only
          rw [hpersisted, Nat.zero_add]
        · rintro fetched' hfetched'
          cases hfetched'
          obtain ⟨hpages, hreason⟩ := report_fetchedResult ordered fetched start.result
          obtain ⟨hpages', hreason'⟩ := SourcePipelineResult.report_countWritten
            (fetchedResult ordered fetched start.result) ordered.length
          rw [← hs'.result_eq] at hpages' hreason'
          exact ⟨hpages'.trans hpages, hreason'.trans hreason⟩
        · intro fetched' jobs' hfetched' hjobs' job hjob
          cases hfetched'
          rw [hjobs] at hjobs'
          cases hjobs'
          exact hs'.stored job ((perm_orderFetchedRawJobs _ _).mem_iff.mpr hjob)
      · rintro exc s ⟨hsome, written, hs⟩
        refine ⟨hsome, hs.committed, ?_, hs.ticks⟩
        rw [hs.result_eq]
        exact hnoErrors.trans herrors

/-- `_scrape_source` completes a source that meets no exception; of any other it records the first
    exception, and raises it where partial runs are not allowed. -/
theorem triple_scrapeSource (hinj : Function.Injective env.host.newId)
    (hfresh : FreshIds env.host { tables := start.tables, ticks := start.ticks })
    (hcommitted : start.committed = start.tables) (herrors : start.result.errors = [])
    (hpersisted : start.result.counts.persisted = 0)
    (outcome : Except PyException PaginatedFetchResult) :
    Triple (fun s => s = start) (source.scrapeSource env outcome)
      (fun _ s => Settled env start s ∧
        ((source.firstError env outcome = none ∧
            source.Scraped env outcome s.result s.committed) ∨
          ∃ exc, source.firstError env outcome = some exc ∧ env.allowPartial = true ∧
            source.GaveUp exc s.result))
      (fun exc s => Settled env start s ∧ source.firstError env outcome = some exc ∧
        env.allowPartial = false ∧ source.GaveUp exc s.result) := by
  refine Triple.handle ((triple_scrapeBody hinj hfresh hcommitted herrors hpersisted outcome).conseq
    (fun _ => id) ?_ fun _ _ => id) fun exc => ?_
  · rintro - s ⟨hnone, hsettled, hscraped⟩
    exact ⟨hsettled, .inl ⟨hnone, hscraped⟩⟩
  · refine Triple.bind (Q := fun _ s => Settled env start s ∧
      source.firstError env outcome = some exc ∧ source.GaveUp exc s.result)
      (.change fun s hs => ?_) fun _ => (triple_raiseIfSome _).conseq (fun _ => id) ?_ ?_
    · obtain ⟨hsome, hs⟩ := hs
      refine ⟨⟨?_, ?_⟩, hsome, rfl, ?_⟩
      · intro n hn raw hraw
        change raw ∈ s.committed.rawJobs.rows at hraw
        rw [hs.committed] at hraw
        exact hfresh n (hs.ticks.trans hn) raw hraw
      · intro identity hstored
        change s.committed.StoredBy env.runId identity
        rw [hs.committed]
        exact hstored
      · change s.result.errors ++ [_] = [_]
        rw [hs.errors, List.nil_append]
    · rintro - s ⟨⟨hsettled, hsome, hgave⟩, hraise⟩
      refine ⟨hsettled, .inr ⟨exc, hsome, ?_, hgave⟩⟩
      by_contra hallowed
      rw [if_neg hallowed] at hraise
      cases hraise
    · rintro exc' s ⟨⟨hsettled, hsome, hgave⟩, hraise⟩
      have hallowed : ¬ env.allowPartial = true := by
        intro hallowed
        rw [if_pos hallowed] at hraise
        cases hraise
      rw [if_neg hallowed] at hraise
      cases hraise
      exact ⟨hsettled, hsome, Bool.eq_false_iff.mpr hallowed, hgave⟩

end ScrapeSource

end Bisakerja
