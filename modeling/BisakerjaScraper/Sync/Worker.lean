import BisakerjaScraper.Backend.Payloads
import BisakerjaScraper.Schemes.Collect
import BisakerjaScraper.Sync.Events

/-! The backend sync worker.

    A run lists its candidates once, cuts them into chunks of at most 25 jobs and posts one chunk
    after the other. A chunk whose post fails retryably is attempted again at half its size while
    batching is adaptive; what the halving cuts off comes back in the next chunk. Both loops carry
    fuel here: the inner one can shrink a chunk no more often than it has jobs, the outer one
    settles at least one job a turn, and `syncEligibleJobs_isSome` in the partition module shows
    that the fuel they are given is always enough. -/

namespace Bisakerja
open Schemes

/-- `SYNC_ELIGIBLE_STATUSES`. -/
def syncEligibleStatuses : List CanonicalJobStatus := [.active, .stale, .expired]

/-- `BACKEND_SYNC_MAX_BATCH_SIZE`. -/
def backendSyncMaxBatchSize : ℕ := 25

/-- `BackendSyncWorkerResult`. -/
structure BackendSyncWorkerResult where
  attempted : ℕ
  sent : ℕ
  failed : ℕ
  chunksAttempted : ℕ
  chunksFailed : ℕ
  adaptiveBatchReductions : ℕ
  chunkLatencyMsP50 : Option ℤ
  chunkLatencyMsP95 : Option ℤ
  statusClassCounts : List (String × ℕ)
  zeroSentReason : Option String

/-- The arguments of one `sync_eligible_jobs` call. -/
structure SyncParams where
  scrapeRunId : Option String
  limit : ℤ
  batchSize : Option ℤ := none
  sourcePlatforms : Option (List String) := none
  minBatchSize : ℤ := 1
  adaptiveBatching : Bool := true

/-- `BackendSyncWorker`: what it is built with. `build` is `build_backend_job_payload` followed by
    `model_dump`, and `client` answers the post made at a given tick. -/
structure BackendSyncWorker where
  host : Host
  hash : StableHash
  build : Option RawJob → NormalizedJob → Except BackendPayloadValidationError Json
  client : ℕ → List Json → Except BackendSyncError BackendSyncResult
  maxAttempts : ℕ := 3

/-- `percentile_nearest_rank`. -/
def percentileNearestRank (values : List ℤ) (percentile : ℕ) : Option ℤ :=
  let ordered := values.insertionSort (· ≤ ·)
  let rank := min (max ((percentile * ordered.length + 99) / 100) 1) ordered.length
  ordered[rank - 1]?

/-- `_infer_zero_sent_reason`. -/
def inferZeroSentReason (attempted sent failed : ℕ) : Option String :=
  if 0 < sent then none
  else if attempted = 0 then some "no eligible jobs for sync"
  else if attempted ≤ failed then some "all candidate jobs failed sync attempts"
  else some "no sync candidates were sent"

/-- The counters of the two loops. -/
structure Progress where
  sent : ℕ := 0
  failed : ℕ := 0
  chunksAttempted : ℕ := 0
  chunksFailed : ℕ := 0
  adaptiveBatchReductions : ℕ := 0
  chunkLatencies : List ℤ := []
  statusClassCounts : List (String × ℕ) := []
  chunkIndex : ℕ := 0
  chunkSize : ℕ

/-- `counts[key] = counts.get(key, 0) + 1`. -/
def bumpCount (counts : List (String × ℕ)) (key : String) : List (String × ℕ) :=
  if (counts.lookup key).isSome then
    counts.map fun entry => if entry.1 = key then (key, entry.2 + 1) else entry
  else counts ++ [(key, 1)]

/-- The counting every attempt gets. -/
def Progress.addAttempt (g : Progress) (result : ChunkSyncResult) : Progress :=
  { g with
    chunkIndex := g.chunkIndex + 1
    chunkLatencies := g.chunkLatencies ++ [result.latencyMs.getD 0]
    statusClassCounts := bumpCount g.statusClassCounts result.statusClass
    chunksAttempted := g.chunksAttempted + 1 }

/-- The counting an attempt gets that is to be repeated. -/
def Progress.addFailedChunk (g : Progress) : Progress := { g with chunksFailed := g.chunksFailed + 1 }

/-- The counters when the chunk is cut to `size`. -/
def Progress.reduce (g : Progress) (size : ℕ) : Progress :=
  { g with adaptiveBatchReductions := g.adaptiveBatchReductions + 1, chunkSize := size }

/-- The counting an attempt gets that is not repeated. -/
def Progress.settle (g : Progress) (result : ChunkSyncResult) : Progress :=
  { g with
    sent := g.sent + result.sent
    failed := g.failed + result.failed
    chunksFailed := if result.failed ≠ 0 then g.chunksFailed + 1 else g.chunksFailed }

/-- `chunk_size` before the first chunk. -/
def SyncParams.chunkSize (p : SyncParams) : ℕ :=
  let requested := match p.batchSize with
    | some size => if size = 0 then p.limit else size
    | none => p.limit
  min (max requested 1).toNat backendSyncMaxBatchSize

/-- `f"{scrape_run_id or 'manual'}:{chunk_index}"`. -/
def SyncParams.chunkId (p : SyncParams) (chunkIndex : ℕ) : String :=
  orText p.scrapeRunId "manual" ++ ":" ++ toString chunkIndex

/-- `should_retry_with_smaller_batch`. -/
def SyncParams.shouldRetry (p : SyncParams) (chunkJobs : List NormalizedJob)
    (result : ChunkSyncResult) : Bool :=
  p.adaptiveBatching && result.retryableFailure && result.sent = 0 &&
    p.minBatchSize < chunkJobs.length

/-- `next_size`: half of the chunk, rounded up, and not below `min_batch_size`. -/
def SyncParams.nextSize (p : SyncParams) (chunkJobs : List NormalizedJob) : ℕ :=
  max p.minBatchSize.toNat ((chunkJobs.length + 1) / 2)

/-- What the first loop of `_sync_chunk` has gathered. -/
structure Prepared where
  failed : ℕ := 0
  rows : List (EventKey × Json) := []

namespace BackendSyncWorker

variable (w : BackendSyncWorker)

/-- `build_backend_job_payload(job).model_dump(mode="json", by_alias=True)`. -/
def payloadOf (db : JobTables) (job : NormalizedJob) : Except BackendPayloadValidationError Json :=
  w.build (db.rawJob job) job

/-- The hash a job's event is looked up with: none while the payload does not build. -/
def payloadHash (db : JobTables) (job : NormalizedJob) : Option String :=
  match w.payloadOf db job with
  | .ok payload => some (w.hash.digest payload)
  | .error _ => none

/-- The reference of the event a run works on for a job. -/
def keyOf (db : JobTables) (job : NormalizedJob) : EventKey :=
  eventKey w.hash job (w.payloadHash db job)

/-! ### The candidates -/

/-- The test of `_list_backend_payload_candidates`: a job whose payload does not build is always
    appended, another one when its event is missing or retryable. -/
def isCandidate (db : JobTables) (events : SyncEvents) (job : NormalizedJob) : Bool :=
  match w.payloadOf db job with
  | .error _ => true
  | .ok payload =>
    match findEvent w.hash events job (some (w.hash.digest payload)) with
    | none => true
    | some event => isRetryableEvent event w.maxAttempts

/-- `_list_backend_payload_candidates`. -/
def listBackendPayloadCandidates (db : JobTables) (p : SyncParams) (events : SyncEvents) :
    List NormalizedJob :=
  collectUpTo (w.isCandidate db events) p.limit []
    (listEligibleJobs db syncEligibleStatuses p.sourcePlatforms p.scrapeRunId)

/-! ### One chunk -/

/-- The failure of a payload that does not build. -/
def contractFailure (exc : BackendPayloadValidationError) : SyncFailure where
  category := "sync_contract_validation_error"
  message := exc.message
  responseSummary := some [("validationErrors", .list (exc.details.take 10))]

/-- One turn of the first loop of `_sync_chunk`: the row of a valid payload, or a failure recorded
    with `max_attempts=1`. -/
def prepareJob (db : JobTables) (runId : Option String) (job : NormalizedJob) (s : SyncState) :
    Option (EventKey × Json) × SyncState :=
  match w.payloadOf db job with
  | .error exc =>
    let prepared := prepareEvent w.host w.hash job runId none s
    (none, recordFailure w.host (contractFailure exc) 1 prepared.2 prepared.1)
  | .ok payload =>
    let prepared := prepareEvent w.host w.hash job runId (some (w.hash.digest payload)) s
    (some (prepared.1, payload), prepared.2)

/-- The first loop of `_sync_chunk`. -/
def prepareJobs (db : JobTables) (runId : Option String) :
    List NormalizedJob → Prepared → SyncState → Prepared × SyncState
  | [], acc, s => (acc, s)
  | job :: jobs, acc, s =>
    match w.prepareJob db runId job s with
    | (none, s) => prepareJobs db runId jobs { acc with failed := acc.failed + 1 } s
    | (some row, s) => prepareJobs db runId jobs { acc with rows := acc.rows ++ [row] } s

/-- `response_summary or {...}`. -/
def summaryOr (summary fallback : Dict) : Dict := if summary.isEmpty then fallback else summary

/-- A status code as JSON. -/
def statusCodeJson : Option ℕ → Json
  | some code => .int code
  | none => .null

/-- The failure of a `BackendSyncClientError`. -/
def clientFailure (exc : BackendSyncErrorInfo) : SyncFailure where
  category :=
    if exc.statusCode = some 404 then "backend_endpoint_not_found" else "backend_rejected_payload"
  message := exc.message
  responseSummary := some (summaryOr exc.responseSummary
    [("statusCode", statusCodeJson exc.statusCode), ("statusClass", .str "4xx")])

/-- `failure_max_attempts`: only a 404 keeps the retries of the worker. -/
def failureMaxAttempts (exc : BackendSyncErrorInfo) : ℕ :=
  if exc.statusCode = some 404 then w.maxAttempts else 1

/-- The status class of a `BackendSyncServerError`. -/
def serverStatusClass (exc : BackendSyncErrorInfo) : String :=
  match exc.statusCode with
  | some 0 => "transport"
  | some code => statusClassOf code
  | none => "transport"

/-- The failure of a `BackendSyncServerError`. -/
def serverFailure (exc : BackendSyncErrorInfo) : SyncFailure where
  category := "backend_retryable_failure"
  message := exc.message
  responseSummary := some (summaryOr exc.responseSummary
    [("statusCode", statusCodeJson exc.statusCode),
      ("statusClass", .str (serverStatusClass exc))])

/-- What follows the post: every row of the chunk is recorded alike. -/
def recordAnswer (prepared : Prepared) (answer : Except BackendSyncError BackendSyncResult)
    (s : SyncState) : ChunkSyncResult × SyncState :=
  let keys := prepared.rows.map Prod.fst
  match answer with
  | .error (.client exc) =>
    ({ sent := 0, failed := prepared.failed + keys.length, statusClass := "4xx",
       retryableFailure := exc.statusCode = some 404 },
      keys.foldl (recordFailure w.host (clientFailure exc) (w.failureMaxAttempts exc)) s)
  | .error (.server exc) =>
    ({ sent := 0, failed := prepared.failed + keys.length, statusClass := serverStatusClass exc,
       retryableFailure := true },
      keys.foldl (recordFailure w.host (serverFailure exc) w.maxAttempts) s)
  | .ok result =>
    ({ sent := keys.length, failed := prepared.failed,
       statusClass := statusClassOf result.statusCode },
      keys.foldl (recordSuccess w.host ⟨result.responseSummary⟩) s)

/-- The post of `_sync_chunk` and what is recorded of it. -/
def postChunk (chunkId : String) (prepared : Prepared) (s : SyncState) :
    ChunkSyncResult × SyncState :=
  let payloadJobs := prepared.rows.map Prod.snd
  let chunkPayloadHash := w.hash.digest (.dict [("jobs", .list payloadJobs)])
  let s := (prepared.rows.map Prod.fst).foldl
    (attachChunkMetadata chunkId chunkPayloadHash payloadJobs.length) s
  let answer := w.client s.ticks payloadJobs
  w.recordAnswer prepared answer
    { s.log (.posted prepared.rows s.events answer) with ticks := s.ticks + 1 }

/-- `_sync_chunk`. -/
def syncChunk (db : JobTables) (runId : Option String) (chunkId : String)
    (jobs : List NormalizedJob) (s : SyncState) : ChunkSyncResult × SyncState :=
  if jobs.isEmpty then ({ sent := 0, failed := 0, statusClass := "empty" }, s)
  else
    let prepared := w.prepareJobs db runId jobs {} (s.log (.attempted db jobs s.events))
    if prepared.1.rows.isEmpty then
      ({ sent := 0, failed := prepared.1.failed, statusClass := "contract" }, prepared.2)
    else w.postChunk chunkId prepared.1 prepared.2

/-! ### The loops -/

/-- One turn of the inner loop up to the decision: the attempt and its latency. -/
def attemptOnce (db : JobTables) (p : SyncParams) (chunkIndex : ℕ) (chunkJobs : List NormalizedJob)
    (s : SyncState) : ChunkSyncResult × SyncState :=
  let attempt := w.syncChunk db p.scrapeRunId (p.chunkId chunkIndex) chunkJobs s
  ({ attempt.1 with latencyMs := some (w.host.latencyMs attempt.2.ticks) },
    { attempt.2 with ticks := attempt.2.ticks + 1 })

/-- The inner loop: attempt the chunk, and again at half its size while it fails retryably. -/
def attemptChunk (db : JobTables) (p : SyncParams) :
    ℕ → List NormalizedJob → Progress → SyncState →
      Option (List NormalizedJob × Progress × SyncState)
  | 0, _, _, _ => none
  | fuel + 1, chunkJobs, g, s =>
    let attempt := w.attemptOnce db p (g.chunkIndex + 1) chunkJobs s
    let g := g.addAttempt attempt.1
    if p.shouldRetry chunkJobs attempt.1 then
      let nextSize := p.nextSize chunkJobs
      if nextSize = chunkJobs.length then some (chunkJobs, g.addFailedChunk, attempt.2)
      else
        let chunkSize := max nextSize p.minBatchSize.toNat
        attemptChunk db p fuel (chunkJobs.take chunkSize) (g.addFailedChunk.reduce chunkSize)
          attempt.2
    else
      some (chunkJobs, g.settle attempt.1, attempt.2.log (.settled chunkJobs attempt.1))

/-- The outer loop over the jobs from the cursor on. -/
def syncChunks (db : JobTables) (p : SyncParams) :
    ℕ → List NormalizedJob → Progress → SyncState → Option (Progress × SyncState)
  | _, [], g, s => some (g, s)
  | 0, _ :: _, _, _ => none
  | fuel + 1, job :: jobs, g, s =>
    let chunkJobs := (job :: jobs).take g.chunkSize
    match w.attemptChunk db p chunkJobs.length chunkJobs g s with
    | none => none
    | some (chunkJobs, g, s) => syncChunks db p fuel ((job :: jobs).drop chunkJobs.length) g s

/-- The result built from the counters. -/
def resultOf (jobs : List NormalizedJob) (g : Progress) : BackendSyncWorkerResult where
  attempted := jobs.length
  sent := g.sent
  failed := g.failed
  chunksAttempted := g.chunksAttempted
  chunksFailed := g.chunksFailed
  adaptiveBatchReductions := g.adaptiveBatchReductions
  chunkLatencyMsP50 := percentileNearestRank g.chunkLatencies 50
  chunkLatencyMsP95 := percentileNearestRank g.chunkLatencies 95
  statusClassCounts := g.statusClassCounts
  zeroSentReason := inferZeroSentReason jobs.length g.sent g.failed

/-- `sync_eligible_jobs`: `none` when a loop runs out of fuel, else the result or the message of
    the `ValueError`, and the session after the run. -/
def syncEligibleJobs (db : JobTables) (p : SyncParams) (s : SyncState) :
    Option (Except String BackendSyncWorkerResult × SyncState) :=
  let jobs := w.listBackendPayloadCandidates db p s.events
  let s := s.log (.listed jobs)
  if p.minBatchSize ≤ 0 then some (.error "min batch size must be greater than zero", s)
  else
    match w.syncChunks db p jobs.length jobs { chunkSize := p.chunkSize } s with
    | none => none
    | some (g, s) => some (.ok (resultOf jobs g), s)

end BackendSyncWorker

end Bisakerja
