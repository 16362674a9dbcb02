import BisakerjaScraper.Core.Errors
import BisakerjaScraper.Schemes.Checkpoint
import BisakerjaScraper.Schemes.Hoare
import BisakerjaScraper.Sync.Durability

/-! The recommendation handoff.

    The sent sync events of a run become handoff events, one a job. Those that are due go out in
    chunks; an answer, good or bad, is recorded for each event of its chunk and flushed. -/

namespace Bisakerja
open Schemes Schemes.Delivery

/-- `HandoffStatus`. -/
inductive HandoffStatus where | pending | sent | failed | deadLetter
  deriving DecidableEq

/-- The columns `notification_handoff_run_source_external_target_unique` spans. -/
structure HandoffKey where
  scrapeRunId : String
  sourcePlatform : String
  externalId : String
  target : String
  deriving DecidableEq

/-- A `notification_handoff_events` row. -/
structure NotificationHandoffEvent where
  id : String
  scrapeRunId : String
  normalizedJobId : String
  syncEventId : String
  sourcePlatform : String
  externalId : String
  target : String
  status : HandoffStatus
  payloadHash : String
  attemptCount : ℕ
  attemptedAt : Time
  completedAt : Option Time
  errorCategory : Option String
  errorMessage : Option String
  responseSummary : Option Dict
  payloadJson : Dict

/-- The unique key of an event. -/
def NotificationHandoffEvent.key (event : NotificationHandoffEvent) : HandoffKey :=
  ⟨event.scrapeRunId, event.sourcePlatform, event.externalId, event.target⟩

/-- The handoff events, by their unique key. -/
abbrev HandoffEvents := Table NotificationHandoffEvent NotificationHandoffEvent.key

/-- `HandoffSuccess`. -/
structure HandoffSuccess where
  responseSummary : Dict

/-- `HandoffFailure`. -/
structure HandoffFailure where
  category : String
  message : String
  responseSummary : Option Dict

/-- An exception of `send_candidates`, with its `response_summary` where that is a dict. -/
structure HandoffException where
  className : String
  message : String
  responseSummary : Option Dict

/-- `HandoffWorkerResult`. -/
structure HandoffWorkerResult where
  attempted : ℕ := 0
  sent : ℕ := 0
  failed : ℕ := 0
  chunksAttempted : ℕ := 0
  chunksFailed : ℕ := 0

/-- The session of a handoff, with the log of its posts and records. -/
structure HandoffState where
  events : HandoffEvents
  ticks : ℕ := 0
  log : List (Entry HandoffKey) := []

/-- `RecommendationHandoffWorker`: what it is built with. `client` answers the post made at a given
    tick. -/
structure RecommendationHandoffWorker where
  host : Host
  hash : StableHash
  isoformat : Time → String
  client : ℕ → Json → Except HandoffException HandoffSuccess
  maxAttempts : ℕ := 3
  batchSize : ℕ := 1000
  batchSize_pos : 1 ≤ batchSize := by decide

/-- The delivery status of a handoff status. -/
def HandoffStatus.delivery : HandoffStatus → Delivery.Status
  | .pending => .pending
  | .sent => .sent
  | .failed => .failed
  | .deadLetter => .dead

/-- The delivery mark of an event. -/
def NotificationHandoffEvent.mark (event : NotificationHandoffEvent) : Mark :=
  ⟨event.status.delivery, event.attemptCount⟩

/-- The ledger of the handoff events. -/
def handoffLedger (events : HandoffEvents) : Ledger HandoffKey :=
  rowMarks NotificationHandoffEvent.mark events

/-! ### The repository -/

/-- `ORDER BY source_platform ASC, external_id ASC`. -/
def bySource (a b : SyncEvent) : Prop :=
  a.sourcePlatform < b.sourcePlatform ∨
    (a.sourcePlatform = b.sourcePlatform ∧ a.externalId ≤ b.externalId)

instance : DecidableRel bySource := fun a b => by unfold bySource; infer_instance

/-- `list_synced_jobs_for_run`. -/
def listSyncedJobsForRun (syncEvents : SyncEvents) (scrapeRunId : String) : List SyncEvent :=
  (syncEvents.rows.filter fun event =>
    event.scrapeRunId = some scrapeRunId && event.target = "backend" &&
      event.status = .sent).insertionSort bySource

/-- `candidate_payload_from`. -/
def candidatePayloadFrom (isoformat : Time → String) (syncEvent : SyncEvent) (runId : String)
    (job : NormalizedJob) : Dict :=
  let location := match Dict.get job.normalizedPayload "location" with
    | .dict entries => entries
    | _ => []
  let salary := match Dict.get job.normalizedPayload "salary" with
    | .dict entries => Json.dict entries
    | _ => .null
  [("eventId", .str (runId ++ ":" ++ job.sourcePlatform ++ ":" ++ job.externalId)),
    ("syncEventId", .str syncEvent.id), ("sourcePlatform", .str job.sourcePlatform),
    ("externalJobId", .str job.externalId), ("title", .str job.title),
    ("companyName", .str job.companyName), ("sourceUrl", .str job.sourceUrl),
    ("location", .dict location), ("salary", salary), ("status", .str job.status.value),
    ("lastSeenAt", .str (isoformat job.lastSeenAt))]

/-- The fields `prepare_event` assigns to an existing row. -/
def NotificationHandoffEvent.refresh (event : NotificationHandoffEvent)
    (syncEventId normalizedJobId payloadHash : String) (payload : Dict) (now : Time) :
    NotificationHandoffEvent :=
  { event with
    syncEventId := syncEventId
    normalizedJobId := normalizedJobId
    payloadHash := payloadHash
    payloadJson := payload
    attemptedAt := now }

/-- The fields `record_success` assigns. -/
def NotificationHandoffEvent.succeed (event : NotificationHandoffEvent) (result : HandoffSuccess)
    (now : Time) : NotificationHandoffEvent :=
  { event with
    status := .sent
    attemptCount := event.attemptCount + 1
    completedAt := some now
    errorCategory := none
    errorMessage := none
    responseSummary := some result.responseSummary }

/-- The fields `record_failure` assigns. -/
def NotificationHandoffEvent.fail (event : NotificationHandoffEvent) (failure : HandoffFailure)
    (maxAttempts : ℕ) (now later : Time) : NotificationHandoffEvent :=
  let status := if maxAttempts ≤ event.attemptCount + 1 then .deadLetter else .failed
  { event with
    attemptCount := event.attemptCount + 1
    status := status
    errorCategory := some failure.category
    errorMessage := some failure.message
    responseSummary := failure.responseSummary
    attemptedAt := now
    completedAt := if status = .deadLetter then some later else none }

/-- Rewrites a row and logs its new mark. -/
def HandoffState.record (s : HandoffState) (key : HandoffKey)
    (f : NotificationHandoffEvent → NotificationHandoffEvent) (hf : ∀ event, (f event).key = event.key)
    (ticks : ℕ) : HandoffState :=
  match s.events.find? key with
  | some event =>
    { events := s.events.modify key f hf
      ticks := s.ticks + ticks
      log := s.log ++ [.wrote key (f event).mark] }
  | none => s

/-- `is_retryable_handoff`. -/
def isRetryableHandoff (event : NotificationHandoffEvent) (maxAttempts : ℕ) : Bool :=
  event.status = .pending || (event.status = .failed && event.attemptCount < maxAttempts)

/-- `chunks`. -/
def chunks {α : Type} (values : List α) (size : ℕ) : List (List α) :=
  (List.range ((values.length + size - 1) / size)).map fun index =>
    (values.drop (index * size)).take size

namespace RecommendationHandoffWorker

variable (w : RecommendationHandoffWorker)

/-- The row `prepare_event` inserts. -/
def newHandoff (key : HandoffKey) (syncEvent : SyncEvent) (job : NormalizedJob) (payload : Dict)
    (ticks : ℕ) : NotificationHandoffEvent where
  id := w.host.newId ticks
  scrapeRunId := key.scrapeRunId
  normalizedJobId := job.id
  syncEventId := syncEvent.id
  sourcePlatform := key.sourcePlatform
  externalId := key.externalId
  target := key.target
  status := .pending
  payloadHash := w.hash.digest (.dict payload)
  attemptCount := 0
  attemptedAt := w.host.utcNow ticks
  completedAt := none
  errorCategory := none
  errorMessage := none
  responseSummary := none
  payloadJson := payload

/-- `prepare_event` once its run and its job are found. -/
def prepareFound (key : HandoffKey) (syncEvent : SyncEvent) (job : NormalizedJob) (payload : Dict)
    (s : HandoffState) : HandoffState :=
  match s.events.find? key with
  | some _ =>
    { s with
      events := s.events.modify key (·.refresh syncEvent.id job.id (w.hash.digest (.dict payload))
        payload (w.host.utcNow s.ticks)) fun _ => rfl
      ticks := s.ticks + 1 }
  | none =>
    let event := w.newHandoff key syncEvent job payload s.ticks
    { events := s.events.insert event
      ticks := s.ticks + 1
      log := s.log ++ [.wrote key event.mark] }

/-- `prepare_event`. -/
def prepareEvent (jobs : NormalizedJobs) (syncEvent : SyncEvent) :
    Stateful HandoffState PyException HandoffKey :=
  match syncEvent.scrapeRunId with
  | none => .raise (PyException.plain "ValueError" "handoff requires synced run and normalized job")
  | some runId =>
    match jobs.find? syncEvent.normalizedJobId with
    | none => .raise (PyException.plain "ValueError" "sync event missing normalized job")
    | some job =>
      let key : HandoffKey :=
        ⟨runId, syncEvent.sourcePlatform, syncEvent.externalId, "backend-notifications"⟩
      .update fun s =>
        (key, w.prepareFound key syncEvent job (candidatePayloadFrom w.isoformat syncEvent runId job) s)

/-- `[self.repository.prepare_event(e) for e in sync_events]`. -/
def prepareEvents (jobs : NormalizedJobs) :
    List SyncEvent → Stateful HandoffState PyException (List HandoffKey)
  | [] => pure []
  | syncEvent :: rest => do
    let key ← w.prepareEvent jobs syncEvent
    let keys ← prepareEvents jobs rest
    pure (key :: keys)

/-- `record_success`. -/
def recordSuccess (result : HandoffSuccess) (s : HandoffState) (key : HandoffKey) : HandoffState :=
  s.record key (·.succeed result (w.host.utcNow s.ticks)) (fun _ => rfl) 1

/-- `record_failure`. -/
def recordFailure (failure : HandoffFailure) (s : HandoffState) (key : HandoffKey) : HandoffState :=
  s.record key (·.fail failure w.maxAttempts (w.host.utcNow s.ticks) (w.host.utcNow (s.ticks + 1)))
    (fun _ => rfl) 2

/-- The payload of a chunk. -/
def chunkPayload (runId : String) (keys : List HandoffKey) (events : HandoffEvents) : Json :=
  .dict [("runId", .str runId),
    ("candidates", .list (keys.filterMap fun key =>
      (events.find? key).map fun event => .dict event.payloadJson))]

/-- What an answer does to one event. -/
def recordAnswer (answer : Except HandoffException HandoffSuccess) :
    HandoffState → HandoffKey → HandoffState :=
  match answer with
  | .ok result => w.recordSuccess result
  | .error exc => w.recordFailure ⟨exc.className, exc.message, exc.responseSummary⟩

/-- The answer to the post of a chunk. -/
def chunkAnswer (runId : String) (keys : List HandoffKey) (s : HandoffState) :
    Except HandoffException HandoffSuccess :=
  w.client s.ticks (chunkPayload runId keys s.events)

/-- The session when a chunk has been posted. -/
def posted (keys : List HandoffKey) (s : HandoffState) : HandoffState :=
  { s with ticks := s.ticks + 1, log := s.log ++ [.posted keys] }

/-- One turn of the loop over the chunks. -/
def sendChunk (runId : String) (keys : List HandoffKey) (s : HandoffState) : HandoffState :=
  keys.foldl (w.recordAnswer (w.chunkAnswer runId keys s)) (posted keys s)

/-- What a turn counts. -/
def HandoffWorkerResult.addChunk (result : HandoffWorkerResult) (size : ℕ)
    (answer : Except HandoffException HandoffSuccess) : HandoffWorkerResult :=
  match answer with
  | .ok _ =>
    { result with sent := result.sent + size, chunksAttempted := result.chunksAttempted + 1 }
  | .error _ =>
    { result with
      failed := result.failed + size
      chunksAttempted := result.chunksAttempted + 1
      chunksFailed := result.chunksFailed + 1 }

/-- The loop over the chunks. -/
def sendChunks (runId : String) :
    List (List HandoffKey) → HandoffWorkerResult → HandoffState → HandoffWorkerResult × HandoffState
  | [], result, s => (result, s)
  | keys :: rest, result, s =>
    sendChunks runId rest (HandoffWorkerResult.addChunk result keys.length (w.chunkAnswer runId keys s))
      (w.sendChunk runId keys s)

/-- `retryable_events`. -/
def retryableEvents (keys : List HandoffKey) (events : HandoffEvents) : List HandoffKey :=
  keys.filter fun key => (events.find? key).any (isRetryableHandoff · w.maxAttempts)

/-- `handoff_synced_jobs`. -/
def handoffSyncedJobs (jobs : NormalizedJobs) (syncEvents : SyncEvents) (scrapeRunId : String) :
    Stateful HandoffState PyException HandoffWorkerResult := do
  let keys ← w.prepareEvents jobs (listSyncedJobsForRun syncEvents scrapeRunId)
  .update fun s =>
    let retryable := w.retryableEvents keys s.events
    w.sendChunks scrapeRunId (chunks retryable w.batchSize) { attempted := retryable.length } s

end RecommendationHandoffWorker

end Bisakerja
