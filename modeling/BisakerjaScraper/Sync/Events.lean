import Mathlib.Data.List.Sort
import BisakerjaScraper.Persistence.Models
import BisakerjaScraper.Python.Text
import BisakerjaScraper.Backend.Client

/-! The sync events: one row per target, job and payload hash.

    `prepare_event` hands out the row of a payload and creates it once; `record_success` and
    `record_failure` move it on. A reference to a row is its key, so two holders of one row see
    each other's writes, as two names of one ORM object do. Clock and id generator are streams
    read at the position `ticks`, and the journal keeps every effect of a run in order, with the
    events as they stood when it happened. -/

namespace Bisakerja
open Schemes

/-- `stable_payload_hash`: a digest of a payload, never the empty text. -/
structure StableHash where
  digest : Json → String
  digest_ne : ∀ payload, digest payload ≠ ""

/-- A text of a dumped payload, empty when it is missing. -/
def textAt (payload : Json) (outer inner : String) : String :=
  match (payload.get outer).get inner with
  | .str s => s
  | _ => ""

/-- A digest that tells payloads apart by job and run, which is all the payloads below differ in. -/
def plainHash : StableHash where
  digest payload := "sha256:" ++ textAt payload "jobListing" "externalJobId" ++ "@" ++
    textAt payload "ingestionRun" "sourceRunId"
  digest_ne payload h := by
    have hlist := congrArg String.toList h
    simp at hlist

/-- Clock, id generator and stopwatch of the process. -/
structure Host where
  utcNow : ℕ → Time
  newId : ℕ → String
  latencyMs : ℕ → ℤ

/-- `SyncSuccess`. -/
structure SyncSuccess where
  responseSummary : Dict

/-- `SyncFailure`. -/
structure SyncFailure where
  category : String
  message : String
  responseSummary : Option Dict

/-- `ChunkSyncResult`. -/
structure ChunkSyncResult where
  sent : ℕ
  failed : ℕ
  statusClass : String
  retryableFailure : Bool := false
  latencyMs : Option ℤ := none

/-- What a sync run does, in order. -/
inductive Effect where
  | listed (candidates : List NormalizedJob)
  | attempted (db : JobTables) (jobs : List NormalizedJob) (events : SyncEvents)
  | created (event : SyncEvent)
  | posted (rows : List (EventKey × Json)) (events : SyncEvents)
      (answer : Except BackendSyncError BackendSyncResult)
  | recorded (before after : SyncEvent)
  | settled (jobs : List NormalizedJob) (result : ChunkSyncResult)

/-- The session of a sync run. -/
structure SyncState where
  events : SyncEvents
  ticks : ℕ := 0
  journal : List Effect := []

/-- The state after one effect. -/
def SyncState.log (s : SyncState) (effect : Effect) : SyncState :=
  { s with journal := s.journal ++ [effect] }

/-! ### Reading -/

/-- `stage_suffixes`. -/
def stageSuffixes : List String :=
  ["notify-handoff", "notify", "normalize", "enrich", "scrape", "sync"]

/-- `scrape_scope_run_id`. -/
def scrapeScopeRunId (runId : String) : String :=
  match stageSuffixes.find? fun suffix => endsWith runId ("-" ++ suffix) with
  | some suffix => dropLast runId ("-" ++ suffix).toList.length ++ "-scrape"
  | none => runId

/-- `is_retryable_event`. -/
def isRetryableEvent (event : SyncEvent) (maxAttempts : ℕ) : Bool :=
  event.status = .pending || (event.status = .failed && event.attemptCount < maxAttempts)

/-- `ORDER BY last_seen_at DESC, id ASC`. -/
def newestFirst (a b : NormalizedJob) : Prop :=
  b.lastSeenAt < a.lastSeenAt ∨ (a.lastSeenAt = b.lastSeenAt ∧ a.id ≤ b.id)

instance : DecidableRel newestFirst := fun a b => by unfold newestFirst; infer_instance

/-- The `WHERE` clauses of `list_eligible_jobs`. -/
def isEligible (db : JobTables) (eligibleStatuses : List CanonicalJobStatus)
    (sourcePlatforms : Option (List String)) (scrapeRunId : Option String)
    (job : NormalizedJob) : Bool :=
  job.status ∈ eligibleStatuses &&
    (match sourcePlatforms with
      | none => true
      | some platforms => job.sourcePlatform ∈ platforms) &&
    (match scrapeRunId with
      | none => true
      | some runId => (db.rawJob job).any fun raw => raw.scrapeRunId = scrapeScopeRunId runId)

/-- `list_eligible_jobs`. -/
def listEligibleJobs (db : JobTables) (eligibleStatuses : List CanonicalJobStatus)
    (sourcePlatforms : Option (List String)) (scrapeRunId : Option String) : List NormalizedJob :=
  (db.normalizedJobs.rows.filter
    (isEligible db eligibleStatuses sourcePlatforms scrapeRunId)).insertionSort newestFirst

/-- The key `find_event` and `prepare_event` compute for a job and an optional hash. -/
def eventKey (hash : StableHash) (job : NormalizedJob) (payloadHash : Option String) : EventKey :=
  ⟨"backend", job.id, orText payloadHash (hash.digest (.dict job.normalizedPayload))⟩

/-- `find_event`. -/
def findEvent (hash : StableHash) (events : SyncEvents) (job : NormalizedJob)
    (payloadHash : Option String) : Option SyncEvent :=
  events.find? (eventKey hash job payloadHash)

/-! ### Writing -/

/-- The row `prepare_event` inserts. -/
def newEvent (host : Host) (ticks : ℕ) (key : EventKey) (job : NormalizedJob)
    (scrapeRunId : Option String) : SyncEvent where
  id := host.newId ticks
  scrapeRunId := scrapeRunId
  normalizedJobId := key.normalizedJobId
  sourcePlatform := job.sourcePlatform
  externalId := job.externalId
  status := .pending
  target := key.target
  payloadHash := key.payloadHash
  attemptCount := 0
  attemptedAt := host.utcNow ticks
  completedAt := none
  errorCategory := none
  errorMessage := none
  responseSummary := none
  metadataJson := none

/-- The fields `prepare_event` assigns to an existing row. -/
def SyncEvent.rescope (event : SyncEvent) (scrapeRunId : Option String) (now : Time) : SyncEvent :=
  { event with scrapeRunId := scrapeRunId, attemptedAt := now }

theorem SyncEvent.rescope_key (scrapeRunId : Option String) (now : Time) (event : SyncEvent) :
    (event.rescope scrapeRunId now).key = event.key := rfl

/-- `prepare_event`: the reference of the payload's row, created when it is missing. -/
def prepareEvent (host : Host) (hash : StableHash) (job : NormalizedJob)
    (scrapeRunId : Option String) (payloadHash : Option String) (s : SyncState) :
    EventKey × SyncState :=
  let key := eventKey hash job payloadHash
  match s.events.find? key with
  | some _ =>
    (key, { s with
      events := s.events.modify key (·.rescope scrapeRunId (host.utcNow s.ticks))
        (SyncEvent.rescope_key scrapeRunId (host.utcNow s.ticks))
      ticks := s.ticks + 1 })
  | none =>
    let event := newEvent host s.ticks key job scrapeRunId
    (key, SyncState.log
      { s with events := s.events.insert event, ticks := s.ticks + 1 } (.created event))

/-- The metadata `attach_chunk_metadata` merges into a row. -/
def SyncEvent.attach (event : SyncEvent) (chunkId chunkPayloadHash : String) (chunkSize : ℕ) :
    SyncEvent :=
  { event with metadataJson := some ((event.metadataJson.getD []).merge
      [("chunkId", .str chunkId), ("chunkPayloadHash", .str chunkPayloadHash),
        ("chunkSize", .int chunkSize)]) }

theorem SyncEvent.attach_key (chunkId chunkPayloadHash : String) (chunkSize : ℕ)
    (event : SyncEvent) : (event.attach chunkId chunkPayloadHash chunkSize).key = event.key := rfl

/-- `attach_chunk_metadata`. -/
def attachChunkMetadata (chunkId chunkPayloadHash : String) (chunkSize : ℕ) (s : SyncState)
    (key : EventKey) : SyncState :=
  { s with
    events := s.events.modify key (·.attach chunkId chunkPayloadHash chunkSize)
      (SyncEvent.attach_key chunkId chunkPayloadHash chunkSize) }

/-- The fields `record_success` assigns. -/
def SyncEvent.succeed (event : SyncEvent) (result : SyncSuccess) (now : Time) : SyncEvent :=
  { event with
    status := .sent
    attemptCount := event.attemptCount + 1
    completedAt := some now
    errorCategory := none
    errorMessage := none
    responseSummary := some result.responseSummary }

/-- The fields `record_failure` assigns; it reads the clock once or twice. -/
def SyncEvent.fail (event : SyncEvent) (failure : SyncFailure) (maxAttempts : ℕ)
    (now later : Time) : SyncEvent :=
  let status := if maxAttempts ≤ event.attemptCount + 1 then .deadLetter else .failed
  { event with
    status := status
    attemptCount := event.attemptCount + 1
    errorCategory := some failure.category
    errorMessage := some failure.message
    responseSummary := failure.responseSummary
    attemptedAt := now
    completedAt := if status = .deadLetter then some later else none }

theorem SyncEvent.succeed_key (result : SyncSuccess) (now : Time) (event : SyncEvent) :
    (event.succeed result now).key = event.key := rfl

theorem SyncEvent.fail_key (failure : SyncFailure) (maxAttempts : ℕ) (now later : Time)
    (event : SyncEvent) : (event.fail failure maxAttempts now later).key = event.key := rfl

/-- Rewrites the row behind a reference and journals the change. -/
def SyncState.record (s : SyncState) (key : EventKey) (f : SyncEvent → SyncEvent)
    (hf : ∀ event, (f event).key = event.key) (ticks : ℕ) : SyncState :=
  match s.events.find? key with
  | some event => SyncState.log
      { s with events := s.events.modify key f hf, ticks := s.ticks + ticks }
      (.recorded event (f event))
  | none => s

/-- `record_success`. -/
def recordSuccess (host : Host) (result : SyncSuccess) (s : SyncState) (key : EventKey) :
    SyncState :=
  s.record key (·.succeed result (host.utcNow s.ticks))
    (SyncEvent.succeed_key result (host.utcNow s.ticks)) 1

/-- `record_failure`. -/
def recordFailure (host : Host) (failure : SyncFailure) (maxAttempts : ℕ) (s : SyncState)
    (key : EventKey) : SyncState :=
  let now := host.utcNow s.ticks
  let later := host.utcNow (s.ticks + 1)
  s.record key (·.fail failure maxAttempts now later)
    (SyncEvent.fail_key failure maxAttempts now later) 2

/-! ### Listing -/

theorem mem_listEligibleJobs {db : JobTables} {statuses : List CanonicalJobStatus}
    {platforms : Option (List String)} {runId : Option String} {job : NormalizedJob} :
    job ∈ listEligibleJobs db statuses platforms runId ↔
      job ∈ db.normalizedJobs.rows ∧ isEligible db statuses platforms runId job = true := by
  unfold listEligibleJobs
  rw [List.mem_insertionSort, List.mem_filter]

/-- No job is listed twice: the primary key is unique. -/
theorem nodup_listEligibleJobs (db : JobTables) (statuses : List CanonicalJobStatus)
    (platforms : Option (List String)) (runId : Option String) :
    ((listEligibleJobs db statuses platforms runId).map NormalizedJob.id).Nodup := by
  unfold listEligibleJobs
  have hperm := (List.perm_insertionSort newestFirst
    (db.normalizedJobs.rows.filter (isEligible db statuses platforms runId))).map NormalizedJob.id
  rw [hperm.nodup_iff]
  exact db.normalizedJobs.unique.sublist (List.filter_sublist.map _)

/-! ### References -/

@[simp] theorem eventKey_normalizedJobId (hash : StableHash) (job : NormalizedJob)
    (payloadHash : Option String) : (eventKey hash job payloadHash).normalizedJobId = job.id := rfl

/-- A digest is never empty, so a hash that is passed is the hash that is used. -/
theorem eventKey_digest (hash : StableHash) (job : NormalizedJob) (payload : Json) :
    eventKey hash job (some (hash.digest payload)) = ⟨"backend", job.id, hash.digest payload⟩ := by
  have hne := hash.digest_ne payload
  unfold eventKey orText
  split
  · next heq => exact absurd (Option.some.inj heq) hne
  · next heq => rw [Option.some.inj heq]
  · next heq => cases heq

@[simp] theorem newEvent_key (host : Host) (ticks : ℕ) (key : EventKey) (job : NormalizedJob)
    (runId : Option String) : (newEvent host ticks key job runId).key = key := rfl

end Bisakerja
