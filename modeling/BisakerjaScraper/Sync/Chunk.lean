import BisakerjaScraper.Schemes.Delivery
import BisakerjaScraper.Schemes.Sweep
import BisakerjaScraper.Sync.Worker

/-! What one chunk attempt does.

    The events are read as a delivery ledger: status and attempt count per key. `syncChunk` is
    described once, key by key: the event of a job whose payload does not build is failed with
    budget one, the events of the posted payloads all move as the answer says, and every other
    event stays. The posts and settlements of the journal are read off the same way. -/

namespace Bisakerja
open Schemes Schemes.Delivery

/-! ### Events as deliveries -/

/-- The delivery status of an event status. -/
def SyncEventStatus.delivery : SyncEventStatus → Delivery.Status
  | .pending => .pending
  | .sent => .sent
  | .failed => .failed
  | .deadLetter => .dead

/-- The delivery mark of an event. -/
def SyncEvent.mark (event : SyncEvent) : Mark := ⟨event.status.delivery, event.attemptCount⟩

/-- The ledger an event table stands for. -/
def ledger (events : SyncEvents) : Ledger EventKey := fun k => (events.find? k).map SyncEvent.mark

theorem isRetryableEvent_iff {event : SyncEvent} {m : ℕ} :
    isRetryableEvent event m = true ↔ event.mark.Retryable m := by
  unfold isRetryableEvent Mark.Retryable SyncEvent.mark
  cases event.status <;> simp [SyncEventStatus.delivery]

theorem SyncEvent.terminal_mark {event : SyncEvent} :
    event.mark.Terminal ↔ event.status = .sent ∨ event.status = .deadLetter := by
  unfold Mark.Terminal SyncEvent.mark
  cases event.status <;> simp [SyncEventStatus.delivery]

theorem SyncEvent.rescope_mark (runId : Option String) (now : Time) (event : SyncEvent) :
    (event.rescope runId now).mark = event.mark := rfl

theorem SyncEvent.attach_mark (chunkId chunkHash : String) (size : ℕ) (event : SyncEvent) :
    (event.attach chunkId chunkHash size).mark = event.mark := rfl

theorem SyncEvent.succeed_mark (event : SyncEvent) (result : SyncSuccess) (now : Time) :
    (event.succeed result now).mark = event.mark.succeed := rfl

theorem SyncEvent.fail_mark (event : SyncEvent) (failure : SyncFailure) (m : ℕ)
    (now later : Time) : (event.fail failure m now later).mark = event.mark.fail m := by
  unfold SyncEvent.fail SyncEvent.mark Mark.fail
  by_cases h : m ≤ event.attemptCount + 1 <;> simp [h, SyncEventStatus.delivery]

theorem newEvent_mark (host : Host) (ticks : ℕ) (key : EventKey) (job : NormalizedJob)
    (runId : Option String) : (newEvent host ticks key job runId).mark = Mark.fresh := rfl

theorem ledger_eq_some {events : SyncEvents} {k : EventKey} {m : Mark} :
    ledger events k = some m ↔ ∃ event, events.find? k = some event ∧ event.mark = m := by
  simp [ledger]

/-! ### The journal -/

/-- The posts of a journal: the rows and the answer. -/
def posts (journal : List Effect) :
    List (List (EventKey × Json) × Except BackendSyncError BackendSyncResult) :=
  journal.filterMap fun
    | .posted rows _ answer => some (rows, answer)
    | _ => none

/-- The settled chunks of a journal with their results. -/
def settlements (journal : List Effect) : List (List NormalizedJob × ChunkSyncResult) :=
  journal.filterMap fun
    | .settled jobs result => some (jobs, result)
    | _ => none

/-- What the posts and settlements of a state are. -/
def SyncState.outline (s : SyncState) :
    List (List (EventKey × Json) × Except BackendSyncError BackendSyncResult) ×
      List (List NormalizedJob × ChunkSyncResult) :=
  (posts s.journal, settlements s.journal)

theorem posts_append (j j' : List Effect) : posts (j ++ j') = posts j ++ posts j' :=
  List.filterMap_append

theorem settlements_append (j j' : List Effect) :
    settlements (j ++ j') = settlements j ++ settlements j' :=
  List.filterMap_append

/-! ### The row operations -/

section Rows

variable (host : Host) (hash : StableHash) (s : SyncState)
variable (f : SyncEvent → SyncEvent) (hf : ∀ event, (f event).key = event.key)

theorem ledger_modify {g : Mark → Mark} (hg : ∀ event, (f event).mark = g event.mark)
    (events : SyncEvents) (key : EventKey) : ledger (events.modify key f hf) key = (ledger events key).map g := by
  unfold ledger
  rw [Table.find?_modify_self]
  cases events.find? key with
  | none => rfl
  | some event => simp [hg]

theorem ledger_modify_of_ne (events : SyncEvents) {key k : EventKey} (h : key ≠ k) :
    ledger (events.modify key f hf) k = ledger events k := by
  unfold ledger
  rw [Table.find?_modify_of_ne _ _ _ h]

/-- Rewriting a row in a way its mark does not show leaves the ledger as it is. -/
theorem ledger_modify_same (hg : ∀ event, (f event).mark = event.mark) (events : SyncEvents)
    (key : EventKey) :
    ledger (events.modify key f hf) = ledger events := by
  funext k
  by_cases h : key = k
  · subst h
    have hid := ledger_modify f hf (g := id) hg events key
    rw [hid, Option.map_id, id]
  · exact ledger_modify_of_ne f hf events h

theorem ledger_record_of_ne {key k : EventKey} (ticks : ℕ) (h : key ≠ k) :
    ledger (s.record key f hf ticks).events k = ledger s.events k := by
  unfold SyncState.record
  split
  · exact ledger_modify_of_ne f hf s.events h
  · rfl

theorem ledger_record {g : Mark → Mark} (hg : ∀ event, (f event).mark = g event.mark)
    (key : EventKey) (ticks : ℕ) :
    ledger (s.record key f hf ticks).events key = (ledger s.events key).map g := by
  unfold SyncState.record
  split
  · exact ledger_modify f hf hg s.events key
  · next hnone => simp [ledger, hnone]

theorem ledger_recordFailure (failure : SyncFailure) (m : ℕ) (key : EventKey) :
    ledger (recordFailure host failure m s key).events key
      = (ledger s.events key).map (Mark.fail m) :=
  ledger_record s _ _ (fun event => SyncEvent.fail_mark event failure m _ _) key 2

theorem ledger_recordFailure_of_ne (failure : SyncFailure) (m : ℕ) {key k : EventKey}
    (h : key ≠ k) : ledger (recordFailure host failure m s key).events k = ledger s.events k :=
  ledger_record_of_ne s _ _ 2 h

theorem ledger_recordSuccess (result : SyncSuccess) (key : EventKey) :
    ledger (recordSuccess host result s key).events key
      = (ledger s.events key).map Mark.succeed :=
  ledger_record s _ _ (fun event => SyncEvent.succeed_mark event result _) key 1

theorem ledger_recordSuccess_of_ne (result : SyncSuccess) {key k : EventKey} (h : key ≠ k) :
    ledger (recordSuccess host result s key).events k = ledger s.events k :=
  ledger_record_of_ne s _ _ 1 h

theorem ledger_prepareEvent (job : NormalizedJob) (runId ph : Option String) :
    ledger (prepareEvent host hash job runId ph s).2.events (eventKey hash job ph)
      = some ((ledger s.events (eventKey hash job ph)).getD Mark.fresh) := by
  unfold prepareEvent
  cases hfind : s.events.find? (eventKey hash job ph) with
  | some event =>
    simp only [hfind]
    rw [ledger_modify_same _ _ (SyncEvent.rescope_mark _ _)]
    simp [ledger, hfind]
  | none =>
    simp only [hfind, SyncState.log]
    have hins := Table.find?_insert_self s.events
      (r := newEvent host s.ticks (eventKey hash job ph) job runId) (by rw [newEvent_key]; exact hfind)
    rw [newEvent_key] at hins
    simp [ledger, hins, hfind, newEvent_mark]

theorem ledger_prepareEvent_of_ne (job : NormalizedJob) (runId ph : Option String) {k : EventKey}
    (h : eventKey hash job ph ≠ k) :
    ledger (prepareEvent host hash job runId ph s).2.events k = ledger s.events k := by
  unfold prepareEvent
  cases hfind : s.events.find? (eventKey hash job ph) with
  | some event =>
    simp only [hfind]
    exact ledger_modify_of_ne _ _ s.events h
  | none =>
    simp only [hfind, SyncState.log, ledger]
    rw [Table.find?_insert_of_ne _ (by rw [newEvent_key]; exact h)]

@[simp] theorem prepareEvent_fst (job : NormalizedJob) (runId ph : Option String) :
    (prepareEvent host hash job runId ph s).1 = eventKey hash job ph := by
  unfold prepareEvent
  dsimp only
  split <;> rfl

theorem ledger_attachChunkMetadata (chunkId chunkHash : String) (size : ℕ) (key : EventKey) :
    ledger (attachChunkMetadata chunkId chunkHash size s key).events = ledger s.events :=
  ledger_modify_same _ (SyncEvent.attach_key chunkId chunkHash size)
    (SyncEvent.attach_mark chunkId chunkHash size) s.events key

theorem journal_attachChunkMetadata (chunkId chunkHash : String) (size : ℕ) (key : EventKey) :
    (attachChunkMetadata chunkId chunkHash size s key).journal = s.journal := rfl

theorem outline_attachChunkMetadata (chunkId chunkHash : String) (size : ℕ) (key : EventKey) :
    (attachChunkMetadata chunkId chunkHash size s key).outline = s.outline := rfl

theorem outline_prepareEvent (job : NormalizedJob) (runId ph : Option String) :
    (prepareEvent host hash job runId ph s).2.outline = s.outline := by
  unfold prepareEvent
  dsimp only
  split
  · rfl
  · simp [SyncState.outline, SyncState.log, posts, settlements]

theorem outline_record (key : EventKey) (ticks : ℕ) : (s.record key f hf ticks).outline = s.outline := by
  unfold SyncState.record
  split
  · simp [SyncState.outline, SyncState.log, posts, settlements]
  · rfl

theorem journal_prepareEvent (job : NormalizedJob) (runId ph : Option String) :
    s.journal <+: (prepareEvent host hash job runId ph s).2.journal := by
  unfold prepareEvent
  dsimp only
  split
  · exact List.prefix_rfl
  · exact List.prefix_append _ _

theorem journal_record (key : EventKey) (ticks : ℕ) :
    s.journal <+: (s.record key f hf ticks).journal := by
  unfold SyncState.record
  split
  · exact List.prefix_append _ _
  · exact List.prefix_rfl

end Rows

namespace BackendSyncWorker

variable (w : BackendSyncWorker)

/-! ### The preparing loop -/

/-- The payload of a job builds. -/
def contractValid (db : JobTables) (job : NormalizedJob) : Bool :=
  match w.payloadOf db job with
  | .ok _ => true
  | .error _ => false

/-- The row a job contributes to the post. -/
def rowOf (db : JobTables) (job : NormalizedJob) : Option (EventKey × Json) :=
  match w.payloadOf db job with
  | .ok payload => some (w.keyOf db job, payload)
  | .error _ => none

/-- The mark of a job's event after the preparing loop. -/
def prepareMark (db : JobTables) (job : NormalizedJob) (o : Option Mark) : Option Mark :=
  some (if w.contractValid db job then o.getD Mark.fresh else (o.getD Mark.fresh).fail 1)

theorem keyOf_normalizedJobId (db : JobTables) (job : NormalizedJob) :
    (w.keyOf db job).normalizedJobId = job.id := rfl

variable {w} in
theorem keyOf_of_ok {db : JobTables} {job : NormalizedJob} {payload : Json}
    (hp : w.payloadOf db job = .ok payload) :
    w.keyOf db job = ⟨"backend", job.id, w.hash.digest payload⟩ := by
  simp only [keyOf, payloadHash, hp]
  exact eventKey_digest w.hash job payload

/-- Jobs with distinct ids work on distinct events. -/
theorem nodup_keyOf {db : JobTables} {jobs : List NormalizedJob}
    (h : (jobs.map NormalizedJob.id).Nodup) : (jobs.map (w.keyOf db)).Nodup := by
  have hmap : (jobs.map (w.keyOf db)).map EventKey.normalizedJobId = jobs.map NormalizedJob.id := by
    rw [List.map_map]
    rfl
  exact List.Nodup.of_map EventKey.normalizedJobId (hmap ▸ h)

theorem prepareJob_touches (db : JobTables) (runId : Option String) :
    Touches (fun (s : SyncState) k => ledger s.events k) (w.keyOf db)
      (fun s job => (w.prepareJob db runId job s).2) (w.prepareMark db) where
  self s job := by
    cases hp : w.payloadOf db job with
    | error exc =>
      have hkey : w.keyOf db job = eventKey w.hash job none := by simp [keyOf, payloadHash, hp]
      simp only [prepareJob, hp, prepareMark, contractValid, hkey, prepareEvent_fst]
      rw [ledger_recordFailure, ledger_prepareEvent]
      rfl
    | ok payload =>
      have hkey : w.keyOf db job = eventKey w.hash job (some (w.hash.digest payload)) := by
        simp [keyOf, payloadHash, hp]
      simp only [prepareJob, hp, prepareMark, contractValid, hkey, if_true]
      exact ledger_prepareEvent ..
  other s job k h := by
    cases hp : w.payloadOf db job with
    | error exc =>
      have hkey : w.keyOf db job = eventKey w.hash job none := by simp [keyOf, payloadHash, hp]
      rw [hkey] at h
      simp only [prepareJob, hp, prepareEvent_fst]
      rw [ledger_recordFailure_of_ne _ _ _ _ h, ledger_prepareEvent_of_ne _ _ _ _ _ _ h]
    | ok payload =>
      have hkey : w.keyOf db job = eventKey w.hash job (some (w.hash.digest payload)) := by
        simp [keyOf, payloadHash, hp]
      rw [hkey] at h
      simp only [prepareJob, hp]
      exact ledger_prepareEvent_of_ne _ _ _ _ _ _ h

theorem outline_prepareJob (db : JobTables) (runId : Option String) (s : SyncState)
    (job : NormalizedJob) : (w.prepareJob db runId job s).2.outline = s.outline := by
  unfold prepareJob
  split
  · exact (outline_record ..).trans (outline_prepareEvent ..)
  · exact outline_prepareEvent ..

/-- The preparing loop: what it gathers, and the state as a sweep over the jobs. -/
theorem prepareJobs_eq (db : JobTables) (runId : Option String) :
    ∀ (jobs : List NormalizedJob) (acc : Prepared) (s : SyncState),
      w.prepareJobs db runId jobs acc s =
        ({ failed := acc.failed + jobs.countP fun job => !w.contractValid db job,
           rows := acc.rows ++ jobs.filterMap (w.rowOf db) },
          jobs.foldl (fun s job => (w.prepareJob db runId job s).2) s)
  | [], acc, s => by simp [prepareJobs]
  | job :: jobs, acc, s => by
    rw [prepareJobs, List.foldl_cons]
    cases hp : w.payloadOf db job with
    | error exc =>
      have hstep : w.prepareJob db runId job s
          = (none, (w.prepareJob db runId job s).2) := by simp [prepareJob, hp]
      rw [hstep]
      simp only
      rw [prepareJobs_eq db runId jobs _ (w.prepareJob db runId job s).2]
      simp [contractValid, rowOf, hp]
      omega
    | ok payload =>
      have hkey : w.keyOf db job = eventKey w.hash job (some (w.hash.digest payload)) := by
        simp [keyOf, payloadHash, hp]
      have hstep : w.prepareJob db runId job s
          = (some (w.keyOf db job, payload), (w.prepareJob db runId job s).2) := by
        simp [prepareJob, hp, hkey]
      rw [hstep]
      simp only
      rw [prepareJobs_eq db runId jobs _ (w.prepareJob db runId job s).2]
      simp [contractValid, rowOf, hp]

/-- The rows are those of the valid jobs, in order. -/
theorem map_fst_rowOf (db : JobTables) : ∀ jobs : List NormalizedJob,
    (jobs.filterMap (w.rowOf db)).map Prod.fst
      = (jobs.filter (w.contractValid db)).map (w.keyOf db)
  | [] => rfl
  | job :: jobs => by
    cases hp : w.payloadOf db job with
    | error exc =>
      have hrow : w.rowOf db job = none := by simp [rowOf, hp]
      have hvalid : ¬ w.contractValid db job = true := by simp [contractValid, hp]
      rw [List.filterMap_cons_none hrow, List.filter_cons_of_neg hvalid, map_fst_rowOf db jobs]
    | ok payload =>
      have hrow : w.rowOf db job = some (w.keyOf db job, payload) := by simp [rowOf, hp]
      have hvalid : w.contractValid db job = true := by simp [contractValid, hp]
      rw [List.filterMap_cons_some hrow, List.filter_cons_of_pos hvalid, List.map_cons,
        List.map_cons, map_fst_rowOf db jobs]

theorem length_rowOf (db : JobTables) (jobs : List NormalizedJob) :
    (jobs.filterMap (w.rowOf db)).length + jobs.countP (fun job => !w.contractValid db job)
      = jobs.length := by
  have hlen := congrArg List.length (w.map_fst_rowOf db jobs)
  rw [List.length_map, List.length_map, ← List.countP_eq_length_filter] at hlen
  rw [hlen]
  exact (List.length_eq_countP_add_countP (w.contractValid db)).symm ▸ by
    simp [Bool.not_eq_true]

/-! ### The post -/

/-- The backend acknowledged the post. -/
def acknowledged (answer : Except BackendSyncError BackendSyncResult) : Bool :=
  match answer with
  | .ok _ => true
  | .error _ => false

/-- The failed post may be repeated. -/
def retryableAnswer (answer : Except BackendSyncError BackendSyncResult) : Bool :=
  match answer with
  | .ok _ => false
  | .error (.client exc) => exc.statusCode = some 404
  | .error (.server _) => true

/-- How the answer moves the mark of a posted payload. -/
def answerMark (answer : Except BackendSyncError BackendSyncResult) (m : Mark) : Mark :=
  match answer with
  | .ok _ => m.succeed
  | .error (.client exc) => m.fail (w.failureMaxAttempts exc)
  | .error (.server _) => m.fail w.maxAttempts

/-- What an answer does to one reference. -/
def recordOne (answer : Except BackendSyncError BackendSyncResult) :
    SyncState → EventKey → SyncState :=
  match answer with
  | .ok result => recordSuccess w.host ⟨result.responseSummary⟩
  | .error (.client exc) => recordFailure w.host (clientFailure exc) (w.failureMaxAttempts exc)
  | .error (.server exc) => recordFailure w.host (serverFailure exc) w.maxAttempts

theorem recordOne_touches (answer : Except BackendSyncError BackendSyncResult) :
    Touches (fun (s : SyncState) k => ledger s.events k) id (w.recordOne answer)
      (fun _ => Option.map (w.answerMark answer)) := by
  rcases answer with (exc | exc) | result
  · exact ⟨fun s k => ledger_recordFailure w.host s _ _ k,
      fun s k _ h => ledger_recordFailure_of_ne w.host s _ _ h⟩
  · exact ⟨fun s k => ledger_recordFailure w.host s _ _ k,
      fun s k _ h => ledger_recordFailure_of_ne w.host s _ _ h⟩
  · exact ⟨fun s k => ledger_recordSuccess w.host s _ k,
      fun s k _ h => ledger_recordSuccess_of_ne w.host s _ h⟩

theorem outline_recordOne (answer : Except BackendSyncError BackendSyncResult) (s : SyncState)
    (key : EventKey) : (w.recordOne answer s key).outline = s.outline := by
  rcases answer with (exc | exc) | result <;> exact outline_record ..

/-- The state `recordAnswer` leaves: one record for each posted row. -/
theorem recordAnswer_snd (prepared : Prepared)
    (answer : Except BackendSyncError BackendSyncResult) (s : SyncState) :
    (w.recordAnswer prepared answer s).2
      = (prepared.rows.map Prod.fst).foldl (w.recordOne answer) s := by
  rcases answer with (exc | exc) | result <;> rfl

theorem recordAnswer_fst (prepared : Prepared)
    (answer : Except BackendSyncError BackendSyncResult) (s : SyncState) :
    let r := (w.recordAnswer prepared answer s).1
    r.sent = (if acknowledged answer then prepared.rows.length else 0) ∧
      r.sent + r.failed = prepared.rows.length + prepared.failed ∧
      r.retryableFailure = retryableAnswer answer := by
  rcases answer with (exc | exc) | result <;>
    simp [recordAnswer, acknowledged, retryableAnswer, Nat.add_comm]

/-! ### The chunk -/

/-- The mark of a job's event after an attempt on its chunk. -/
def chunkMark (db : JobTables) (answer : Except BackendSyncError BackendSyncResult)
    (job : NormalizedJob) (o : Option Mark) : Option Mark :=
  some (if w.contractValid db job then w.answerMark answer (o.getD Mark.fresh)
    else (o.getD Mark.fresh).fail 1)

/-- What an attempt on a chunk did, given how its post was answered. -/
structure ChunkOutcome (db : JobTables) (jobs : List NormalizedJob) (s : SyncState)
    (answer : Except BackendSyncError BackendSyncResult) (r : ChunkSyncResult) (s' : SyncState) :
    Prop where
  sent : r.sent = if acknowledged answer then (jobs.filterMap (w.rowOf db)).length else 0
  counted : r.sent + r.failed = jobs.length
  retryable : r.retryableFailure
    = (!(jobs.filterMap (w.rowOf db)).isEmpty && retryableAnswer answer)
  marks : ∀ job ∈ jobs, ledger s'.events (w.keyOf db job)
    = w.chunkMark db answer job (ledger s.events (w.keyOf db job))
  frame : ∀ k, k ∉ jobs.map (w.keyOf db) → ledger s'.events k = ledger s.events k
  posts_eq : posts s'.journal = posts s.journal
    ++ if (jobs.filterMap (w.rowOf db)).isEmpty then []
      else [(jobs.filterMap (w.rowOf db), answer)]
  settlements_eq : settlements s'.journal = settlements s.journal

/-- The state after the preparing loop of an attempt. -/
def preparedState (db : JobTables) (runId : Option String) (jobs : List NormalizedJob)
    (s : SyncState) : SyncState :=
  jobs.foldl (fun s job => (w.prepareJob db runId job s).2) (s.log (.attempted db jobs s.events))

theorem preparedState_marks (db : JobTables) (runId : Option String) {jobs : List NormalizedJob}
    (s : SyncState) (hnodup : (jobs.map NormalizedJob.id).Nodup) {job : NormalizedJob}
    (hjob : job ∈ jobs) : ledger (w.preparedState db runId jobs s).events (w.keyOf db job)
      = w.prepareMark db job (ledger s.events (w.keyOf db job)) :=
  (w.prepareJob_touches db runId).foldl_of_mem jobs _ job (w.nodup_keyOf hnodup) hjob

theorem preparedState_frame (db : JobTables) (runId : Option String) {jobs : List NormalizedJob}
    (s : SyncState) {k : EventKey} (hk : k ∉ jobs.map (w.keyOf db)) :
    ledger (w.preparedState db runId jobs s).events k = ledger s.events k :=
  (w.prepareJob_touches db runId).foldl_of_not_mem jobs _ k hk

theorem preparedState_outline (db : JobTables) (runId : Option String) (jobs : List NormalizedJob)
    (s : SyncState) : (w.preparedState db runId jobs s).outline = s.outline := by
  unfold preparedState
  rw [foldl_unchanged (w.outline_prepareJob db runId)]
  simp [SyncState.outline, SyncState.log, posts, settlements]

/-- The state at the moment of the post. -/
def postState (chunkId : String) (rows : List (EventKey × Json)) (s : SyncState) : SyncState :=
  (rows.map Prod.fst).foldl
    (attachChunkMetadata chunkId (w.hash.digest (.dict [("jobs", .list (rows.map Prod.snd))]))
      (rows.map Prod.snd).length) s

theorem postState_ledger (chunkId : String) (rows : List (EventKey × Json)) (s : SyncState) :
    ledger (w.postState chunkId rows s).events = ledger s.events :=
  foldl_unchanged (f := fun s : SyncState => ledger s.events)
    (fun s key => ledger_attachChunkMetadata s _ _ _ key) _ s

theorem postState_outline (chunkId : String) (rows : List (EventKey × Json)) (s : SyncState) :
    (w.postState chunkId rows s).outline = s.outline :=
  foldl_unchanged (f := SyncState.outline)
    (fun s key => outline_attachChunkMetadata s _ _ _ key) _ s

/-- The answer the post of a chunk gets. -/
def chunkAnswer (chunkId : String) (rows : List (EventKey × Json)) (s : SyncState) :
    Except BackendSyncError BackendSyncResult :=
  w.client (w.postState chunkId rows s).ticks (rows.map Prod.snd)

/-- The state after the post has been journaled. -/
def postedState (chunkId : String) (rows : List (EventKey × Json)) (s : SyncState) : SyncState :=
  { (w.postState chunkId rows s).log (.posted rows (w.postState chunkId rows s).events
      (w.chunkAnswer chunkId rows s)) with
    ticks := (w.postState chunkId rows s).ticks + 1 }

theorem postedState_outline (chunkId : String) (rows : List (EventKey × Json)) (s : SyncState) :
    (w.postedState chunkId rows s).outline
      = (s.outline.1 ++ [(rows, w.chunkAnswer chunkId rows s)], s.outline.2) := by
  rw [← w.postState_outline chunkId rows s]
  unfold SyncState.outline postedState SyncState.log
  rw [posts_append, settlements_append]
  simp [posts, settlements]

/-- `syncChunk` as its three stages. -/
theorem syncChunk_eq (db : JobTables) (runId : Option String) (chunkId : String)
    {jobs : List NormalizedJob} (s : SyncState) (hne : jobs ≠ []) :
    w.syncChunk db runId chunkId jobs s =
      if (jobs.filterMap (w.rowOf db)).isEmpty then
        ({ sent := 0, failed := jobs.countP fun job => !w.contractValid db job,
           statusClass := "contract" }, w.preparedState db runId jobs s)
      else
        w.recordAnswer
          { failed := jobs.countP fun job => !w.contractValid db job,
            rows := jobs.filterMap (w.rowOf db) }
          (w.chunkAnswer chunkId (jobs.filterMap (w.rowOf db)) (w.preparedState db runId jobs s))
          (w.postedState chunkId (jobs.filterMap (w.rowOf db))
            (w.preparedState db runId jobs s)) := by
  have hprep : w.prepareJobs db runId jobs {} (s.log (.attempted db jobs s.events))
      = ({ failed := jobs.countP fun job => !w.contractValid db job,
           rows := jobs.filterMap (w.rowOf db) }, w.preparedState db runId jobs s) := by
    rw [w.prepareJobs_eq db runId jobs]
    simp [preparedState]
  unfold syncChunk
  rw [if_neg (by simpa using hne), hprep]
  rfl

/-- `syncChunk` on jobs with distinct ids. -/
theorem syncChunk_outcome (db : JobTables) (runId : Option String) (chunkId : String)
    {jobs : List NormalizedJob} (s : SyncState) (hne : jobs ≠ [])
    (hnodup : (jobs.map NormalizedJob.id).Nodup) :
    ∃ tick, w.ChunkOutcome db jobs s
      (w.client tick ((jobs.filterMap (w.rowOf db)).map Prod.snd))
      (w.syncChunk db runId chunkId jobs s).1 (w.syncChunk db runId chunkId jobs s).2 := by
  have hout := w.preparedState_outline db runId jobs s
  have hlen := w.length_rowOf db jobs
  have hrows := w.map_fst_rowOf db jobs
  rw [w.syncChunk_eq db runId chunkId s hne]
  by_cases hempty : (jobs.filterMap (w.rowOf db)).isEmpty = true
  · -- nothing is valid: no post, whatever the backend would say
    have hinvalid : ∀ job ∈ jobs, w.contractValid db job = false := by
      rw [List.isEmpty_iff.mp hempty, List.map_nil, eq_comm, List.map_eq_nil_iff,
        List.filter_eq_nil_iff] at hrows
      exact fun job hjob => by simpa using hrows job hjob
    rw [if_pos hempty]
    rw [List.isEmpty_iff] at hempty
    simp only [hempty, List.length_nil, Nat.zero_add] at hlen
    refine ⟨0, ?_, ?_, ?_, fun job hjob => ?_, fun k hk => w.preparedState_frame db runId s hk, ?_, ?_⟩
    · simp [hempty]
    · simpa using hlen
    · simp [hempty]
    · rw [w.preparedState_marks db runId s hnodup hjob]
      simp [prepareMark, chunkMark, hinvalid job hjob]
    · have hposts : posts (w.preparedState db runId jobs s).journal = posts s.journal :=
        congrArg Prod.fst hout
      simpa [hempty] using hposts
    · exact congrArg Prod.snd hout
  · rw [if_neg hempty]
    set rows := jobs.filterMap (w.rowOf db) with hrowsdef
    set s₁ := w.preparedState db runId jobs s with hs₁
    set answer := w.chunkAnswer chunkId rows s₁ with hanswer
    have hled : ledger (w.postedState chunkId rows s₁).events = ledger s₁.events :=
      w.postState_ledger chunkId rows s₁
    have hposted := w.postedState_outline chunkId rows s₁
    have hkeys : ((rows.map Prod.fst).map id).Nodup := by
      rw [List.map_id, hrows]
      exact (w.nodup_keyOf hnodup).sublist (List.filter_sublist.map _)
    obtain ⟨hsent, hcount, hretry⟩ := w.recordAnswer_fst
      { failed := jobs.countP fun job => !w.contractValid db job, rows := rows } answer
      (w.postedState chunkId rows s₁)
    have hfinal : (w.recordAnswer
        { failed := jobs.countP fun job => !w.contractValid db job, rows := rows } answer
        (w.postedState chunkId rows s₁)).2.outline = (w.postedState chunkId rows s₁).outline := by
      rw [recordAnswer_snd]
      exact foldl_unchanged (w.outline_recordOne answer) _ _
    refine ⟨(w.postState chunkId rows s₁).ticks, hsent, hcount.trans hlen, ?_, fun job hjob => ?_,
      fun k hk => ?_, ?_, ?_⟩
    · rw [hretry, Bool.eq_false_iff.mpr hempty]
      rfl
    · rw [recordAnswer_snd]
      have hmark := w.preparedState_marks db runId s hnodup hjob
      by_cases hvalid : w.contractValid db job = true
      · have hmem : w.keyOf db job ∈ rows.map Prod.fst := by
          rw [hrows]
          exact List.mem_map_of_mem (List.mem_filter.mpr ⟨hjob, hvalid⟩)
        have hrec := (w.recordOne_touches answer).foldl_of_mem _
          (w.postedState chunkId rows s₁) _ hkeys hmem
        simp only [id] at hrec
        rw [hrec, hled, hmark]
        simp [prepareMark, chunkMark, hvalid, hanswer, chunkAnswer]
      · have hmem : w.keyOf db job ∉ (rows.map Prod.fst).map id := by
          rw [List.map_id, hrows]
          intro hmem
          obtain ⟨job', hjob', hkey⟩ := List.mem_map.mp hmem
          rw [List.mem_filter] at hjob'
          have hid : job'.id = job.id := congrArg EventKey.normalizedJobId hkey
          have heq := List.inj_on_of_nodup_map hnodup hjob'.1 hjob hid
          exact hvalid (heq ▸ hjob'.2)
        rw [(w.recordOne_touches answer).foldl_of_not_mem _ (w.postedState chunkId rows s₁) _ hmem,
          hled, hmark]
        simp [prepareMark, chunkMark, hvalid]
    · have hmem : k ∉ (rows.map Prod.fst).map id := by
        rw [List.map_id, hrows]
        intro hmem
        exact hk (List.map_subset _ (List.filter_subset_self _) hmem)
      rw [recordAnswer_snd,
        (w.recordOne_touches answer).foldl_of_not_mem _ (w.postedState chunkId rows s₁) _ hmem,
        hled]
      exact w.preparedState_frame db runId s hk
    · have h := congrArg Prod.fst (hfinal.trans hposted)
      rw [hout] at h
      rw [if_neg hempty]
      exact h
    · have h := congrArg Prod.snd (hfinal.trans hposted)
      rw [hout] at h
      exact h

/-- The state one turn of the inner loop leaves, up to the clock. -/
theorem attemptOnce_snd (db : JobTables) (p : SyncParams) (chunkIndex : ℕ)
    {jobs : List NormalizedJob} {s : SyncState} (hne : jobs ≠ []) :
    (w.attemptOnce db p chunkIndex jobs s).2 =
      if (jobs.filterMap (w.rowOf db)).isEmpty then
        { w.preparedState db p.scrapeRunId jobs s with
          ticks := (w.preparedState db p.scrapeRunId jobs s).ticks + 1 }
      else
        let posted := w.postedState (p.chunkId chunkIndex) (jobs.filterMap (w.rowOf db))
          (w.preparedState db p.scrapeRunId jobs s)
        let recorded := ((jobs.filterMap (w.rowOf db)).map Prod.fst).foldl
          (w.recordOne (w.chunkAnswer (p.chunkId chunkIndex) (jobs.filterMap (w.rowOf db))
            (w.preparedState db p.scrapeRunId jobs s))) posted
        { recorded with ticks := recorded.ticks + 1 } := by
  unfold attemptOnce
  rw [w.syncChunk_eq db _ _ s hne]
  split
  · rfl
  · dsimp only
    rw [recordAnswer_snd]

/-- An attempt is journaled before anything it does. -/
theorem attemptOnce_journal (db : JobTables) (p : SyncParams) (chunkIndex : ℕ)
    {jobs : List NormalizedJob} (s : SyncState) (hne : jobs ≠ []) :
    s.journal ++ [.attempted db jobs s.events]
      <+: (w.attemptOnce db p chunkIndex jobs s).2.journal := by
  have hprepare : ∀ (s : SyncState) (job : NormalizedJob),
      s.journal <+: (w.prepareJob db p.scrapeRunId job s).2.journal := by
    intro s job
    unfold prepareJob
    split
    · exact (journal_prepareEvent ..).trans (journal_record ..)
    · exact journal_prepareEvent ..
  have hrecord : ∀ answer (s : SyncState) (key : EventKey),
      s.journal <+: (w.recordOne answer s key).journal := by
    rintro ((exc | exc) | result) s key <;> exact journal_record ..
  have hprepared : s.journal ++ [.attempted db jobs s.events]
      <+: (w.preparedState db p.scrapeRunId jobs s).journal :=
    foldl_rel (R := fun s s' : SyncState => s.journal <+: s'.journal) (fun _ => List.prefix_rfl)
      (fun _ _ _ => List.IsPrefix.trans) hprepare jobs (s.log (.attempted db jobs s.events))
  rw [w.attemptOnce_snd db p chunkIndex hne]
  split
  · exact hprepared
  · refine (hprepared.trans ?_).trans
      (foldl_rel (R := fun s s' : SyncState => s.journal <+: s'.journal)
        (fun _ => List.prefix_rfl) (fun _ _ _ => List.IsPrefix.trans) (hrecord _) _ _)
    have hpost : (w.postState (p.chunkId chunkIndex) (jobs.filterMap (w.rowOf db))
        (w.preparedState db p.scrapeRunId jobs s)).journal
          = (w.preparedState db p.scrapeRunId jobs s).journal :=
      foldl_unchanged (f := SyncState.journal)
        (fun s key => journal_attachChunkMetadata s _ _ _ key) _ _
    simp [postedState, SyncState.log, hpost]

/-- One turn of the inner loop on jobs with distinct ids. -/
theorem attemptOnce_outcome (db : JobTables) (p : SyncParams) (chunkIndex : ℕ)
    {jobs : List NormalizedJob} (s : SyncState) (hne : jobs ≠ [])
    (hnodup : (jobs.map NormalizedJob.id).Nodup) :
    ∃ tick, w.ChunkOutcome db jobs s
      (w.client tick ((jobs.filterMap (w.rowOf db)).map Prod.snd))
      (w.attemptOnce db p chunkIndex jobs s).1 (w.attemptOnce db p chunkIndex jobs s).2 := by
  obtain ⟨tick, h⟩ :=
    w.syncChunk_outcome db p.scrapeRunId (p.chunkId chunkIndex) s hne hnodup
  exact ⟨tick, h.sent, h.counted, h.retryable, h.marks, h.frame, h.posts_eq, h.settlements_eq⟩

end BackendSyncWorker

end Bisakerja
