import BisakerjaScraper.Notifications.Candidates
import BisakerjaScraper.Persistence.References
import BisakerjaScraper.Sync.Loop

/-! What the events of the two delivery stages refer to.

    A sync run adds events for the jobs it lists and rewrites the events that are there, but never
    what identifies them. So an event keeps its id and key for good, and names a normalized row by its
    id, its source platform and its external id.

    A handoff event is made for a sent sync event and its job, and takes both ids anew each time it
    is prepared. Where the sync events name normalized rows, it names a sync event and that event's
    normalized row, and the call of the worker never misses a job. -/

namespace Bisakerja
open Schemes Schemes.Delivery

/-! ### Sync events -/

namespace SyncEvent

/-- What a run may not touch of an event. -/
def stamp (event : SyncEvent) : String × EventKey × String × String :=
  (event.id, event.key, event.sourcePlatform, event.externalId)

/-- The normalized row an event names. -/
def jobStamp (event : SyncEvent) : String × String × String :=
  (event.normalizedJobId, event.sourcePlatform, event.externalId)

/-- The event names a normalized row that is there. -/
def RefersTo (jobs : NormalizedJobs) (event : SyncEvent) : Prop :=
  event.jobStamp ∈ jobs.stamps NormalizedJob.stamp

theorem jobStamp_of_stamp {event event' : SyncEvent} (h : event'.stamp = event.stamp) :
    event'.jobStamp = event.jobStamp := by
  obtain ⟨-, hkey, hplatform, hexternal⟩ : event'.id = event.id ∧ event'.key = event.key ∧
      event'.sourcePlatform = event.sourcePlatform ∧ event'.externalId = event.externalId := by
    simpa [stamp] using h
  have hjob : event'.normalizedJobId = event.normalizedJobId :=
    congrArg EventKey.normalizedJobId hkey
  rw [jobStamp, jobStamp, hjob, hplatform, hexternal]

end SyncEvent

/-- A condition on the events that a run on some job tables keeps. -/
structure KeptBySync (db : JobTables) (I : SyncEvents → Prop) : Prop where
  inserted : ∀ (events : SyncEvents) (event : SyncEvent), event.RefersTo db.normalizedJobs →
    I events → I (events.insert event)
  modified : ∀ (events : SyncEvents) (key : EventKey) (f : SyncEvent → SyncEvent)
    (hf : ∀ event, (f event).key = event.key), (∀ event, (f event).stamp = event.stamp) →
    I events → I (events.modify key f hf)

namespace KeptBySync

variable {w : BackendSyncWorker} {db : JobTables} {I : SyncEvents → Prop} {s : SyncState}
  (hI : KeptBySync db I)
include hI

theorem prepareEvent {job : NormalizedJob} (hjob : job ∈ db.normalizedJobs.rows)
    (runId payloadHash : Option String) (hs : I s.events) :
    I (Bisakerja.prepareEvent w.host w.hash job runId payloadHash s).2.events := by
  unfold Bisakerja.prepareEvent
  dsimp only
  split
  · exact hI.modified _ _ _ (SyncEvent.rescope_key _ _) (fun _ => rfl) hs
  · exact hI.inserted _ _ (Table.stamp_mem hjob) hs

theorem record (key : EventKey) {f : SyncEvent → SyncEvent}
    (hf : ∀ event, (f event).key = event.key) (hstamp : ∀ event, (f event).stamp = event.stamp)
    (ticks : ℕ) (hs : I s.events) : I (s.record key f hf ticks).events := by
  unfold SyncState.record
  split
  · exact hI.modified _ _ _ hf hstamp hs
  · exact hs

theorem recordFailure (failure : SyncFailure) (maxAttempts : ℕ) (key : EventKey) (hs : I s.events) :
    I (Bisakerja.recordFailure w.host failure maxAttempts s key).events :=
  hI.record key (SyncEvent.fail_key failure maxAttempts _ _) (fun _ => rfl) 2 hs

theorem prepareJob {job : NormalizedJob} (hjob : job ∈ db.normalizedJobs.rows)
    (runId : Option String) (hs : I s.events) : I (w.prepareJob db runId job s).2.events := by
  unfold BackendSyncWorker.prepareJob
  split
  · exact hI.recordFailure _ _ _ (hI.prepareEvent hjob runId none hs)
  · exact hI.prepareEvent hjob runId _ hs

theorem preparedState {jobs : List NormalizedJob} (hjobs : ∀ job ∈ jobs, job ∈ db.normalizedJobs.rows)
    (runId : Option String) (hs : I s.events) : I (w.preparedState db runId jobs s).events := by
  unfold BackendSyncWorker.preparedState
  suffices h : ∀ t : SyncState, I t.events →
      I (jobs.foldl (fun s job => (w.prepareJob db runId job s).2) t).events from h _ hs
  induction jobs with
  | nil => exact fun _ ht => ht
  | cons job rest ih =>
    intro t ht
    exact ih (fun other hother => hjobs other (List.mem_cons_of_mem job hother)) _
      (hI.prepareJob (hjobs job List.mem_cons_self) runId ht)

theorem postState (chunkId : String) (rows : List (EventKey × Json)) (hs : I s.events) :
    I (w.postState chunkId rows s).events := by
  unfold BackendSyncWorker.postState
  generalize rows.map Prod.fst = keys
  induction keys generalizing s with
  | nil => exact hs
  | cons key rest ih => exact ih (hI.modified _ _ _ (SyncEvent.attach_key _ _ _) (fun _ => rfl) hs)

theorem recordOne (answer : Except BackendSyncError BackendSyncResult) (key : EventKey)
    (hs : I s.events) : I (w.recordOne answer s key).events := by
  rcases answer with (exc | exc) | result
  · exact hI.recordFailure _ _ key hs
  · exact hI.recordFailure _ _ key hs
  · exact hI.record key (SyncEvent.succeed_key _ _) (fun _ => rfl) 1 hs

theorem recordAll (answer : Except BackendSyncError BackendSyncResult) (keys : List EventKey)
    (hs : I s.events) : I (keys.foldl (w.recordOne answer) s).events := by
  induction keys generalizing s with
  | nil => exact hs
  | cons key rest ih => exact ih (hI.recordOne answer key hs)

/-- One turn of the inner loop. -/
theorem attemptOnce (p : SyncParams) (chunkIndex : ℕ) {jobs : List NormalizedJob}
    (hjobs : ∀ job ∈ jobs, job ∈ db.normalizedJobs.rows) (hne : jobs ≠ []) (hs : I s.events) :
    I (w.attemptOnce db p chunkIndex jobs s).2.events := by
  have hprepared := hI.preparedState (w := w) hjobs p.scrapeRunId hs
  rw [w.attemptOnce_snd db p chunkIndex hne]
  split
  · exact hprepared
  · exact hI.recordAll _ _ (hI.postState _ _ hprepared)

/-- Both loops, over jobs that are there. -/
theorem loop (p : SyncParams) : w.LoopInvariant db p fun rest _ s =>
    (∀ job ∈ rest, job ∈ db.normalizedJobs.rows) ∧ I s.events where
  retry rest g g' s chunkIndex hrest hpos _ hinv _ _ _ _ :=
    ⟨hinv.1, hI.attemptOnce p chunkIndex (fun job hjob => hinv.1 job (List.mem_of_mem_take hjob))
      (fun h => (List.take_eq_nil_iff.mp h).elim (by omega) hrest) hinv.2⟩
  settle rest g g' s chunkIndex r hrest hpos _ hinv _ _ _ _ _ :=
    ⟨fun job hjob => hinv.1 job (List.mem_of_mem_drop hjob),
      hI.attemptOnce p chunkIndex (fun job hjob => hinv.1 job (List.mem_of_mem_take hjob))
        (fun h => (List.take_eq_nil_iff.mp h).elim (by omega) hrest) hinv.2⟩

end KeptBySync

namespace BackendSyncWorker

variable {w : BackendSyncWorker} {run : SyncRun} {s : SyncState}

/-- The candidates of a run are rows of its tables. -/
theorem mem_rows_of_candidate {db : JobTables} {p : SyncParams} {events : SyncEvents}
    {job : NormalizedJob} (h : job ∈ w.listBackendPayloadCandidates db p events) :
    job ∈ db.normalizedJobs.rows := by
  have hmem := (collectUpTo_sublist (w.isCandidate db events) p.limit _).subset h
  exact (mem_listEligibleJobs.mp (List.mem_filter.mp hmem).1).1

/-- A whole run, whether it refuses its arguments or not. -/
theorem keeps_runOnce {I : SyncEvents → Prop} (hI : KeptBySync run.db I) (hs : I s.events) :
    I (w.runOnce s run).events := by
  rcases w.runOnce_cases s run (hI.loop (w := w) run.params) fun _ _ _ _ =>
    ⟨fun job hjob => mem_rows_of_candidate hjob, hs⟩ with heq | ⟨g, hend⟩
  · rw [heq]
    exact hs
  · exact hend.2

end BackendSyncWorker

/-- The events name rows that are there. -/
theorem keptBySync_refersTo (db : JobTables) :
    KeptBySync db fun events => events.All (SyncEvent.RefersTo db.normalizedJobs) where
  inserted _ _ hevent hs := Table.all_insert hs hevent
  modified _ _ _ hf hstamp hs := Table.all_modify hs hf fun event _ _ hevent => by
    unfold SyncEvent.RefersTo
    rw [SyncEvent.jobStamp_of_stamp (hstamp event)]
    exact hevent

/-- The events only grow. -/
theorem keptBySync_grows (db : JobTables) (start : SyncEvents) :
    KeptBySync db fun events => start.Grows SyncEvent.stamp events where
  inserted _ _ _ hs := hs.trans (Table.grows_insert _ _ _)
  modified _ _ _ hf hstamp hs := hs.trans (Table.grows_modify _ _ _ hf hstamp)

/-! ### Handoff events -/

namespace NotificationHandoffEvent

/-- What a run may not touch of an event. -/
def stamp (event : NotificationHandoffEvent) : String × HandoffKey := (event.id, event.key)

/-- The normalized row an event names. -/
def jobStamp (event : NotificationHandoffEvent) : String × String × String :=
  (event.normalizedJobId, event.sourcePlatform, event.externalId)

/-- The sync event an event names, with its job. -/
def syncStamp (event : NotificationHandoffEvent) : String × String :=
  (event.syncEventId, event.normalizedJobId)

/-- The event names a normalized row and a sync event of that row. -/
structure RefersTo (jobs : NormalizedJobs) (syncEvents : SyncEvents)
    (event : NotificationHandoffEvent) : Prop where
  job : event.jobStamp ∈ jobs.stamps NormalizedJob.stamp
  syncEvent : event.syncStamp
    ∈ syncEvents.stamps fun syncEvent => (syncEvent.id, syncEvent.normalizedJobId)

end NotificationHandoffEvent

/-- The job that is found for a sync event is the one it names. -/
theorem SyncEvent.RefersTo.of_find {jobs : NormalizedJobs} {event : SyncEvent} {job : NormalizedJob}
    (h : event.RefersTo jobs) (hfind : jobs.find? event.normalizedJobId = some job) :
    job.stamp = event.jobStamp := by
  obtain ⟨named, hnamed, hstamp⟩ := Table.mem_stamps.mp h
  have hid : named.id = event.normalizedJobId := congrArg Prod.fst hstamp
  have hsame : named = job := by
    rw [← hid, Table.find?_of_mem hnamed] at hfind
    exact Option.some.inj hfind
  rw [← hsame]
  exact hstamp

/-- The job of a sync event is found. -/
theorem SyncEvent.RefersTo.isSome {jobs : NormalizedJobs} {event : SyncEvent}
    (h : event.RefersTo jobs) : (jobs.find? event.normalizedJobId).isSome = true := by
  obtain ⟨named, hnamed, hstamp⟩ := Table.mem_stamps.mp h
  have hid : named.id = event.normalizedJobId := congrArg Prod.fst hstamp
  rw [← hid, Table.find?_of_mem hnamed]
  rfl

/-- The events name what is there, and have only grown since `start`. -/
structure HandoffsHold (jobs : NormalizedJobs) (syncEvents : SyncEvents) (start : HandoffEvents)
    (s : HandoffState) : Prop where
  refers : s.events.All (NotificationHandoffEvent.RefersTo jobs syncEvents)
  grows : start.Grows NotificationHandoffEvent.stamp s.events

namespace HandoffsHold

variable {w : RecommendationHandoffWorker} {jobs : NormalizedJobs} {syncEvents : SyncEvents}
  {start : HandoffEvents} {s : HandoffState}

/-- Preparing an event makes it name its sync event and the job of that. -/
theorem prepareFound (h : HandoffsHold jobs syncEvents start s) {syncEvent : SyncEvent}
    (hmem : syncEvent ∈ syncEvents.rows) (hrefers : syncEvent.RefersTo jobs) {job : NormalizedJob}
    (hjob : jobs.find? syncEvent.normalizedJobId = some job) (runId : String) (payload : Dict) :
    HandoffsHold jobs syncEvents start
      (w.prepareFound (handoffKey runId syncEvent) syncEvent job payload s) := by
  have hstamp := hrefers.of_find hjob
  have hid : job.id = syncEvent.normalizedJobId := congrArg Prod.fst hstamp
  have hsync : (syncEvent.id, job.id)
      ∈ syncEvents.stamps fun syncEvent => (syncEvent.id, syncEvent.normalizedJobId) := by
    rw [hid]
    exact Table.mem_stamps.mpr ⟨syncEvent, hmem, rfl⟩
  have hnamed : (job.id, syncEvent.sourcePlatform, syncEvent.externalId)
      ∈ jobs.stamps NormalizedJob.stamp := by
    rw [hid]
    exact hrefers
  unfold RecommendationHandoffWorker.prepareFound
  split
  · have hkeys : ∀ event : NotificationHandoffEvent, (event.refresh syncEvent.id job.id
        (w.hash.digest (.dict payload)) payload (w.host.utcNow s.ticks)).key = event.key :=
      fun _ => rfl
    refine ⟨Table.all_modify h.refers hkeys fun event _ hkey _ => ⟨?_, hsync⟩,
      h.grows.trans (Table.grows_modify _ _ _ hkeys fun _ => rfl)⟩
    have hplatform : event.sourcePlatform = syncEvent.sourcePlatform :=
      congrArg HandoffKey.sourcePlatform hkey
    have hexternal : event.externalId = syncEvent.externalId := congrArg HandoffKey.externalId hkey
    change (job.id, event.sourcePlatform, event.externalId) ∈ _
    rw [hplatform, hexternal]
    exact hnamed
  · exact ⟨Table.all_insert h.refers ⟨hnamed, hsync⟩, h.grows.trans (Table.grows_insert _ _ _)⟩

theorem prepareEvent {syncEvent : SyncEvent} (hmem : syncEvent ∈ syncEvents.rows)
    (hrefers : syncEvent.RefersTo jobs) :
    Keeps (HandoffsHold jobs syncEvents start) (w.prepareEvent jobs syncEvent) := by
  unfold RecommendationHandoffWorker.prepareEvent
  split
  · exact .raise _
  · next runId _ =>
    split
    · exact .raise _
    · next job hjob => exact .update fun s hs => hs.prepareFound hmem hrefers hjob runId _

theorem prepareEvents {selected : List SyncEvent} (hmem : ∀ e ∈ selected, e ∈ syncEvents.rows)
    (hrefers : ∀ e ∈ selected, e.RefersTo jobs) :
    Keeps (HandoffsHold jobs syncEvents start) (w.prepareEvents jobs selected) := by
  induction selected with
  | nil => exact .pure _
  | cons syncEvent rest ih =>
    exact (prepareEvent (hmem _ List.mem_cons_self) (hrefers _ List.mem_cons_self)).bind fun _ =>
      (ih (fun e he => hmem e (List.mem_cons_of_mem _ he))
        fun e he => hrefers e (List.mem_cons_of_mem _ he)).bind fun _ => .pure _

/-- An answer touches nothing an event is identified or refers by. -/
theorem recordAnswer (h : HandoffsHold jobs syncEvents start s)
    (answer : Except HandoffException HandoffSuccess) (key : HandoffKey) :
    HandoffsHold jobs syncEvents start (w.recordAnswer answer s key) := by
  have hrecord : ∀ (f : NotificationHandoffEvent → NotificationHandoffEvent)
      (hf : ∀ event, (f event).key = event.key) (ticks : ℕ),
      (∀ event, (f event).stamp = event.stamp ∧ (f event).jobStamp = event.jobStamp ∧
        (f event).syncStamp = event.syncStamp) →
      HandoffsHold jobs syncEvents start (s.record key f hf ticks) := by
    intro f hf ticks hsame
    unfold HandoffState.record
    split
    · refine ⟨Table.all_modify h.refers hf fun event _ _ hevent => ?_,
        h.grows.trans (Table.grows_modify _ _ _ hf fun event => (hsame event).1)⟩
      obtain ⟨-, hjob, hsync⟩ := hsame event
      exact ⟨hjob ▸ hevent.job, hsync ▸ hevent.syncEvent⟩
    · exact h
  cases answer with
  | ok result =>
    exact hrecord (·.succeed result (w.host.utcNow s.ticks)) (fun _ => rfl) 1
      fun _ => ⟨rfl, rfl, rfl⟩
  | error exc =>
    exact hrecord (·.fail ⟨exc.className, exc.message, exc.responseSummary⟩ w.maxAttempts
      (w.host.utcNow s.ticks) (w.host.utcNow (s.ticks + 1))) (fun _ => rfl) 2
        fun _ => ⟨rfl, rfl, rfl⟩

theorem sendChunk (h : HandoffsHold jobs syncEvents start s) (runId : String)
    (keys : List HandoffKey) : HandoffsHold jobs syncEvents start (w.sendChunk runId keys s) := by
  unfold RecommendationHandoffWorker.sendChunk
  generalize w.chunkAnswer runId keys s = answer
  have hposted : HandoffsHold jobs syncEvents start
      (RecommendationHandoffWorker.posted keys s) := ⟨h.refers, h.grows⟩
  suffices hall : ∀ (rest : List HandoffKey) (t : HandoffState), HandoffsHold jobs syncEvents start t →
      HandoffsHold jobs syncEvents start (rest.foldl (w.recordAnswer answer) t) from hall keys _ hposted
  intro rest
  induction rest with
  | nil => exact fun _ ht => ht
  | cons key rest ih => exact fun t ht => ih _ (ht.recordAnswer answer key)

theorem sendChunks (runId : String) (chunks : List (List HandoffKey)) (result : HandoffWorkerResult)
    (h : HandoffsHold jobs syncEvents start s) :
    HandoffsHold jobs syncEvents start (w.sendChunks runId chunks result s).2 := by
  induction chunks generalizing result s with
  | nil => exact h
  | cons keys rest ih => exact ih _ (h.sendChunk runId keys)

end HandoffsHold

namespace HandoffRun

variable {run : HandoffRun} {s : HandoffState} {start : HandoffEvents}

theorem mem_of_selected {syncEvent : SyncEvent} (h : syncEvent ∈ run.selected) :
    syncEvent ∈ run.syncEvents.rows :=
  (List.mem_filter.mp ((List.mem_insertionSort _).mp h)).1

/-- A call on sync events that name normalized rows, whether it raises or not. -/
theorem holds_next (hrefers : run.syncEvents.All (SyncEvent.RefersTo run.jobs))
    (h : HandoffsHold run.jobs run.syncEvents start s) :
    HandoffsHold run.jobs run.syncEvents start (run.next s) := by
  have hprepare : Keeps (HandoffsHold run.jobs run.syncEvents start)
      (run.worker.prepareEvents run.jobs run.selected) :=
    HandoffsHold.prepareEvents (fun _ => mem_of_selected) fun e he => hrefers e (mem_of_selected he)
  exact Keeps.of_run (m := run.call) (hprepare.bind fun _ =>
    .update fun _ hs => hs.sendChunks _ _ _) h

/-- No job is missing. -/
theorem jobsFound (hrefers : run.syncEvents.All (SyncEvent.RefersTo run.jobs)) : run.JobsFound :=
  fun syncEvent hmem => (hrefers syncEvent (mem_of_selected hmem)).isSome

end HandoffRun

end Bisakerja
