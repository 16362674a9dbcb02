import BisakerjaScraper.Freshness.Service
import BisakerjaScraper.Notifications.References
import BisakerjaScraper.Pipeline.Integrity
import BisakerjaScraper.Pipeline.Scheduled

/-! The database of the scraper, whatever runs on it.

    The stages are separate commands, and any of them may be run at any time, fail half-way, be
    repeated or be left out. None of them deletes a row. So in every state that some sequence of
    them reaches, the references between the tables hold, and a row once stored is there in every
    later state under the id it was given. -/

namespace Bisakerja
open Schemes Schemes.Delivery

/-- The tables the stages share. -/
structure Store where
  tables : StageTables
  syncEvents : SyncEvents
  handoffs : HandoffEvents

/-- A run of `run`: its sources one after another on one session. What is pending at the end is
    committed when the run is closed, and lost when it is not. -/
structure DirectRun where
  sources : List SourceRun
  calls : ℕ := 0
  ticks : ℕ := 0
  closed : Bool := true

/-- What may happen to the database, with everything it is run with. -/
inductive StoreStep where
  | scraped (host : Host) (hash : StableHash) (inputs : List RawJobInput) (ticks : ℕ)
  | normalized (run : NormalizeRun)
  | ran (run : DirectRun)
  | enriched (run : EnrichmentRun)
  | swept (call : SweepCall)
  | synced (worker : BackendSyncWorker) (params : SyncParams) (ticks : ℕ)
  | handedOff (worker : RecommendationHandoffWorker) (scrapeRunId : String) (ticks : ℕ)

/-- The session at the end of the run. -/
def DirectRun.session (run : DirectRun) (tables : StageTables) : StageSession :=
  (Stateful.forEach run.sources SourceRun.runSource (.begin tables "all" run.calls run.ticks)).2

/-- The tables the run leaves behind. -/
def DirectRun.after (run : DirectRun) (tables : StageTables) : StageTables :=
  if run.closed then (run.session tables).tables else (run.session tables).committed

namespace Store

/-- The database before anything has run. -/
def empty : Store where
  tables := { jobs := ⟨Table.empty _, Table.empty _⟩ }
  syncEvents := Table.empty _
  handoffs := Table.empty _

variable (store : Store)

/-- The call of the handoff worker. -/
def handoffRun (worker : RecommendationHandoffWorker) (scrapeRunId : String) : HandoffRun where
  worker := worker
  jobs := store.tables.jobs.normalizedJobs
  syncEvents := store.syncEvents
  scrapeRunId := scrapeRunId

/-- The writes of a scrape. -/
def scraped (host : Host) (hash : StableHash) (inputs : List RawJobInput) (ticks : ℕ) : JobSession :=
  inputs.foldl (fun s input => (upsertRawJob host hash input s).2)
    { tables := store.tables.jobs, ticks }

/-- The database after a step. -/
def step : StoreStep → Store
  | .scraped host hash inputs ticks =>
    { store with tables := { store.tables with jobs := (store.scraped host hash inputs ticks).tables } }
  | .normalized run => { store with tables := run.after store.tables }
  | .ran run => { store with tables := run.after store.tables }
  | .enriched run => { store with tables := (run.batch store.tables).2.tables }
  | .swept call =>
    { store with tables := { store.tables with jobs := { store.tables.jobs with
        normalizedJobs := (call.sweepSource store.tables.jobs.normalizedJobs).1 } } }
  | .synced worker params ticks =>
    { store with
      syncEvents := (worker.runOnce { events := store.syncEvents, ticks }
        { db := store.tables.jobs, params }).events }
  | .handedOff worker scrapeRunId ticks =>
    { store with
      handoffs := ((store.handoffRun worker scrapeRunId).next
        { events := store.handoffs, ticks }).events }

/-- The database after some steps. -/
def after (steps : List StoreStep) : Store := steps.foldl step store

/-- The constraints and references of the database. -/
structure Intact : Prop where
  jobs : store.tables.jobs.Intact
  syncEvents : store.syncEvents.All (SyncEvent.RefersTo store.tables.jobs.normalizedJobs)
  handoffs : store.handoffs.All
    (NotificationHandoffEvent.RefersTo store.tables.jobs.normalizedJobs store.syncEvents)

/-- No row has gone, and none has changed what identifies it. -/
structure Grows (store store' : Store) : Prop where
  jobs : store.tables.jobs.Grows store'.tables.jobs
  syncEvents : store.syncEvents.Grows SyncEvent.stamp store'.syncEvents
  handoffs : store.handoffs.Grows NotificationHandoffEvent.stamp store'.handoffs

variable {store} {store' store'' : Store}

theorem Grows.refl (store : Store) : store.Grows store := ⟨.refl _, .refl _ _, .refl _ _⟩

theorem Grows.trans (h : store.Grows store') (h' : store'.Grows store'') : store.Grows store'' :=
  ⟨h.jobs.trans h'.jobs, h.syncEvents.trans h'.syncEvents, h.handoffs.trans h'.handoffs⟩

theorem intact_empty : Store.empty.Intact :=
  ⟨⟨List.nodup_nil, List.nodup_nil, fun _ h => absurd h List.not_mem_nil⟩,
    fun _ h => absurd h List.not_mem_nil, fun _ h => absurd h List.not_mem_nil⟩

end Store

/-! ### What refers to a row refers to it later -/

theorem SyncEvent.RefersTo.mono {jobs jobs' : NormalizedJobs} {event : SyncEvent}
    (h : event.RefersTo jobs) (hgrows : jobs.Grows NormalizedJob.stamp jobs') :
    event.RefersTo jobs' := hgrows.subset h

theorem NotificationHandoffEvent.RefersTo.mono {jobs jobs' : NormalizedJobs}
    {syncEvents syncEvents' : SyncEvents} {event : NotificationHandoffEvent}
    (h : event.RefersTo jobs syncEvents) (hjobs : jobs.Grows NormalizedJob.stamp jobs')
    (hsync : syncEvents.Grows SyncEvent.stamp syncEvents') : event.RefersTo jobs' syncEvents' :=
  ⟨hjobs.subset h.job, (hsync.map fun stamp : String × EventKey × String × String =>
    (stamp.1, stamp.2.1.normalizedJobId)).subset h.syncEvent⟩

namespace Store

variable {store : Store}

/-- A step that changes the job tables only. -/
theorem Intact.withTables (h : store.Intact) {tables : StageTables} (htables : tables.jobs.Intact)
    (hgrows : store.tables.jobs.Grows tables.jobs) :
    { store with tables }.Intact ∧ store.Grows { store with tables } :=
  ⟨⟨htables, h.syncEvents.mono fun _ _ hevent => hevent.mono hgrows.normalizedJobs,
      h.handoffs.mono fun _ _ hevent => hevent.mono hgrows.normalizedJobs (.refl _ _)⟩,
    ⟨hgrows, .refl _ _, .refl _ _⟩⟩

/-! ### The steps -/

theorem intact_scraped (h : store.tables.jobs.Intact) (host : Host) (hash : StableHash)
    (inputs : List RawJobInput) (ticks : ℕ) :
    (store.scraped host hash inputs ticks).tables.Intact ∧
      store.tables.jobs.Grows (store.scraped host hash inputs ticks).tables := by
  unfold scraped
  suffices hall : ∀ s : JobSession, s.tables.Intact ∧ store.tables.jobs.Grows s.tables →
      let s' := inputs.foldl (fun s input => (upsertRawJob host hash input s).2) s
      s'.tables.Intact ∧ store.tables.jobs.Grows s'.tables from hall _ ⟨h, .refl _⟩
  induction inputs with
  | nil => exact fun s hs => hs
  | cons input rest ih =>
    intro s hs
    obtain ⟨hintact, hgrows, -⟩ := intact_upsertRawJob host hash input hs.1
    exact ih _ ⟨hintact, hs.2.trans hgrows⟩

theorem intact_normalized (h : store.tables.jobs.Intact) (run : NormalizeRun) :
    (run.after store.tables).jobs.Intact ∧
      store.tables.jobs.Grows (run.after store.tables).jobs :=
  have hend := run.orchestrator.intact_normalizeSources run.runId run.sources h "all" run.calls run.ticks
  ⟨hend.committed, hend.grown⟩

theorem intact_ran (h : store.tables.jobs.Intact) (run : DirectRun) :
    (run.after store.tables).jobs.Intact ∧
      store.tables.jobs.Grows (run.after store.tables).jobs := by
  have hend : (run.session store.tables).Intact store.tables.jobs :=
    Keeps.of_run (.forEach run.sources fun _ _ => SourceRun.intact_runSource)
      (StageSession.Intact.begin h rfl _ _ _)
  unfold DirectRun.after
  split
  · exact ⟨hend.tables, hend.growing⟩
  · exact ⟨hend.committed, hend.grown⟩

/-- The staging rows of a job name it, and the upserts keep that. -/
theorem anchored_withOutput {rawJobs : RawJobs} {casefold : String → String}
    (origin : EnrichmentSource) (output : EnrichmentOutput casefold) {job : NormalizedJob}
    (h : job.Anchored rawJobs) : (job.withOutput origin output).Anchored rawJobs := by
  refine ⟨h.rawJob, ?_, ?_⟩
  · change ∀ row ∈ output.skills.foldl _ job.skillsStaging, row.normalizedJobId = job.id
    generalize output.skills = skills
    have hskills := h.skills
    generalize job.skillsStaging = rows at hskills
    induction skills generalizing rows with
    | nil => exact hskills
    | cons skill rest ih =>
      refine ih _ fun row hrow => ?_
      unfold upsertSkill at hrow
      dsimp only at hrow
      split at hrow
      · obtain ⟨old, hold, rfl⟩ := List.mem_map.mp hrow
        split <;> exact hskills old hold
      · rcases List.mem_append.mp hrow with hold | hnew
        · exact hskills row hold
        · rw [List.mem_singleton.mp hnew]
  · change ∀ row ∈ output.requirements.foldl _ job.requirementsStaging, row.normalizedJobId = job.id
    generalize output.requirements = requirements
    have hrequirements := h.requirements
    generalize job.requirementsStaging = rows at hrequirements
    induction requirements generalizing rows with
    | nil => exact hrequirements
    | cons requirement rest ih =>
      refine ih _ fun row hrow => ?_
      unfold upsertRequirement at hrow
      dsimp only at hrow
      split at hrow
      · obtain ⟨old, hold, rfl⟩ := List.mem_map.mp hrow
        split <;> exact hrequirements old hold
      · rcases List.mem_append.mp hrow with hold | hnew
        · exact hrequirements row hold
        · rw [List.mem_singleton.mp hnew]

theorem intact_enrichAll {casefold : String → String} (service : EnrichmentService casefold)
    (scrapeRunId : Option String) (jobs : List NormalizedJob) {start : JobTables}
    {s : EnrichmentSession} (h : s.tables.jobs.Intact ∧ start.Grows s.tables.jobs) :
    (service.enrichAll scrapeRunId jobs s).2.tables.jobs.Intact ∧
      start.Grows (service.enrichAll scrapeRunId jobs s).2.tables.jobs := by
  induction jobs generalizing s with
  | nil => exact h
  | cons job rest ih =>
    refine ih ?_
    unfold EnrichmentService.enrichOne
    cases service.enrichmentInputFromJob job with
    | none => exact h
    | some request =>
      dsimp only
      cases (service.attempts request service.config.maxAttempts 0 s.calls).1 with
      | error exc => exact h
      | ok output =>
        have hid : ∀ row : NormalizedJob, (row.withOutput .ai output).id = row.id := fun _ => rfl
        refine ⟨⟨h.1.rawIdentities, Table.nodup_modify h.1.jobIdentities hid fun _ => rfl, ?_⟩,
          h.2.trans ⟨.refl _ _, Table.grows_modify _ _ _ hid fun _ => rfl⟩⟩
        exact Table.all_modify h.1.anchored hid fun row _ _ hrow => anchored_withOutput .ai output hrow

/-- A sweep leaves what does not look at its two columns. -/
theorem stamps_flushSwept {σ : Type} {stamp : NormalizedJob → σ}
    (hstamp : ∀ (row : NormalizedJob) (status : CanonicalJobStatus) (lastSeenAt : Time),
      stamp { row with status := status, lastSeenAt := lastSeenAt } = stamp row)
    (db : NormalizedJobs) (jobs : List NormalizedJob) :
    (flushSwept db jobs).stamps stamp = db.stamps stamp := by
  unfold Table.stamps flushSwept
  rw [List.map_map]
  refine List.map_congr_left fun row _ => ?_
  dsimp only [Function.comp]
  split
  · exact hstamp row _ _
  · rfl

/-- A sweep sets two columns that nothing refers to. -/
theorem intact_swept (h : store.tables.jobs.Intact) (call : SweepCall) :
    let jobs : JobTables := { store.tables.jobs with
      normalizedJobs := (call.sweepSource store.tables.jobs.normalizedJobs).1 }
    jobs.Intact ∧ store.tables.jobs.Grows jobs := by
  dsimp only [SweepCall.sweepSource]
  generalize (call.sweepJobs _ _).1 = swept
  refine ⟨⟨h.rawIdentities, ?_, ?_⟩, ⟨.refl _ _, ?_⟩⟩
  · rw [stamps_flushSwept fun _ _ _ => rfl]
    exact h.jobIdentities
  · intro row hrow
    obtain ⟨old, hold, rfl⟩ := List.mem_map.mp hrow
    have hanchored := h.anchored old hold
    split
    · exact ⟨hanchored.rawJob, hanchored.skills, hanchored.requirements⟩
    · exact hanchored
  · unfold Table.Grows
    rw [stamps_flushSwept fun _ _ _ => rfl]

/-- Every step keeps the references, and no step takes a row away. -/
theorem Intact.step (h : store.Intact) (step : StoreStep) :
    (store.step step).Intact ∧ store.Grows (store.step step) := by
  cases step with
  | scraped host hash inputs ticks =>
    obtain ⟨htables, hgrows⟩ := intact_scraped h.jobs host hash inputs ticks
    exact h.withTables htables hgrows
  | normalized run =>
    obtain ⟨htables, hgrows⟩ := intact_normalized h.jobs run
    exact h.withTables htables hgrows
  | ran run =>
    obtain ⟨htables, hgrows⟩ := intact_ran h.jobs run
    exact h.withTables htables hgrows
  | enriched run =>
    obtain ⟨htables, hgrows⟩ := intact_enrichAll run.service run.scrapeRunId
      (store.tables.listUnenrichedJobs run.service.config.batchSize)
      (s := { tables := store.tables, calls := run.calls, ticks := run.ticks })
      ⟨h.jobs, .refl store.tables.jobs⟩
    exact h.withTables htables hgrows
  | swept call =>
    obtain ⟨htables, hgrows⟩ := intact_swept h.jobs call
    exact h.withTables htables hgrows
  | synced worker params ticks =>
    let run : BackendSyncWorker.SyncRun := { db := store.tables.jobs, params }
    let s : SyncState := { events := store.syncEvents, ticks }
    have hrefers := @BackendSyncWorker.keeps_runOnce worker run s _
      (keptBySync_refersTo store.tables.jobs) h.syncEvents
    have hgrows := @BackendSyncWorker.keeps_runOnce worker run s _
      (keptBySync_grows store.tables.jobs store.syncEvents) (.refl _ _)
    exact ⟨⟨h.jobs, hrefers, h.handoffs.mono fun _ _ hevent => hevent.mono (.refl _ _) hgrows⟩,
      ⟨.refl _, hgrows, .refl _ _⟩⟩
  | handedOff worker scrapeRunId ticks =>
    let run := store.handoffRun worker scrapeRunId
    let s : HandoffState := { events := store.handoffs, ticks }
    have hstart : HandoffsHold run.jobs run.syncEvents store.handoffs s :=
      ⟨h.handoffs, .refl _ store.handoffs⟩
    have hend := HandoffRun.holds_next h.syncEvents hstart
    exact ⟨⟨h.jobs, h.syncEvents, hend.refers⟩, ⟨.refl _, .refl _ _, hend.grows⟩⟩

/-- A whole run of steps. -/
theorem Intact.after (h : store.Intact) (steps : List StoreStep) :
    (store.after steps).Intact ∧ store.Grows (store.after steps) := by
  induction steps generalizing store with
  | nil => exact ⟨h, .refl _⟩
  | cons step rest ih =>
    obtain ⟨hintact, hgrows⟩ := h.step step
    obtain ⟨hend, hrest⟩ := ih hintact
    exact ⟨hend, hgrows.trans hrest⟩

end Store

/-! ### A scheduled run -/

namespace ScheduledRun

variable (run : ScheduledRun) (db : Database)

/-- The three steps of a scheduled run. -/
def steps : List StoreStep :=
  [.scraped run.orchestrator.env.host run.orchestrator.env.hash
      (run.returned.map fun input => { input with scrapeRunId := run.stageRunId .scrape }) db.ticks,
    .normalized
      { orchestrator := run.wired db
        runId := run.stageRunId .normalize
        sources := uniqueSourcesByPlatform run.sources
        ticks := (run.scraped db).ticks },
    .synced run.worker (run.syncRun db).params db.eventTicks]

/-- What a scheduled run leaves behind is what its steps leave behind. -/
theorem after_steps (handoffs : HandoffEvents) :
    Store.after ⟨db.tables, db.events, handoffs⟩ (run.steps db)
      = ⟨(run.next db).tables, (run.next db).events, handoffs⟩ := by
  have hscraped : (Store.mk db.tables db.events handoffs).scraped run.orchestrator.env.host
      run.orchestrator.env.hash
      (run.returned.map fun input => { input with scrapeRunId := run.stageRunId .scrape }) db.ticks
        = run.scraped db := List.foldl_map ..
  unfold Store.after steps
  simp only [List.foldl_cons, List.foldl_nil, Store.step, hscraped]
  rfl

end ScheduledRun

/-! ### The handoff never misses a job -/

namespace Store

/-- From every state the stages reach, a handoff run returns; it posts what is due of the sync
    events it selects, and each candidate carries the identity of its sync event. -/
theorem handoff_returns (steps : List StoreStep) (worker : RecommendationHandoffWorker)
    (scrapeRunId : String) (ticks : ℕ) :
    let store := Store.empty.after steps
    let run := store.handoffRun worker scrapeRunId
    let s : HandoffState := { events := store.handoffs, ticks }
    (run.call s).1.isOk = true ∧
      (∀ k, k ∈ (run.posts s).flatten ↔
        k ∈ run.keys ∧ Due worker.maxAttempts (handoffLedger store.handoffs k)) ∧
      ∀ k ∈ (run.posts s).flatten, ∃ syncEvent ∈ run.selected, ∃ job event,
        handoffKey scrapeRunId syncEvent = k ∧ (run.next s).events.find? k = some event ∧
        job ∈ store.tables.jobs.normalizedJobs.rows ∧
        job.identity = (k.sourcePlatform, k.externalId) ∧
        event.payloadJson = candidatePayloadFrom worker.isoformat syncEvent scrapeRunId job := by
  intro store run s
  have hrefers : run.syncEvents.All (SyncEvent.RefersTo run.jobs) :=
    (intact_empty.after steps).1.syncEvents
  have hfound : run.JobsFound := HandoffRun.jobsFound hrefers
  refine ⟨?_, fun k => ?_, fun k hk => ?_⟩
  · have hok : (worker.prepareEvents run.jobs run.selected s).1.isOk = true :=
      (RecommendationHandoffWorker.prepareEvents_isOk fun _ =>
        HandoffRun.scrapeRunId_of_selected).mpr hfound
    change (Stateful.bind (worker.prepareEvents run.jobs run.selected) _ s).1.isOk = true
    obtain ⟨keys, hprepared⟩ := Stateful.exists_of_isOk hok
    rw [Stateful.bind, hprepared]
    rfl
  · rcases HandoffRun.posts_cases run s with ⟨hmissing, -⟩ | ⟨-, s₁, hposts, hmarks, -⟩
    · exact absurd hfound hmissing
    · rw [hposts]
      exact HandoffRun.mem_flatten_chunksOf hmarks k
  · obtain ⟨-, -, -, syncEvent, hmem, job, event, hkey, hjob, hfind, -, hpayload⟩ :=
      HandoffRun.mem_posts hk
    have hstamp := (hrefers syncEvent (HandoffRun.mem_of_selected hmem)).of_find hjob
    refine ⟨syncEvent, hmem, job, event, hkey, hfind, Table.mem_of_find? hjob, ?_, hpayload⟩
    rw [← hkey]
    exact congrArg Prod.snd hstamp

end Store

end Bisakerja
