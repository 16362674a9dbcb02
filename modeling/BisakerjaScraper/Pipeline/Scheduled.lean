import BisakerjaScraper.Pipeline.Passes
import BisakerjaScraper.Sync.Loop

/-! Scheduled runs, day after day.

    A run scrapes, normalizes and syncs, each stage under the run id with its own suffix, and the
    next run begins with the tables this one has committed. -/

namespace Bisakerja
open Schemes

/-- A run of the schedule: what its scrape stores, the orchestrator and the sources its normalize
    stage works with, and the sync worker with the arguments of `sync_hook`. -/
structure ScheduledRun where
  runId : String
  returned : List RawJobInput
  orchestrator : PipelineOrchestrator
  sources : List NormalizeSource
  worker : BackendSyncWorker
  limit : ℤ
  batchSize : ℤ
  sourcePlatforms : List String

/-- What a run finds and leaves: the tables of the stages, the sync events, and where the two id
    streams stand. -/
structure Database where
  tables : StageTables
  events : SyncEvents
  ticks : ℕ := 0
  eventTicks : ℕ := 0

namespace ScheduledRun

variable (run : ScheduledRun) (db : Database)

/-- The id of a stage. -/
def stageRunId (stage : PipelineStage) : String := run.runId ++ "-" ++ stage.suffix

/-- The writes of the scrape stage. -/
def scraped : JobSession :=
  run.returned.foldl (fun s input => (upsertRawJob run.orchestrator.env.host
    run.orchestrator.env.hash { input with scrapeRunId := run.stageRunId .scrape } s).2)
    { tables := db.tables.jobs, ticks := db.ticks }

/-- The tables the normalize stage begins with. -/
def stageTables : StageTables := { db.tables with jobs := (run.scraped db).tables }

/-- The session the normalize stage begins with. -/
def begun : StageSession := .begin (run.stageTables db) "all" 0 (run.scraped db).ticks

/-- The orchestrator, which reads the sync events of before the run. -/
def wired : PipelineOrchestrator := { run.orchestrator with syncEvents := db.events }

/-- The normalize stage. -/
def normalizeStage : Except PyException (List SourcePipelineResult) × StageSession :=
  (run.wired db).normalizeSources (run.stageRunId .normalize) (uniqueSourcesByPlatform run.sources)
    (run.begun db)

/-- The tables after the normalize stage: what it has committed. -/
def normalized : StageTables := (run.normalizeStage db).2.committed

/-- The call of the sync worker. -/
def syncRun : BackendSyncWorker.SyncRun where
  db := (run.normalized db).jobs
  params :=
    { scrapeRunId := some (run.stageRunId .sync)
      limit := run.limit
      batchSize := some run.batchSize
      sourcePlatforms := some run.sourcePlatforms }

/-- The session after the sync stage. -/
def synced : SyncState :=
  run.worker.runOnce { events := db.events, ticks := db.eventTicks } (run.syncRun db)

/-- What the next run finds. -/
def next : Database where
  tables := run.normalized db
  events := (run.synced db).events
  ticks := (run.normalizeStage db).2.ticks
  eventTicks := (run.synced db).ticks

end ScheduledRun

/-- A run with what it finds. -/
structure Visit where
  run : ScheduledRun
  db : Database

namespace Visit

variable (visit : Visit)

/-- The passes of the normalize stage. -/
def passes : List SourcePass :=
  (visit.run.wired visit.db).sourcePasses (visit.run.stageRunId .normalize)
    (uniqueSourcesByPlatform visit.run.sources) (visit.run.begun visit.db)

/-- The writes of the normalize stage that the database keeps. -/
def kept : List StageWrite := (visit.run.normalizeStage visit.db).2.view.durable

end Visit

/-- The runs of a schedule, each with what it finds. -/
def visits : List ScheduledRun → Database → List Visit
  | [], _ => []
  | run :: rest, db => ⟨run, db⟩ :: visits rest (run.next db)

/-- What is there after a schedule. -/
def afterRuns (runs : List ScheduledRun) (db : Database) : Database :=
  runs.foldl (fun db run => run.next db) db

/-! ### New ids stay new -/

namespace ScheduledRun

variable {run : ScheduledRun} {db : Database}

theorem stageRunId_scrape : run.stageRunId .scrape = run.runId ++ "-scrape" := append_dash _ _

/-- The scrape writes raw rows only. -/
theorem scraped_frame : (run.scraped db).tables.normalizedJobs = db.tables.jobs.normalizedJobs ∧
    db.ticks ≤ (run.scraped db).ticks := by
  unfold scraped
  suffices h : ∀ (inputs : List RawJobInput) (s : JobSession),
      s.tables.normalizedJobs = db.tables.jobs.normalizedJobs → db.ticks ≤ s.ticks →
        let s' := inputs.foldl (fun s input => (upsertRawJob run.orchestrator.env.host
          run.orchestrator.env.hash { input with scrapeRunId := run.stageRunId .scrape } s).2) s
        s'.tables.normalizedJobs = db.tables.jobs.normalizedJobs ∧ db.ticks ≤ s'.ticks from
    h run.returned _ rfl (Nat.le_refl _)
  intro inputs
  induction inputs with
  | nil => exact fun s hrows hticks => ⟨hrows, hticks⟩
  | cons input rest ih =>
    intro s hrows hticks
    refine ih _ ?_ (hticks.trans (upsertRawJob_ticks _ _ _ _))
    rw [upsertRawJob_normalizedJobs]
    exact hrows

/-- The upsert of another job leaves a raw row as it is. -/
theorem find?_upsertRawJob_of_ne (host : Host) (hash : StableHash) {input : RawJobInput}
    {s : JobSession} {raw : RawJob} (hraw : s.tables.rawJobs.find? raw.id = some raw)
    (hne : raw.identity ≠ input.identity) :
    (upsertRawJob host hash input s).2.tables.rawJobs.find? raw.id = some raw := by
  cases hfind : s.tables.findRawJob input.identity with
  | none =>
    obtain ⟨new, -, -, -, heq⟩ := upsertRawJob_of_none host hash hfind
    rw [heq]
    exact Table.find?_insert_of_some hraw
  | some existing =>
    obtain ⟨f, hf, -, -, heq⟩ := upsertRawJob_of_some host hash hfind
    rw [heq]
    dsimp only
    rw [Table.find?_modify_of_ne]
    · exact hraw
    · intro hid
      have hsame := List.inj_on_of_nodup_map s.tables.rawJobs.unique
        (List.mem_of_find?_eq_some hfind) (Table.mem_of_find? hraw) hid
      rw [← hsame] at hne
      exact hne (by simpa [JobTables.findRawJob] using List.find?_some hfind)

/-- The scrape leaves the raw rows of the jobs it does not return. -/
theorem find?_scraped {raw : RawJob} (hraw : db.tables.jobs.rawJobs.find? raw.id = some raw)
    (hnot : raw.identity ∉ run.returned.map RawJobInput.identity) :
    (run.stageTables db).jobs.rawJobs.find? raw.id = some raw := by
  unfold stageTables scraped
  suffices h : ∀ (inputs : List RawJobInput) (s : JobSession),
      raw.identity ∉ inputs.map RawJobInput.identity →
        s.tables.rawJobs.find? raw.id = some raw →
          (inputs.foldl (fun s input => (upsertRawJob run.orchestrator.env.host
            run.orchestrator.env.hash { input with scrapeRunId := run.stageRunId .scrape } s).2)
              s).tables.rawJobs.find? raw.id = some raw from h run.returned _ hnot hraw
  intro inputs
  induction inputs with
  | nil => exact fun _ _ hs => hs
  | cons input rest ih =>
    intro s hnot hs
    rw [List.map_cons, List.mem_cons, not_or] at hnot
    exact ih _ hnot.2 (find?_upsertRawJob_of_ne _ _ hs hnot.1)

theorem findNormalizedJob_stageTables (identity : String × String) :
    (run.stageTables db).jobs.findNormalizedJob identity
      = db.tables.jobs.findNormalizedJob identity := by
  unfold JobTables.findNormalizedJob stageTables
  rw [scraped_frame.1]

theorem freshRowIds_begun
    (h : FreshRowIds run.orchestrator.env.host db.tables.jobs.normalizedJobs db.ticks) :
    FreshRowIds run.orchestrator.env.host (run.stageTables db).jobs.normalizedJobs
      (run.scraped db).ticks := by
  unfold stageTables
  rw [scraped_frame.1]
  exact h.mono scraped_frame.2

/-- However the normalize stage ends, its committed tables follow its durable writes. -/
theorem follows_normalizeStage (hinj : Function.Injective run.orchestrator.env.host.newId)
    (h : FreshRowIds run.orchestrator.env.host db.tables.jobs.normalizedJobs db.ticks) :
    Follows run.orchestrator.env run.orchestrator.hasQuarantine (run.stageTables db)
      (run.normalizeStage db).2 := by
  have hstart : Follows run.orchestrator.env run.orchestrator.hasQuarantine (run.stageTables db)
      (run.begun db) :=
    PipelineOrchestrator.Fresh.follows (o := run.wired db) (s := run.begun db)
      ⟨rfl, rfl, rfl, freshRowIds_begun h⟩ _
  exact (PipelineOrchestrator.follows_normalizeSources (o := run.wired db) _ hinj _).of_run hstart

theorem freshRowIds_next (hinj : Function.Injective run.orchestrator.env.host.newId)
    (h : FreshRowIds run.orchestrator.env.host db.tables.jobs.normalizedJobs db.ticks) :
    FreshRowIds run.orchestrator.env.host (run.next db).tables.jobs.normalizedJobs
      (run.next db).ticks := (follows_normalizeStage hinj h).freshCommitted

end ScheduledRun

/-- In a schedule of one process, every run finds its ids to come unused. -/
theorem freshRowIds_visits {host : Host} (hinj : Function.Injective host.newId)
    {runs : List ScheduledRun} (hhost : ∀ run ∈ runs, run.orchestrator.env.host = host)
    {db : Database} (h : FreshRowIds host db.tables.jobs.normalizedJobs db.ticks) :
    ∀ visit ∈ visits runs db, visit.run.orchestrator.env.host = host ∧
      FreshRowIds host visit.db.tables.jobs.normalizedJobs visit.db.ticks := by
  induction runs generalizing db with
  | nil => exact fun _ hvisit => absurd hvisit List.not_mem_nil
  | cons run rest ih =>
    have hrun := hhost run List.mem_cons_self
    subst hrun
    intro visit hvisit
    rcases List.mem_cons.mp hvisit with rfl | hvisit
    · exact ⟨rfl, h⟩
    · exact ih (fun other hother => hhost other (List.mem_cons_of_mem run hother))
        (ScheduledRun.freshRowIds_next hinj h) visit hvisit

/-- A normalize stage that ends without raising settles its raw jobs. -/
theorem Visit.settles {visit : Visit}
    (hinj : Function.Injective visit.run.orchestrator.env.host.newId)
    (hfresh : FreshRowIds visit.run.orchestrator.env.host visit.db.tables.jobs.normalizedJobs
      visit.db.ticks)
    (hok : (visit.run.normalizeStage visit.db).1.isOk = true) :
    Settles visit.run.orchestrator.env.isoformat visit.passes (visit.run.stageRunId .normalize)
      visit.kept (visit.run.stageTables visit.db) (visit.run.normalized visit.db) := by
  obtain ⟨results, hrun⟩ := Stateful.exists_of_isOk hok
  exact (PipelineOrchestrator.settles_normalizeSources (o := visit.run.wired visit.db) hinj
    (ScheduledRun.freshRowIds_begun hfresh) hrun).1

end Bisakerja
