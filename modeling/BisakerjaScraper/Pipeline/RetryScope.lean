import BisakerjaScraper.Pipeline.LastSeen
import BisakerjaScraper.Sync.Listing

/-! Which run retries a job.

    A sync run lists the jobs whose raw row carries the id of its own scrape. A job that waits for a
    retry is therefore out of sight until a scrape returns it again, for as many runs as that
    takes; nothing else about it changes in the meantime. -/

namespace Bisakerja
open Schemes Schemes.Delivery

namespace Visit

variable (visit : Visit) (identity : String × String)

/-- The row of a job is a candidate of the sync stage, if the limit permits. -/
def Lists : Prop :=
  ∃ job, (visit.run.normalized visit.db).jobs.findNormalizedJob identity = some job ∧
    job ∈ BackendSyncWorker.eligible (visit.run.normalized visit.db).jobs
      (visit.run.syncRun visit.db).params ∧
    visit.run.worker.isCandidate (visit.run.normalized visit.db).jobs visit.db.events job = true

/-- The row of a job could be synced as far as its status, its platform and its event go. -/
def Unsynced : Prop :=
  ∃ job, (visit.run.normalized visit.db).jobs.findNormalizedJob identity = some job ∧
    job.status ∈ syncEligibleStatuses ∧ job.sourcePlatform ∈ visit.run.sourcePlatforms ∧
    visit.run.worker.isCandidate (visit.run.normalized visit.db).jobs visit.db.events job = true

/-- A raw row that the scrape of the run has stored: it carries the id of the scrape. -/
def Stored (rawJobId : String) : Prop :=
  ∃ raw, (visit.run.stageTables visit.db).jobs.rawJobs.find? rawJobId = some raw ∧
    raw.scrapeRunId = visit.run.stageRunId .scrape

/-- The scrape has stored the raw row of a job: the one that the last job written under the identity
    in this run came from, or else the one that the row of before points to. -/
def Returns : Prop :=
  match lastWrite writtenIdentity (storedOf visit.kept) identity with
  | some write => visit.Stored write.1.id
  | none => ∃ job rawJobId, visit.db.tables.jobs.findNormalizedJob identity = some job ∧
      job.rawJobId = some rawJobId ∧ visit.Stored rawJobId

/-- The run does nothing to a job: its scrape returns neither the job nor has the id of its raw row,
    and no job is written under its identity. -/
structure Misses (raw : RawJob) : Prop where
  notReturned : raw.identity ∉ visit.run.returned.map RawJobInput.identity
  otherRun : raw.scrapeRunId ≠ visit.run.stageRunId .scrape
  notWritten : lastWrite writtenIdentity (storedOf visit.kept) identity = none

end Visit

/-- A job that waits for a sync: its row and its raw row are there, and its event is missing or
    retryable. -/
structure Waiting (w : BackendSyncWorker) (db : Database) (job : NormalizedJob) (raw : RawJob) :
    Prop where
  row : db.tables.jobs.findNormalizedJob job.identity = some job
  rawId : job.rawJobId = some raw.id
  rawRow : db.tables.jobs.rawJobs.find? raw.id = some raw
  status : job.status ∈ syncEligibleStatuses
  valid : w.contractValid db.tables.jobs job = true
  due : w.isDue db.tables.jobs db.events job = true

theorem NormalizedJob.HoldsWrite.rawJobId {isoformat : Time → String}
    {write : RawJob × CanonicalJobSchema} {row : NormalizedJob} (h : row.HoldsWrite isoformat write) :
    row.rawJobId = some write.1.id := by
  unfold NormalizedJob.HoldsWrite at h
  rw [← h]
  rfl

/-- A waiting job keeps its payload, and so its key, while its raw row stays. -/
theorem Waiting.payload_congr {w : BackendSyncWorker} {db : Database} {job : NormalizedJob}
    {raw : RawJob} (h : Waiting w db job raw) {tables : JobTables}
    (hraw : tables.rawJobs.find? raw.id = some raw) :
    w.payloadOf tables job = w.payloadOf db.tables.jobs job := by
  unfold BackendSyncWorker.payloadOf JobTables.rawJob
  rw [h.rawId, Option.bind_some, Option.bind_some, hraw, h.rawRow]

namespace Visit

variable {visit : Visit} {identity : String × String}

/-- The `WHERE` clauses of the sync stage. -/
theorem mem_eligible_iff {job : NormalizedJob} :
    job ∈ BackendSyncWorker.eligible (visit.run.normalized visit.db).jobs
        (visit.run.syncRun visit.db).params ↔
      job ∈ (visit.run.normalized visit.db).jobs.normalizedJobs.rows ∧
        job.status ∈ syncEligibleStatuses ∧ job.sourcePlatform ∈ visit.run.sourcePlatforms ∧
        ∃ raw, (visit.run.normalized visit.db).jobs.rawJob job = some raw ∧
          raw.scrapeRunId = visit.run.stageRunId .scrape := by
  have hscope : scrapeScopeRunId (visit.run.stageRunId .sync) = visit.run.stageRunId .scrape :=
    (scrapeScopeRunId_eq visit.run.runId .sync).trans visit.run.stageRunId_scrape.symm
  unfold BackendSyncWorker.eligible
  rw [mem_listEligibleJobs]
  unfold isEligible ScheduledRun.syncRun
  dsimp only
  rw [hscope]
  simp only [Bool.and_eq_true, decide_eq_true_eq, Option.any_eq_true, and_assoc]

/-- The row of a job points to a raw row that the scrape has stored exactly when the scrape returns
    the job. -/
theorem returns_iff (hinj : Function.Injective visit.run.orchestrator.env.host.newId)
    (hfresh : FreshRowIds visit.run.orchestrator.env.host visit.db.tables.jobs.normalizedJobs
      visit.db.ticks) :
    visit.Returns identity ↔ ∃ job raw,
      (visit.run.normalized visit.db).jobs.findNormalizedJob identity = some job ∧
        (visit.run.normalized visit.db).jobs.rawJob job = some raw ∧
        raw.scrapeRunId = visit.run.stageRunId .scrape := by
  have hreflects := (ScheduledRun.follows_normalizeStage hinj hfresh).durable
  have hraw : ∀ rawJobId, (visit.run.normalized visit.db).jobs.rawJobs.find? rawJobId
      = (visit.run.stageTables visit.db).jobs.rawJobs.find? rawJobId := fun rawJobId =>
    congrArg (fun rows : RawJobs => rows.find? rawJobId) hreflects.rawJobs
  unfold Returns
  cases hlast : lastWrite writtenIdentity (storedOf visit.kept) identity with
  | some write =>
    obtain ⟨row, hrow, hholds⟩ := hreflects.written identity write hlast
    have hpoints : (visit.run.normalized visit.db).jobs.rawJob row
        = (visit.run.stageTables visit.db).jobs.rawJobs.find? write.1.id := by
      unfold JobTables.rawJob
      rw [hholds.rawJobId, Option.bind_some, hraw]
    constructor
    · rintro ⟨raw, hfind, hrun⟩
      exact ⟨row, raw, hrow, hpoints.trans hfind, hrun⟩
    · rintro ⟨job, raw, hjob, hfind, hrun⟩
      cases hrow.symm.trans hjob
      exact ⟨raw, hpoints.symm.trans hfind, hrun⟩
  | none =>
    have hsame := hreflects.untouched identity hlast
    rw [ScheduledRun.findNormalizedJob_stageTables] at hsame
    constructor
    · rintro ⟨job, rawJobId, hjob, hid, raw, hfind, hrun⟩
      refine ⟨job, raw, hsame.trans hjob, ?_, hrun⟩
      unfold JobTables.rawJob
      rw [hid, Option.bind_some, hraw]
      exact hfind
    · rintro ⟨job, raw, hjob, hfind, hrun⟩
      unfold JobTables.rawJob at hfind
      obtain ⟨rawJobId, hid, hfind⟩ := Option.bind_eq_some_iff.mp hfind
      exact ⟨job, rawJobId, hsame.symm.trans hjob, hid, raw, (hraw rawJobId).symm.trans hfind, hrun⟩

/-- A sync stage lists the row of a job exactly when it is unsynced and the scrape returns it. -/
theorem lists_iff (hinj : Function.Injective visit.run.orchestrator.env.host.newId)
    (hfresh : FreshRowIds visit.run.orchestrator.env.host visit.db.tables.jobs.normalizedJobs
      visit.db.ticks) :
    visit.Lists identity ↔ visit.Returns identity ∧ visit.Unsynced identity := by
  rw [returns_iff hinj hfresh]
  constructor
  · rintro ⟨job, hjob, heligible, hcandidate⟩
    obtain ⟨-, hstatus, hplatform, raw, hraw, hrun⟩ := mem_eligible_iff.mp heligible
    exact ⟨⟨job, raw, hjob, hraw, hrun⟩, job, hjob, hstatus, hplatform, hcandidate⟩
  · rintro ⟨⟨job, raw, hjob, hraw, hrun⟩, job', hjob', hstatus, hplatform, hcandidate⟩
    cases hjob.symm.trans hjob'
    exact ⟨job, hjob, mem_eligible_iff.mpr ⟨List.mem_of_find?_eq_some hjob, hstatus, hplatform,
      raw, hraw, hrun⟩, hcandidate⟩

variable {w : BackendSyncWorker} {job : NormalizedJob} {raw : RawJob}

/-- A run that misses a waiting job does not list it, and leaves it waiting. -/
theorem waiting_next (visit : Visit) (hinj : Function.Injective visit.run.orchestrator.env.host.newId)
    (hfresh : FreshRowIds visit.run.orchestrator.env.host visit.db.tables.jobs.normalizedJobs
      visit.db.ticks)
    (hwaiting : Waiting w visit.db job raw) (hmisses : visit.Misses job.identity raw) :
    ¬ visit.Lists job.identity ∧ Waiting w (visit.run.next visit.db) job raw := by
  have hreflects := (ScheduledRun.follows_normalizeStage hinj hfresh).durable
  have hrow : (visit.run.normalized visit.db).jobs.findNormalizedJob job.identity = some job := by
    refine (hreflects.untouched job.identity hmisses.notWritten).trans ?_
    rw [ScheduledRun.findNormalizedJob_stageTables]
    exact hwaiting.row
  have hstored : (visit.run.stageTables visit.db).jobs.rawJobs.find? raw.id = some raw :=
    ScheduledRun.find?_scraped hwaiting.rawRow hmisses.notReturned
  have hrawRow : (visit.run.normalized visit.db).jobs.rawJobs.find? raw.id = some raw :=
    (congrArg (fun rows : RawJobs => rows.find? raw.id) hreflects.rawJobs).trans hstored
  have hnot : ¬ visit.Lists job.identity := by
    rw [lists_iff hinj hfresh]
    rintro ⟨hreturns, -⟩
    unfold Returns at hreturns
    rw [hmisses.notWritten] at hreturns
    obtain ⟨job', rawJobId, hjob', hid, raw', hfind, hrun⟩ := hreturns
    cases hwaiting.row.symm.trans hjob'
    cases hwaiting.rawId.symm.trans hid
    cases hstored.symm.trans hfind
    exact hmisses.otherRun hrun
  have hpayload := hwaiting.payload_congr hrawRow
  refine ⟨hnot, hrow, hwaiting.rawId, hrawRow, hwaiting.status, ?_, ?_⟩
  · have hvalid := hwaiting.valid
    unfold BackendSyncWorker.contractValid at hvalid ⊢
    rw [← hpayload] at hvalid
    exact hvalid
  · have huntouched : BackendSyncWorker.Untouched job.id _ (visit.run.synced visit.db) :=
      BackendSyncWorker.untouched_runOnce fun job' hjob' hid => hnot ?_
    · have hsame : w.keyOf (visit.run.normalized visit.db).jobs job
          = w.keyOf visit.db.tables.jobs job := by
        unfold BackendSyncWorker.keyOf BackendSyncWorker.payloadHash
        rw [hpayload]
      have hevents : ledger (visit.run.synced visit.db).events (w.keyOf visit.db.tables.jobs job)
          = ledger visit.db.events (w.keyOf visit.db.tables.jobs job) :=
        huntouched.events _ (w.keyOf_normalizedJobId _ _)
      have hdue := (BackendSyncWorker.isDue_congr hevents).trans hwaiting.due
      unfold BackendSyncWorker.isDue at hdue ⊢
      change ((visit.run.synced visit.db).events.find?
        (w.keyOf (visit.run.normalized visit.db).jobs job)).all _ = true
      rwa [hsame]
    · have hmem := List.mem_filter.mp ((collectUpTo_sublist _ _ _).subset hjob')
      have heq : job' = job := List.inj_on_of_nodup_map
        (visit.run.normalized visit.db).jobs.normalizedJobs.unique
        (mem_eligible_iff.mp hmem.1).1 (List.mem_of_find?_eq_some hrow) hid
      subst heq
      exact ⟨job', hrow, hmem.1, hmem.2⟩

end Visit

/-- Runs that miss a waiting job never list it, and leave it waiting. -/
theorem hidden_while_missed {host : Host} (hinj : Function.Injective host.newId)
    {runs : List ScheduledRun} (hhost : ∀ run ∈ runs, run.orchestrator.env.host = host)
    {db : Database} (hfresh : FreshRowIds host db.tables.jobs.normalizedJobs db.ticks)
    {w : BackendSyncWorker} {job : NormalizedJob} {raw : RawJob} (hwaiting : Waiting w db job raw)
    (hmisses : ∀ visit ∈ visits runs db, visit.Misses job.identity raw) :
    (∀ visit ∈ visits runs db, ¬ visit.Lists job.identity) ∧
      Waiting w (afterRuns runs db) job raw := by
  induction runs generalizing db with
  | nil => exact ⟨fun _ hvisit => absurd hvisit List.not_mem_nil, hwaiting⟩
  | cons run rest ih =>
    have hrun := hhost run List.mem_cons_self
    subst hrun
    obtain ⟨hnot, hnext⟩ := Visit.waiting_next ⟨run, db⟩ hinj hfresh hwaiting
      (hmisses _ List.mem_cons_self)
    obtain ⟨hrest, hafter⟩ := ih (fun other hother => hhost other (List.mem_cons_of_mem run hother))
      (ScheduledRun.freshRowIds_next hinj hfresh) hnext
      fun visit hvisit => hmisses visit (List.mem_cons_of_mem _ hvisit)
    refine ⟨fun visit hvisit => ?_, hafter⟩
    rcases List.mem_cons.mp hvisit with rfl | hvisit
    · exact hnot
    · exact hrest visit hvisit

/-- BUG: the sync stage joins its candidates to the raw rows of its own scrape. Of any later runs,
    one lists the row of a job (the limit permitting) exactly when its scrape returns the job while
    it is unsynced; and runs that miss a waiting job, however many, never list it and leave it
    waiting. -/
theorem retried_iff_returned {host : Host} (hinj : Function.Injective host.newId)
    {runs : List ScheduledRun} (hhost : ∀ run ∈ runs, run.orchestrator.env.host = host)
    {db : Database} (hfresh : FreshRowIds host db.tables.jobs.normalizedJobs db.ticks) :
    (∀ identity, (∃ visit ∈ visits runs db, visit.Lists identity) ↔
      ∃ visit ∈ visits runs db, visit.Returns identity ∧ visit.Unsynced identity) ∧
    ∀ (w : BackendSyncWorker) (job : NormalizedJob) (raw : RawJob), Waiting w db job raw →
      (∀ visit ∈ visits runs db, visit.Misses job.identity raw) →
        (∀ visit ∈ visits runs db, ¬ visit.Lists job.identity) ∧
          Waiting w (afterRuns runs db) job raw := by
  refine ⟨fun identity => exists_congr fun visit => and_congr_right fun hvisit => ?_,
    fun w job raw => hidden_while_missed hinj hhost hfresh⟩
  obtain ⟨hsame, hids⟩ := freshRowIds_visits hinj hhost hfresh visit hvisit
  subst hsame
  exact Visit.lists_iff hinj hids

/-! ### A failed job that is not returned again -/

/-- The worker of the days below. -/
def smallWorker : BackendSyncWorker := plainWorker 3 fun _ _ => accepted

/-- A raw job of an earlier run, and its row. -/
def mondayRaw : RawJob := { deallsRaw "r1" "1" with scrapeRunId := "mon-scrape" }

def mondayJob : NormalizedJob :=
  { plainJob "n1" "Ac" 0 with externalId := "1", rawJobId := some "r1" }

def mondayJobs : JobTables := ⟨⟨[mondayRaw], by decide⟩, ⟨[mondayJob], by decide⟩⟩

/-- The failed event of that row: one attempt out of three. -/
def mondayEvent : SyncEvent :=
  { newEvent tallyHost 0 (smallWorker.keyOf mondayJobs mondayJob) mondayJob (some "mon-sync") with
    status := .failed
    attemptCount := 1 }

/-- What the run leaves. -/
def afterFailedSync : Database where
  tables := { jobs := mondayJobs }
  events := ⟨[mondayEvent], by simp⟩
  ticks := 5

/-- Two days that return other jobs. -/
def laterDays : List ScheduledRun :=
  [smallRun "tue" ["2"] 5 accepted, smallRun "wed" ["3"] 9 accepted]

theorem waiting_afterFailedSync : Waiting smallWorker afterFailedSync mondayJob mondayRaw := by
  refine ⟨rfl, rfl, rfl, List.mem_cons_self, ?_, ?_⟩ <;> decide +kernel

theorem host_laterDays : ∀ run ∈ laterDays, run.orchestrator.env.host = tallyHost := by
  intro run hrun
  rcases List.mem_cons.mp hrun with rfl | hrun
  · rfl
  · rw [List.mem_singleton.mp hrun]
    rfl

theorem fresh_afterFailedSync : FreshRowIds tallyHost
    afterFailedSync.tables.jobs.normalizedJobs afterFailedSync.ticks := by
  intro n _ row hrow hid
  rw [List.mem_singleton.mp hrow] at hid
  have hfirst := congrArg (fun id : String => id.toList.head?) hid
  cases n with
  | zero => exact absurd hfirst (by decide)
  | succ n => exact absurd hfirst (by simp [tallyHost, mondayJob, plainJob, List.replicate_succ])

/-- The later days store the jobs they return, and miss job `1`. -/
theorem written_laterDays : (visits laterDays afterFailedSync).map (fun visit =>
    (storedOf visit.kept).map writtenIdentity) = [[("dealls", "2")], [("dealls", "3")]] := by
  decide +kernel

theorem misses_laterDays :
    ∀ visit ∈ visits laterDays afterFailedSync, visit.Misses ("dealls", "1") mondayRaw := by
  intro visit hvisit
  have hwritten := written_laterDays ▸ List.mem_map_of_mem hvisit
  refine ⟨?_, ?_, lastWrite_eq_none_iff.mpr fun write hwrite hidentity => ?_⟩
  · revert visit
    decide +kernel
  · revert visit
    decide +kernel
  · have hmem := List.mem_map_of_mem (f := writtenIdentity) hwrite
    rw [hidentity] at hmem
    rcases List.mem_cons.mp hwritten with heq | heq
    · rw [heq] at hmem
      exact absurd hmem (by decide)
    · rw [List.mem_singleton.mp heq] at hmem
      exact absurd hmem (by decide)

/-- Job `1` has a failed event with attempts left, and no later day lists it. -/
theorem failed_job_hidden :
    afterFailedSync.events.find? (smallWorker.keyOf mondayJobs mondayJob) = some mondayEvent ∧
      mondayEvent.status = .failed ∧ isRetryableEvent mondayEvent smallWorker.maxAttempts = true ∧
      ∀ visit ∈ visits laterDays afterFailedSync, ¬ visit.Lists ("dealls", "1") :=
  ⟨Table.find?_of_mem (r := mondayEvent) List.mem_cons_self, rfl, rfl,
    (hidden_while_missed tallyHost_newId_injective host_laterDays fresh_afterFailedSync
      waiting_afterFailedSync misses_laterDays).1⟩

theorem retried_iff_returned_laterDays :
    ((∃ visit ∈ visits laterDays afterFailedSync, visit.Lists ("dealls", "1")) ↔
      ∃ visit ∈ visits laterDays afterFailedSync, visit.Returns ("dealls", "1") ∧
        visit.Unsynced ("dealls", "1")) ∧
    (∀ visit ∈ visits laterDays afterFailedSync, ¬ visit.Lists ("dealls", "1")) ∧
      Waiting smallWorker (afterRuns laterDays afterFailedSync) mondayJob mondayRaw :=
  ⟨(retried_iff_returned tallyHost_newId_injective host_laterDays fresh_afterFailedSync).1 _,
    (retried_iff_returned tallyHost_newId_injective host_laterDays fresh_afterFailedSync).2
      smallWorker mondayJob mondayRaw waiting_afterFailedSync misses_laterDays⟩

end Bisakerja
