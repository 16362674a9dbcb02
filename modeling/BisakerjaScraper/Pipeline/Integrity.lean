import BisakerjaScraper.Enrichment.Pending
import BisakerjaScraper.Persistence.References
import BisakerjaScraper.Pipeline.FailClosed

/-! What a stage session may do to the job tables.

    However a normalize stage or a run in one go ends, and whatever it rolls back on the way, the
    tables it shows and the tables it has committed meet their constraints, and hold every row of
    its start under its id. A write of the normalize stage points at a raw row of its scope, so the
    pointer is never to a row that a rollback took away. -/

namespace Bisakerja
open Schemes

/-- Both views of a session meet the constraints, and have only grown since `start`. -/
structure StageSession.Intact (start : JobTables) (s : StageSession) : Prop where
  tables : s.tables.jobs.Intact
  committed : s.committed.jobs.Intact
  growing : start.Grows s.tables.jobs
  grown : start.Grows s.committed.jobs

/-- Every job was written for one of the raw rows. -/
def WritesFor (rawJobs : RawJobs) (s : StageSession) : Prop :=
  ∀ write ∈ s.stored, write.1 ∈ rawJobs.rows

/-- The raw rows are those of the start, in both views. -/
def RawRowsOf (start : JobTables) (s : StageSession) : Prop :=
  s.tables.jobs.rawJobs = start.rawJobs ∧ s.committed.jobs.rawJobs = start.rawJobs

namespace StageSession

variable {start : JobTables} {s s' : StageSession}

theorem stored_eq (h : s'.history = s.history) : s'.stored = s.stored := by
  unfold stored
  rw [h]

theorem Intact.begin (hstart : start.Intact) {tables : StageTables} (h : tables.jobs = start)
    (platform : String) (calls ticks : ℕ) :
    (StageSession.begin tables platform calls ticks).Intact start := by
  subst h
  exact ⟨hstart, hstart, .refl _, .refl _⟩

/-- Nothing but the two views counts. -/
theorem Intact.congr (h : s.Intact start) (htables : s'.tables.jobs = s.tables.jobs)
    (hcommitted : s'.committed.jobs = s.committed.jobs) : s'.Intact start :=
  ⟨htables ▸ h.tables, hcommitted ▸ h.committed, htables ▸ h.growing, hcommitted ▸ h.grown⟩

theorem Intact.rollback (h : s.Intact start) : s.rollback.Intact start :=
  ⟨h.committed, h.committed, h.grown, h.grown⟩

theorem Intact.commit (h : s.Intact start) : s.commit.Intact start :=
  ⟨h.tables, h.tables, h.growing, h.growing⟩

/-- A write that points at a raw row. -/
theorem Intact.upsert (h : s.Intact start) (host : StageHost) {raw : RawJob}
    (hraw : some raw.id ∈ s.tables.jobs.rawJobs.stamps (some ∘ RawJob.id))
    (job : CanonicalJobSchema) : (s.upsert host raw job).2.Intact start := by
  obtain ⟨hintact, hgrows⟩ := intact_upsertNormalizedJob (s := { tables := s.tables.jobs, ticks := s.ticks })
    host.host host.isoformat job h.tables hraw
  exact ⟨hintact, h.committed, h.growing.trans hgrows, h.grown⟩

/-- While every write is for a raw row of the start, the session is intact. -/
theorem Intact.kept (host : StageHost) (q : Bool) (start : JobTables) :
    KeptByAction host q fun s => WritesFor start.rawJobs s → s.Intact start where
  noted s s' htables hcommitted hhistory _ hs hwrites := by
    unfold WritesFor at hwrites
    rw [stored_eq hhistory] at hwrites
    exact (hs hwrites).congr (congrArg StageTables.jobs htables) (congrArg StageTables.jobs hcommitted)
  rolledBack s hs hwrites := by
    unfold WritesFor at hwrites
    rw [(quiet_rollback (q := q) (s := s) (Nat.le_refl _)).stored] at hwrites
    exact (hs hwrites).rollback
  committed s hs hwrites := by
    unfold WritesFor at hwrites
    rw [(quiet_commit (q := q) s).stored] at hwrites
    exact (hs hwrites).commit
  stored s raw job hs hwrites := by
    unfold WritesFor at hwrites
    rw [stored_upsert] at hwrites
    have hintact := hs fun write hwrite => hwrites write (List.mem_append_left _ hwrite)
    have hraw := hwrites (raw, job) (List.mem_append_right _ List.mem_cons_self)
    exact hintact.upsert host (rawId_of_grows hintact.growing.rawJobs (Table.stamp_mem hraw)) job
  logged s log hs hwrites := (hs hwrites).congr rfl rfl
  quarantined _ s rows hs hwrites := (hs hwrites).congr rfl rfl

theorem Intact.keptByDecided (start : JobTables) :
    KeptByDecided fun s => WritesFor start.rawJobs s → s.Intact start := by
  intro s rows decisions _ hs hwrites
  unfold WritesFor at hwrites
  rw [stored_of_decided (s := s) rfl] at hwrites
  exact (hs hwrites).congr rfl rfl

end StageSession

/-- The normalize stage writes no raw rows. -/
theorem RawRowsOf.kept (host : StageHost) (q : Bool) (start : JobTables) :
    KeptByAction host q (RawRowsOf start) where
  noted s s' htables hcommitted _ _ hs := by
    unfold RawRowsOf
    rw [htables, hcommitted]
    exact hs
  rolledBack _ hs := ⟨hs.2, hs.2⟩
  committed _ hs := ⟨hs.1, hs.1⟩
  stored _ raw job hs := ⟨(upsertNormalizedJob_rawJobs _ _ _ _ _).trans hs.1, hs.2⟩
  logged _ _ hs := hs
  quarantined _ _ _ hs := hs

theorem RawRowsOf.keptByDecided (start : JobTables) : KeptByDecided (RawRowsOf start) :=
  fun _ _ _ _ hs => hs

/-! ### The normalize stage writes for its scope -/

namespace PipelineOrchestrator

variable {o : PipelineOrchestrator} {start : JobTables}

/-- The session between two sources: nothing is pending. -/
structure Between (start : JobTables) (s : StageSession) : Prop where
  writes : WritesFor start.rawJobs s
  rawRows : RawRowsOf start s
  committed : s.committed.jobs = s.tables.jobs

theorem between_dbOperation {α : Type} {h : StageHost} {Q : α → StageSession → Prop}
    {operation : StageSession → α × StageSession}
    (hop : ∀ s, Between start s → Q (operation s).1 (operation s).2) :
    Triple (Between start) (dbOperation h operation) Q (fun _ => WritesFor start.rawJobs) :=
  triple_dbOperation (fun _ hs => hop _ ⟨hs.writes, hs.rawRows, hs.committed⟩) fun _ hs _ => hs.writes

/-- The gate lets raw jobs of the scope through and writes no job. -/
theorem between_gate (runId : String) (rawJobs : List RawJob) :
    Triple (Between start) (o.gate runId rawJobs)
      (fun eligible s => Between start s ∧ eligible.Sublist rawJobs)
      (fun _ => WritesFor start.rawJobs) := by
  unfold gate
  cases o.eligibilityResolver with
  | none => exact .ite (fun _ => .raise fun _ => Between.writes) fun _ => .pure fun s hs => ⟨hs, .refl _⟩
  | some text =>
    refine ((Triple.ofExcept _).weaken_error fun _ _ => Between.writes).bind fun existing => ?_
    refine .of_fact fun _ => ?_
    refine Triple.bind (Q := fun _ => Between start) ?_ fun decisions =>
      Triple.bind (Q := fun _ => Between start)
        (.change fun s hs => ⟨hs.writes, hs.rawRows, hs.committed⟩)
          fun _ => .pure fun s hs => ⟨hs, sublist_eligibleRawJobs _ _⟩
    refine between_dbOperation fun s hs => ⟨?_, hs.rawRows, hs.committed⟩
    unfold WritesFor
    rw [stored_of_decided (s := s) rfl]
    exact hs.writes

/-- One turn without an AI client. -/
theorem writesFor_normalizeMapped {raw : RawJob} (hraw : raw ∈ start.rawJobs.rows) :
    Keeps (WritesFor start.rawJobs) (o.normalizeMapped raw) := by
  have hkept : KeptByQuiet o.hasQuarantine (WritesFor start.rawJobs) := by
    intro s s' hquiet hs
    unfold WritesFor
    rw [hquiet.stored]
    exact hs
  have hstore : Keeps (WritesFor start.rawJobs) (o.storeMapped raw) := by
    refine (Keeps.ofExcept _).bind fun mapped => ?_
    have hupsert : Keeps (WritesFor start.rawJobs) (upsertNormalizedJobWithRetry o.env raw mapped) := by
      refine hkept.dbOperationWithRetry fun s hs write hwrite => ?_
      rw [stored_upsert, List.mem_append] at hwrite
      rcases hwrite with hold | hnew
      · exact hs write hold
      · rw [List.mem_singleton.mp hnew]
        exact hraw
    exact hupsert.bind fun _ => Keeps.bind (hkept.resolve o.toNormalizeStage raw) fun _ =>
      .change fun _ hs => hs
  refine hstore.attempt.bind fun result => ?_
  cases result with
  | ok _ => exact .pure _
  | error exc => exact hkept.recordNormalizeFailure o.toNormalizeStage raw exc

/-- Behind the gate every job is written for a raw job that was let through, however it ends. -/
theorem writesFor_normalizeEligible {eligible : List RawJob}
    (heligible : ∀ raw ∈ eligible, raw ∈ start.rawJobs.rows)
    (hnodup : (eligible.map RawJob.id).Nodup) :
    Triple (Between start) (o.normalizeEligible eligible) (fun _ => WritesFor start.rawJobs)
      (fun _ => WritesFor start.rawJobs) := by
  unfold normalizeEligible
  refine .ite (fun _ => ?_) fun _ => ?_
  · intro s hs
    have hstart : o.Holds eligible s o.Complete s := by
      refine ⟨[], ⟨by simp, by simp, by simp, fun identity _ => ⟨rfl, ?_⟩⟩,
        by simp [NormalizeStage.Complete]⟩
      rw [hs.committed]
    have hrun := NormalizeStage.triple_normalizeSourceWithAiBatch hnodup s hstart
    have htraced : ∀ (s' : StageSession) (J : List NormalizeEvent), o.Trace eligible s s' J →
        WritesFor start.rawJobs s' := by
      intro s' J htrace write hwrite
      rw [htrace.stored, List.mem_append] at hwrite
      rcases hwrite with hold | hnew
      · exact hs.writes write hold
      · obtain ⟨event, hevent, hwrote⟩ := List.mem_filterMap.mp hnew
        cases event with
        | accepted prompt output => cases hwrote
        | wrote raw job =>
          cases hwrote
          exact heligible raw (htrace.origin raw job hevent).1
    revert hrun
    rcases o.normalizeSourceWithAiBatch eligible s with ⟨exc | _, s'⟩
    · rintro ⟨J, htrace, -⟩
      exact htraced s' J htrace
    · rintro ⟨J, htrace, -⟩
      exact htraced s' J htrace
  · exact (Triple.forEach_inv eligible fun raw hraw =>
      writesFor_normalizeMapped (heligible raw hraw)).conseq (fun _ => Between.writes)
        (fun _ _ hs => hs) fun _ _ hs => hs

/-- A source writes for raw rows of the start, however it ends. -/
theorem writesFor_normalizeSource (runId : String) :
    Triple (Between start) (o.normalizeSource runId) (fun _ => Between start)
      (fun _ => WritesFor start.rawJobs) := by
  refine Triple.bind (Q := fun rawJobs s => Between start s ∧
    ((∀ raw ∈ rawJobs, raw ∈ start.rawJobs.rows) ∧ (rawJobs.map RawJob.id).Nodup)) ?_
    fun rawJobs => .of_fact fun hscope => ?_
  · refine between_dbOperation fun s hs => ⟨hs, fun raw hraw => ?_, (scoped_scope runId _).nodup⟩
    unfold scope normalizeScope at hraw
    rw [List.mem_insertionSort, List.mem_filter, hs.rawRows.1] at hraw
    exact hraw.1
  refine Triple.bind (Q := fun _ => Between start)
    (.change fun s hs => ⟨hs.writes, hs.rawRows, hs.committed⟩) fun _ => ?_
  refine (between_gate runId rawJobs).bind fun eligible => .of_fact fun hsub => ?_
  have hnormalize : Triple (Between start) (o.normalizeEligible eligible)
      (fun _ s => WritesFor start.rawJobs s ∧ RawRowsOf start s) (fun _ => WritesFor start.rawJobs) :=
    ((writesFor_normalizeEligible (fun raw hraw => hscope.1 raw (hsub.subset hraw))
      (hscope.2.sublist (hsub.map _))).and
        ((RawRowsOf.kept o.env o.hasQuarantine start).normalizeEligible eligible)).conseq
      (fun _ hs => ⟨hs, hs.rawRows⟩) (fun _ _ => id) fun _ _ => And.left
  refine hnormalize.bind fun _ => ?_
  refine Triple.bind (Q := fun _ => Between start) ?_ fun _ =>
    .change fun s hs => ⟨hs.writes, hs.rawRows, hs.committed⟩
  refine triple_dbOperation (fun s hs => ⟨?_, ⟨hs.2.1, hs.2.1⟩, rfl⟩) fun s hs _ => hs.1
  unfold WritesFor
  rw [(quiet_commit (q := false) { s with ticks := s.ticks + 1 }).stored]
  exact hs.1

theorem writesFor_normalizeSources (runId : String) (sources : List NormalizeSource) :
    Triple (Between start) (o.normalizeSources runId sources) (fun _ => Between start)
      (fun _ => WritesFor start.rawJobs) := by
  induction sources with
  | nil => exact .pure fun _ => id
  | cons source rest ih =>
    refine Triple.bind (Q := fun _ => Between start)
      (.change fun s hs => ⟨hs.writes, hs.rawRows, hs.committed⟩) fun _ => ?_
    refine (writesFor_normalizeSource (o := o.withSource source) runId).bind fun _ => ?_
    refine Triple.bind (Q := fun _ => Between start) (.update fun _ => id) fun _ => ?_
    exact ih.bind fun _ => .pure fun _ => id

/-- A normalize run leaves both views intact, whether it returns or raises. -/
theorem intact_normalizeSources (runId : String) (sources : List NormalizeSource)
    {tables : StageTables} (h : tables.jobs.Intact) (platform : String) (calls ticks : ℕ) :
    (o.normalizeSources runId sources (.begin tables platform calls ticks)).2.Intact tables.jobs := by
  have hwrites : WritesFor tables.jobs.rawJobs
      (o.normalizeSources runId sources (.begin tables platform calls ticks)).2 :=
    ((writesFor_normalizeSources runId sources).conseq (fun _ => id) (fun _ _ => Between.writes)
      fun _ _ => id).of_run
        (⟨fun _ hwrite => absurd hwrite List.not_mem_nil, ⟨rfl, rfl⟩, rfl⟩ : Between tables.jobs _)
  exact (o.keeps_normalizeSources (StageSession.Intact.kept _ _ tables.jobs)
    (StageSession.Intact.keptByDecided tables.jobs) runId sources).of_run
      (fun _ => .begin h rfl platform calls ticks) hwrites

end PipelineOrchestrator

/-! ### A source in one go -/

namespace SourceRun

variable {run : SourceRun} {start : JobTables} {s : StageSession}

/-- `write_job` stores the raw row first and points the job at it. -/
theorem intact_written (h : s.Intact start) (raw : LiveRawJob) (job : CanonicalJobSchema) :
    (run.written raw job s).Intact start := by
  obtain ⟨hintact, hgrows, hid⟩ := intact_upsertRawJob
    (s := { tables := s.tables.jobs, ticks := s.ticks }) run.scrape.host run.scrape.hash
    (ScrapeSource.rawInputFrom run.scrape raw s.ticks) h.tables
  unfold written
  refine StageSession.Intact.upsert ?_ _ ?_ job
  · exact ⟨hintact, h.committed, h.growing.trans hgrows, h.grown⟩
  · exact hid

theorem intact_writeJob (raw : LiveRawJob) (job : CanonicalJobSchema) :
    Keeps (StageSession.Intact start) (run.writeJob raw job) := by
  intro s hs
  have hticked : { s with ticks := s.ticks + 1 }.Intact start := hs.congr rfl rfl
  unfold writeJob
  dsimp only
  by_cases hfails : run.orchestrator.env.operationalError s.ticks = true
  · rw [if_pos hfails]
    exact hticked.rollback
  · rw [if_neg hfails]
    by_cases hopen : run.inTransaction s.ticks = true
    · rw [if_pos hopen]
      exact intact_written hticked raw job
    · rw [if_neg hopen]
      exact (intact_written hticked raw job).commit

theorem intact_mapOne (raw : LiveRawJob) : Keeps (StageSession.Intact start) (run.mapOne raw) := by
  have hnormalize : ∀ prompt, Keeps (StageSession.Intact start)
      (run.orchestrator.client.normalizeJob prompt) := fun prompt =>
    (Keeps.update fun _ hs => hs.congr rfl rfl).bind fun _ => (Keeps.ofExcept _).bind fun _ =>
      (Keeps.ofExcept _).bind fun _ => (Keeps.change fun _ hs => hs.congr rfl rfl).bind fun _ => .pure _
  refine (Keeps.update fun _ hs => hs.congr rfl rfl).bind fun scrapedAt => ?_
  refine (Keeps.ofExcept _).bind fun mapped => .ite ((Keeps.ofExcept _).bind fun prompt => ?_) (.pure _)
  cases prompt with
  | none => exact .pure _
  | some prompt => exact (hnormalize prompt).handle fun _ => .raise _

theorem intact_mapAll (raws : List LiveRawJob) :
    Keeps (StageSession.Intact start) (run.mapAll raws) := by
  induction raws with
  | nil => exact .pure _
  | cons raw rest ih => exact (intact_mapOne raw).attempt.bind fun _ => ih.bind fun _ => .pure _

/-- `_run_source`, however it ends. -/
theorem intact_runSource : Keeps (StageSession.Intact start) run.runSource := by
  have hresult : ∀ f, Keeps (StageSession.Intact start) (changeResult f) := fun f =>
    .change fun _ hs => hs.congr rfl rfl
  have hbody : Keeps (StageSession.Intact start) run.body := by
    refine (Keeps.ofExcept _).bind fun (fetched, ordered) => (hresult _).bind fun _ => ?_
    refine (intact_mapAll ordered).bind fun results => (Keeps.ofExcept _).bind fun mapped => ?_
    refine (hresult _).bind fun _ => Keeps.bind (.forEach _ fun entry _ => ?_) fun _ =>
      (Keeps.ofExcept _).bind fun _ => hresult _
    exact (intact_writeJob entry.1 entry.2).bind fun _ => hresult _
  refine hbody.attempt.bind fun result => ?_
  cases result with
  | ok _ => exact .pure _
  | error exc => exact (hresult _).bind fun _ => .ite (.pure _) (.raise _)

end SourceRun

end Bisakerja
