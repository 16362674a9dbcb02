import BisakerjaScraper.Enrichment.Service
import BisakerjaScraper.Pipeline.Identity
import BisakerjaScraper.Pipeline.Passes

/-! Which jobs are still to be enriched.

    Normalize runs and enrichment batches take turns on the same tables. An enrichment marks its
    job in the log by a success; so does a normalize run that asked the AI, and the next batch takes
    its job for enriched. -/

namespace Bisakerja
open Schemes

/-! ### Histories -/

/-- A normalize run on all its sources. -/
structure NormalizeRun where
  orchestrator : PipelineOrchestrator
  runId : String
  sources : List NormalizeSource
  calls : ℕ := 0
  ticks : ℕ := 0

/-- A call of `enrich_pending_batch`. -/
structure EnrichmentRun where
  casefold : String → String
  service : EnrichmentService casefold
  scrapeRunId : Option String
  calls : ℕ := 0
  ticks : ℕ := 0

/-- The tables a normalize run leaves behind, whether it returns or raises. -/
def NormalizeRun.after (run : NormalizeRun) (tables : StageTables) : StageTables :=
  (run.orchestrator.normalizeSources run.runId run.sources
    (.begin tables "all" run.calls run.ticks)).2.committed

/-- The jobs whose AI normalization the run has logged as a success. -/
def NormalizeRun.succeeded (run : NormalizeRun) (tables : StageTables) : List String :=
  (run.after tables).succeeded.drop tables.succeeded.length

/-- A batch and what it leaves behind. -/
def EnrichmentRun.batch (run : EnrichmentRun) (tables : StageTables) :
    EnrichmentBatchResult × EnrichmentSession :=
  run.service.enrichPendingBatch run.scrapeRunId
    { tables := tables, calls := run.calls, ticks := run.ticks }

/-- What happens to the tables. A scrape only changes the raw rows. -/
inductive EnrichmentStep where
  | normalized (run : NormalizeRun)
  | enriched (run : EnrichmentRun)
  | scraped (rawJobs : RawJobs)

/-- The tables, and the jobs for which an enrichment or an AI normalization has succeeded. -/
structure EnrichmentState where
  tables : StageTables
  enriched : List String := []
  normalized : List String := []

namespace EnrichmentState

def step (s : EnrichmentState) : EnrichmentStep → EnrichmentState
  | .normalized run =>
    { s with
      tables := run.after s.tables
      normalized := s.normalized ++ run.succeeded s.tables }
  | .enriched run =>
    { s with
      tables := (run.batch s.tables).2.tables
      enriched := s.enriched ++ succeededOf (run.batch s.tables).1.results }
  | .scraped rawJobs =>
    { s with tables := { s.tables with jobs := { s.tables.jobs with rawJobs } } }

/-- The state after a history that began with some jobs and an empty log. -/
def after (jobs : JobTables) (history : List EnrichmentStep) : EnrichmentState :=
  history.foldl step { tables := { jobs } }

/-- The jobs still to be enriched: they lack staging rows, and no enrichment has succeeded. -/
def pending (s : EnrichmentState) : List NormalizedJob :=
  (s.tables.jobs.normalizedJobs.rows.filter fun job =>
    job.id ∉ s.enriched && lacksStaging job).insertionSort newestFirst

end EnrichmentState

/-! ### What a normalize run leaves alone -/

/-- The log has only grown, and every row is there with its staging rows. -/
structure StageTables.Extends (start tables : StageTables) : Prop where
  log : start.aiRequestLogs <+: tables.aiRequestLogs
  rows : ∀ row ∈ start.jobs.normalizedJobs.rows, ∃ row' ∈ tables.jobs.normalizedJobs.rows,
    row'.id = row.id ∧ lacksStaging row' = lacksStaging row

namespace StageTables.Extends

variable {start tables : StageTables}

theorem refl (tables : StageTables) : tables.Extends tables :=
  ⟨List.prefix_refl _, fun row hrow => ⟨row, hrow, rfl, rfl⟩⟩

/-- What the log reported before, it reports first. -/
theorem succeeded (h : start.Extends tables) : start.succeeded <+: tables.succeeded :=
  h.log.filterMap _

theorem logged (h : start.Extends tables) (log : AIRequestLog) :
    start.Extends { tables with aiRequestLogs := tables.aiRequestLogs ++ [log] } :=
  ⟨h.log.trans (List.prefix_append _ _), h.rows⟩

/-- Writing a job leaves the staging rows of every job alone. -/
theorem upsert (h : start.Extends tables) (host : Host) (isoformat : Time → String)
    (job : CanonicalJobSchema) (rawJobId : Option String) (ticks : ℕ) :
    start.Extends { tables with jobs := (upsertNormalizedJob host isoformat job rawJobId
      { tables := tables.jobs, ticks }).2.tables } := by
  refine ⟨h.log, fun row hrow => ?_⟩
  obtain ⟨row', hrow', hid, hlacks⟩ := h.rows row hrow
  unfold upsertNormalizedJob
  split
  · refine ⟨row', ?_, hid, hlacks⟩
    unfold Table.insert
    dsimp only
    split
    · exact hrow'
    · exact List.mem_append_left _ hrow'
  · next existing _ =>
    refine ⟨_, (Table.mem_modify _ _ _ (NormalizedJob.rewrite_id isoformat job rawJobId)).mpr
      ⟨row', hrow', rfl⟩, ?_, ?_⟩ <;> split
    · exact hid
    · exact hid
    · exact hlacks
    · exact hlacks

end StageTables.Extends

/-- Both views of a stage extend the tables it began with. -/
def StageSession.Extends (start : StageTables) (s : StageSession) : Prop :=
  start.Extends s.tables ∧ start.Extends s.committed

theorem StageSession.Extends.kept (h : StageHost) (q : Bool) (start : StageTables) :
    KeptByAction h q (StageSession.Extends start) where
  noted s s' htables hcommitted _ _ hs := by
    unfold StageSession.Extends
    rw [htables, hcommitted]
    exact hs
  rolledBack _ hs := ⟨hs.2, hs.2⟩
  committed _ hs := ⟨hs.1, hs.1⟩
  stored _ raw job hs := ⟨hs.1.upsert h.host h.isoformat job (some raw.id) _, hs.2⟩
  logged _ log hs := ⟨hs.1.logged log, hs.2⟩
  quarantined _ _ _ hs := ⟨⟨hs.1.log, hs.1.rows⟩, hs.2⟩

theorem StageSession.Extends.keptByDecided (start : StageTables) :
    KeptByDecided (StageSession.Extends start) :=
  fun _ _ _ _ hs => ⟨⟨hs.1.log, hs.1.rows⟩, hs.2⟩

/-- A normalize run only adds to the log, and keeps all jobs. -/
theorem NormalizeRun.extends_after (run : NormalizeRun) (tables : StageTables) :
    tables.Extends (run.after tables) :=
  ((run.orchestrator.keeps_normalizeSources (StageSession.Extends.kept _ _ tables)
    (StageSession.Extends.keptByDecided tables) run.runId run.sources).of_run
      ⟨.refl tables, .refl tables⟩).2

theorem NormalizeRun.succeeded_after (run : NormalizeRun) (tables : StageTables) :
    (run.after tables).succeeded = tables.succeeded ++ run.succeeded tables :=
  (List.prefix_iff_eq_append.mp (run.extends_after tables).succeeded).symm

/-! ### What the log reports -/

/-- The log reports the enrichments that succeeded and the AI normalizations that did. -/
def EnrichmentState.LogComplete (s : EnrichmentState) : Prop :=
  ∀ id, id ∈ s.tables.succeeded ↔ id ∈ s.enriched ∨ id ∈ s.normalized

theorem EnrichmentState.LogComplete.step {s : EnrichmentState} (h : s.LogComplete)
    (event : EnrichmentStep) : (s.step event).LogComplete := by
  intro id
  have hid := h id
  cases event with
  | normalized run =>
    simp only [EnrichmentState.step, run.succeeded_after, List.mem_append, hid, or_assoc]
  | enriched run =>
    have hbatch : (run.batch s.tables).2.tables.succeeded
        = s.tables.succeeded ++ succeededOf (run.batch s.tables).1.results :=
      run.service.succeeded_enrichAll _ _ _
    simp only [EnrichmentState.step, hbatch, List.mem_append, hid]
    tauto
  | scraped rawJobs => exact hid

theorem EnrichmentState.logComplete_after (jobs : JobTables) (history : List EnrichmentStep) :
    (EnrichmentState.after jobs history).LogComplete := by
  have hrun : ∀ (rest : List EnrichmentStep) (s : EnrichmentState), s.LogComplete →
      (rest.foldl EnrichmentState.step s).LogComplete := by
    intro rest
    induction rest with
    | nil => exact fun _ h => h
    | cons event rest ih => exact fun s h => ih _ (h.step event)
  exact hrun history _ fun id => by simp [StageTables.succeeded]

/-! ### What is listed -/

/-- A job is on the list, however far down. -/
def StageTables.Listed (tables : StageTables) (id : String) : Prop :=
  ∃ limit, ∃ job ∈ tables.listUnenrichedJobs limit, job.id = id

theorem StageTables.listed_iff {tables : StageTables} {id : String} :
    tables.Listed id ↔ id ∉ tables.succeeded ∧
      ∃ job ∈ tables.jobs.normalizedJobs.rows, job.id = id ∧ lacksStaging job = true := by
  constructor
  · rintro ⟨limit, job, hjob, rfl⟩
    have hmem := (List.mem_insertionSort _).mp (List.mem_of_mem_take hjob)
    simp only [List.mem_filter, Bool.and_eq_true, decide_eq_true_eq] at hmem
    exact ⟨hmem.2.1, job, hmem.1, rfl, hmem.2.2⟩
  · rintro ⟨hlog, job, hjob, rfl, hlacks⟩
    refine ⟨(tables.jobs.normalizedJobs.rows.filter fun job =>
      job.id ∉ tables.succeeded && lacksStaging job).length, job, ?_, rfl⟩
    unfold StageTables.listUnenrichedJobs
    rw [List.take_of_length_le (List.length_insertionSort _ _).le, List.mem_insertionSort,
      List.mem_filter]
    simp [hjob, hlog, hlacks]

/-- Two sorted selections of the same rows agree up to every limit when they select the same. -/
theorem take_insertionSort_filter_iff {rows : List NormalizedJob} {p q : NormalizedJob → Bool} :
    (∀ limit, ((rows.filter p).insertionSort newestFirst).take limit
      = ((rows.filter q).insertionSort newestFirst).take limit) ↔ ∀ job ∈ rows, p job = q job := by
  constructor
  · intro h job hjob
    have hall := h (rows.filter p ++ rows.filter q).length
    rw [List.take_of_length_le (by simp), List.take_of_length_le (by simp)] at hall
    have hmem : job ∈ (rows.filter p).insertionSort newestFirst ↔
        job ∈ (rows.filter q).insertionSort newestFirst := by rw [hall]
    rw [Bool.eq_iff_iff]
    simpa [hjob] using hmem
  · intro h limit
    rw [List.filter_congr h]

/-- BUG: the list reads every success in the log as an enrichment. After any history it lists the
    jobs still to be enriched exactly when no AI normalization has succeeded for one of them, and a
    normalize run keeps a job on the list exactly when none of its successes is for that job. -/
theorem lists_pending_iff (jobs : JobTables) (history : List EnrichmentStep) :
    ((∀ limit, (EnrichmentState.after jobs history).tables.listUnenrichedJobs limit
        = (EnrichmentState.after jobs history).pending.take limit) ↔
      ∀ job ∈ (EnrichmentState.after jobs history).tables.jobs.normalizedJobs.rows,
        lacksStaging job = true → job.id ∈ (EnrichmentState.after jobs history).normalized →
          job.id ∈ (EnrichmentState.after jobs history).enriched) ∧
    ∀ (run : NormalizeRun) (id : String),
      (EnrichmentState.after jobs history).tables.Listed id →
        ((run.after (EnrichmentState.after jobs history).tables).Listed id ↔
          id ∉ run.succeeded (EnrichmentState.after jobs history).tables) := by
  have hlog := EnrichmentState.logComplete_after jobs history
  generalize EnrichmentState.after jobs history = s at hlog ⊢
  constructor
  · refine take_insertionSort_filter_iff.trans (forall₂_congr fun job _ => ?_)
    have hid := hlog job.id
    rw [Bool.eq_iff_iff]
    simp only [Bool.and_eq_true, decide_eq_true_eq, hid, not_or]
    tauto
  · intro run id hlisted
    obtain ⟨hnone, job, hjob, hjobid, hlacks⟩ := StageTables.listed_iff.mp hlisted
    rw [StageTables.listed_iff, run.succeeded_after]
    constructor
    · rintro ⟨hafter, -⟩ hmem
      exact hafter (List.mem_append_right _ hmem)
    · intro hmem
      obtain ⟨job', hjob', hid', hlacks'⟩ := (run.extends_after s.tables).rows job hjob
      refine ⟨?_, job', hjob', hid'.trans hjobid, hlacks'.trans hlacks⟩
      simp [hnone, hmem]

/-! ### One normalize run -/

/-- A normalize run on one source, whose AI answers raw job `1`. -/
def oneAnswer : NormalizeRun where
  orchestrator :=
    { answeringStage ⟨"1", one_ne_empty⟩ with
      eligibilityResolver := none
      syncEvents := Table.empty _
      backend := ⟨Table.empty _, []⟩
      backendIdentityLookup := .notConfigured }
  runId := "d"
  sources := [(answeringStage ⟨"1", one_ne_empty⟩).source]

/-- After this run alone its job is still to be enriched, and is not listed. -/
theorem normalized_job_not_listed :
    let s := EnrichmentState.after oneRawJob.tables.jobs [.normalized oneAnswer]
    (¬ ∀ limit, s.tables.listUnenrichedJobs limit = s.pending.take limit) ∧
      s.pending.map NormalizedJob.externalId = ["1", "9"] ∧
      (s.tables.listUnenrichedJobs 10).map NormalizedJob.externalId = ["9"] := by
  intro s
  have hpending : s.pending.map NormalizedJob.externalId = ["1", "9"] := by decide +kernel
  have hlisted : (s.tables.listUnenrichedJobs 10).map NormalizedJob.externalId = ["9"] := by
    decide +kernel
  refine ⟨fun h => ?_, hpending, hlisted⟩
  rw [h 10, List.map_take, hpending] at hlisted
  simp at hlisted

end Bisakerja
