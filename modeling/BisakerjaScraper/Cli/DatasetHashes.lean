import BisakerjaScraper.Cli.DatasetRows

/-! Row hashes and the content of a job.

    The hash of a row is taken over all its columns, the time of the export and the staleness at
    that time among them. So it tells contents apart, but two exports of one content share a
    job's hash exactly when they show the same export time and the same staleness. -/

namespace Bisakerja
open Schemes

namespace DatasetExport

variable (run : DatasetExport)

/-- The hash a job is exported with. -/
def rowHash (times : ExportTimes) (job : JobInput) : Cell :=
  run.text.cellOf (run.jobRow times job) "dataset_row_hash"

/-- Two exports of a content give every job one hash. -/
def SameHashes (db : DatasetContent) (options : DatasetExportOptions) (times times' : ExportTimes) :
    Prop :=
  ∀ job ∈ run.jobInputs db options, run.rowHash times job = run.rowHash times' job

/-- Rows of jobs that differ in a column have different hashes. -/
def TellsContentApart : Prop :=
  ∀ (times times' : ExportTimes) (job job' : JobInput), ∀ column ∈ jobListingsColumns,
    column ≠ "dataset_row_hash" →
    run.text.cellOf (run.jobRow times job) column
      ≠ run.text.cellOf (run.jobRow times' job') column →
    run.rowHash times job ≠ run.rowHash times' job'

/-- The jobs look as stale at the times of one export as at those of another. -/
def SameStaleness (jobs : List DbRow) (times times' : ExportTimes) : Prop :=
  ∀ base ∈ jobs, run.text.isStale base run.staleAfterHours (times.now base)
    = run.text.isStale base run.staleAfterHours (times'.now base)

variable {run} {times times' : ExportTimes} {job job' : JobInput}

/-- The row of a job before its hash. -/
abbrev columnsOf (run : DatasetExport) (times : ExportTimes) (job : JobInput) : ExportRow :=
  run.text.jobColumns job.base (run.aggregatesOf times job) job.signal times.exportedAt

theorem rowHash_eq (run : DatasetExport) (times : ExportTimes) (job : JobInput) :
    run.rowHash times job
      = .text (run.stableRowHash (run.columnsOf times job) jobListingsColumns) := by
  rw [rowHash, jobRow, buildJobListingRow, DatasetText.cellOf, Columns.getD, Columns.lookup_update,
    List.lookup_cons_self]
  rfl

/-- The hash is no part of the other columns. -/
theorem cellOf_jobRow {column : String} (h : column ≠ "dataset_row_hash") :
    run.text.cellOf (run.jobRow times job) column
      = run.text.cellOf (run.columnsOf times job) column :=
  DatasetText.cellOf_update_of_ne h

/-- Equal hashes are those of rows with equal cells. -/
theorem rowHash_eq_iff (hinj : Function.Injective run.sha256) :
    run.rowHash times job = run.rowHash times' job' ↔
      ∀ column ∈ jobListingsColumns,
        run.text.cellOf (run.columnsOf times job) column
          = run.text.cellOf (run.columnsOf times' job') column := by
  rw [rowHash_eq, rowHash_eq, Cell.text.injEq]
  have hpayload : run.stableRowHash (run.columnsOf times job) jobListingsColumns
        = run.stableRowHash (run.columnsOf times' job') jobListingsColumns ↔
      run.text.hashPayload (run.columnsOf times job) jobListingsColumns
        = run.text.hashPayload (run.columnsOf times' job') jobListingsColumns :=
    (hinj.comp dumps_injective).eq_iff
  rw [hpayload, DatasetText.hashPayload, DatasetText.hashPayload, List.map_inj_left]
  simp only [List.mem_insertionSort, Prod.mk.injEq, true_and]

/-- Two exports give a job one hash exactly when they show one time and one staleness. -/
theorem rowHash_again_iff (hinj : Function.Injective run.sha256) :
    run.rowHash times job = run.rowHash times' job ↔
      run.text.isoformat times.exportedAt = run.text.isoformat times'.exportedAt ∧
      run.text.isStale job.base run.staleAfterHours (times.now job.base)
        = run.text.isStale job.base run.staleAfterHours (times'.now job.base) := by
  rw [rowHash_eq_iff hinj]
  constructor
  · intro hcells
    have htime := hcells "dataset_exported_at" (by decide)
    have hstale := hcells "is_stale" (by decide)
    simp only [columnsOf, aggregatesOf, DatasetText.cellOf_exportedAt, Cell.text.injEq] at htime
    simp only [columnsOf, aggregatesOf, DatasetText.cellOf_isStale, Cell.text.injEq] at hstale
    refine ⟨htime, ?_⟩
    generalize run.text.isStale job.base run.staleAfterHours (times.now job.base) = a at hstale ⊢
    generalize run.text.isStale job.base run.staleAfterHours (times'.now job.base) = b at hstale ⊢
    revert a b
    decide
  · rintro ⟨htime, hstale⟩ column -
    have hbase : run.text.baseColumns job.base times.exportedAt
        = run.text.baseColumns job.base times'.exportedAt := by
      have hiso : run.text.isoUtc (.time times.exportedAt)
          = run.text.isoUtc (.time times'.exportedAt) := htime
      rw [DatasetText.baseColumns, DatasetText.baseColumns, hiso]
    have hagg : run.aggregatesOf times job = run.aggregatesOf times' job :=
      DatasetText.buildAggregates_congr hstale
    rw [columnsOf, columnsOf, DatasetText.jobColumns, DatasetText.jobColumns, hbase, hagg]

/-- A digest that tells texts apart tells contents apart. -/
theorem tellsContentApart (hinj : Function.Injective run.sha256) : run.TellsContentApart := by
  intro times times' job job' column hmem hne hcell hhash
  rw [cellOf_jobRow hne, cellOf_jobRow hne] at hcell
  exact hcell ((rowHash_eq_iff hinj).mp hhash column hmem)

/-- The jobs of an export are those that are fetched. -/
theorem forall_jobInputs (run : DatasetExport) {p : DbRow → Prop} {db : DatasetContent} {options : DatasetExportOptions} :
    (∀ job ∈ run.jobInputs db options, p job.base) ↔ ∀ base ∈ fetchJobs db options, p base := by
  simp only [jobInputs, List.forall_mem_map]

/-- CORRECT (exactly when nothing that depends on the time shows): with a digest that tells texts
    apart, rows that differ in a column have different hashes; and a content exported twice gives
    every job one hash if and only if no job is exported, or both exports show one export time and
    one staleness of each job. -/
theorem hashes_identify_content_iff (run : DatasetExport) (hinj : Function.Injective run.sha256)
    (db : DatasetContent) (options : DatasetExportOptions) (times times' : ExportTimes) :
    (run.SameHashes db options times times' ∧ run.TellsContentApart) ↔
      (fetchJobs db options = [] ∨
        (run.text.isoformat times.exportedAt = run.text.isoformat times'.exportedAt ∧
          run.SameStaleness (fetchJobs db options) times times')) := by
  have hsame : run.SameHashes db options times times' ↔ ∀ base ∈ fetchJobs db options,
      run.text.isoformat times.exportedAt = run.text.isoformat times'.exportedAt ∧
      run.text.isStale base run.staleAfterHours (times.now base)
        = run.text.isStale base run.staleAfterHours (times'.now base) := by
    rw [← forall_jobInputs run]
    exact forall₂_congr fun job _ => rowHash_again_iff hinj
  rw [and_iff_left (tellsContentApart hinj), hsame]
  constructor
  · intro h
    cases hjobs : fetchJobs db options with
    | nil => exact .inl rfl
    | cons base rest =>
      rw [hjobs] at h
      exact .inr ⟨(h base List.mem_cons_self).1, fun base hmem => (h base hmem).2⟩
  · rintro (hnone | ⟨htime, hstale⟩) base hmem
    · rw [hnone] at hmem
      exact absurd hmem List.not_mem_nil
    · exact ⟨htime, hstale base hmem⟩

/-! ### One job, exported twice -/

/-- Texts read without any folding, times written as numbers. -/
def plainDatasetText : DatasetText where
  alphabet := asciiAlphabet
  upper := id
  lower := id
  strOther _ := ""
  floatOf _ := none
  ratio _ _ := .nan
  average _ := .nan
  least _ := .nan
  greatest _ := .nan
  floats := .fractions
  half n := n / 2
  fromisoformat _ := none
  isoformat t := toString t
  loads _ := none

/-- An export with nothing left out of its hashes. -/
def plainExport : DatasetExport where
  text := plainDatasetText
  sha256 := id
  model := ⟨[], fun _ _ _ _ => []⟩
  staleAfterHours := 24

/-- One active job, never seen. -/
def oneActiveJob : DatasetContent where
  jobs := [[("job_id", .text "j"), ("status", .text "ACTIVE")]]
  requirements := []
  skills := []
  signals := ⟨[], [], [], [], [], []⟩

/-- An export at one instant. -/
def atInstant (t : Timestamp) : ExportTimes := ⟨t, fun _ => t⟩

theorem hashes_identify_content_iff_atInstant :
    (plainExport.SameHashes oneActiveJob {} (atInstant 0) (atInstant 1) ∧
      plainExport.TellsContentApart) ↔
      (fetchJobs oneActiveJob {} = [] ∨
        (plainExport.text.isoformat 0 = plainExport.text.isoformat 1 ∧
          plainExport.SameStaleness (fetchJobs oneActiveJob {}) (atInstant 0) (atInstant 1))) :=
  hashes_identify_content_iff plainExport Function.injective_id oneActiveJob {} (atInstant 0)
    (atInstant 1)

/-- A microsecond later the unchanged job has another hash. -/
theorem not_sameHashes_oneActiveJob :
    Function.Injective plainExport.sha256 ∧
      ¬ plainExport.SameHashes oneActiveJob {} (atInstant 0) (atInstant 1) := by
  refine ⟨Function.injective_id, fun h => ?_⟩
  have hsome : plainExport.jobInputs oneActiveJob {} ≠ [] := by
    have hjobs : fetchJobs oneActiveJob {} ≠ [] := by decide +kernel
    simpa [jobInputs] using hjobs
  obtain ⟨job, hmem⟩ := List.exists_mem_of_ne_nil _ hsome
  have hagain := (rowHash_again_iff Function.injective_id).mp (h job hmem)
  exact absurd hagain.1 (by decide)

end DatasetExport

end Bisakerja
