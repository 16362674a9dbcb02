import BisakerjaScraper.Enrichment.Truthful
import BisakerjaScraper.Schemes.Line

/-! Whether every job gets its turn.

    A batch takes the newest jobs that are not enriched, and a job leaves the list by a success
    only. So the list is a line that is served from its front, and each job that fails takes a place
    from the jobs behind it in every batch that follows. -/

namespace Bisakerja
open Schemes

/-- The jobs up for enrichment, however many. -/
def StageTables.unenriched (tables : StageTables) : List NormalizedJob :=
  (tables.jobs.normalizedJobs.rows.filter fun job =>
    job.id ∉ tables.succeeded && lacksStaging job).insertionSort newestFirst

/-- The failed requests of the log. -/
def StageTables.failedLogs (tables : StageTables) : ℕ :=
  tables.aiRequestLogs.countP fun log => log.status = .failed

/-- A job whose enrichment has not succeeded by these results. -/
def notEnriched (results : List EnrichmentJobResult) (job : NormalizedJob) : Bool :=
  job.id ∉ succeededOf results

namespace EnrichmentService

variable {casefold : String → String} (service : EnrichmentService casefold)

/-- Calls of `enrich_pending_batch`, one after the other. -/
def enrichBatches : List (Option String) → EnrichmentSession →
    List EnrichmentBatchResult × EnrichmentSession
  | [], s => ([], s)
  | scrapeRunId :: rest, s =>
    let batch := service.enrichPendingBatch scrapeRunId s
    let more := enrichBatches rest batch.2
    (batch.1 :: more.1, more.2)

/-- Every job that was up for enrichment is attempted by one of the calls. -/
def AllAttempted (runIds : List (Option String)) (s : EnrichmentSession) : Prop :=
  ∀ job ∈ s.tables.unenriched, ∃ batch ∈ (service.enrichBatches runIds s).1,
    job.id ∈ batch.results.map EnrichmentJobResult.normalizedJobId

/-- The attempts that fail, but for those of the last call. -/
def failedBeforeLast (runIds : List (Option String)) (s : EnrichmentSession) : ℕ :=
  ((service.enrichBatches runIds s).1.dropLast.map EnrichmentBatchResult.failed).sum

/-- The log has room for failures before the last of the calls: its failed rows and the jobs up for
    enrichment fit into the places of all the calls. -/
def RoomForFailures (runIds : List (Option String)) (s : EnrichmentSession) : Prop :=
  s.tables.unenriched.length + (service.enrichBatches runIds.dropLast s).2.tables.failedLogs
    ≤ runIds.length * service.config.batchSize + s.tables.failedLogs

/-- How many calls would do if none failed: the jobs by the batch size, rounded up. -/
def callsFor (s : EnrichmentSession) : ℕ :=
  (s.tables.unenriched.length + service.config.batchSize - 1) / service.config.batchSize

/-- That many calls attempt every job. -/
def NoStarvation (s : EnrichmentSession) : Prop :=
  ∀ runIds : List (Option String), runIds.length = service.callsFor s →
    service.AllAttempted runIds s

end EnrichmentService

/-! ### The list after an attempt -/

instance : Std.Total newestFirst where
  total a b := by
    unfold newestFirst
    rcases lt_trichotomy a.lastSeenAt b.lastSeenAt with h | h | h
    · exact .inr (.inl h)
    · rcases le_total a.id b.id with hid | hid
      · exact .inl (.inr ⟨h, hid⟩)
      · exact .inr (.inr ⟨h.symm, hid⟩)
    · exact .inl (.inl h)

instance : IsTrans NormalizedJob newestFirst where
  trans a b c := by
    unfold newestFirst
    rintro (hab | ⟨hab, hids⟩) (hbc | ⟨hbc, hids'⟩)
    · exact .inl (hbc.trans hab)
    · exact .inl (hbc ▸ hab)
    · exact .inl (hab ▸ hbc)
    · exact .inr ⟨hab.trans hbc, hids.trans hids'⟩

theorem failedLogs_createAiRequestLog (hash : StableHash) (hostname : String → Option String)
    (item : AIRequestLogInput) (tables : StageTables) :
    (createAiRequestLog hash hostname item tables).failedLogs
      = tables.failedLogs + if item.status = .failed then 1 else 0 := by
  simp [createAiRequestLog, StageTables.failedLogs, List.countP_append, List.countP_cons]

theorem failedLogs_upsertOutput {casefold : String → String} (jobId : String)
    (output : EnrichmentOutput casefold) (origin : EnrichmentSource) (tables : StageTables) :
    (upsertOutput jobId output origin tables).failedLogs = tables.failedLogs := rfl

namespace EnrichmentService

variable {casefold : String → String} (service : EnrichmentService casefold)

@[simp] theorem normalizedJobId_enrichOne (scrapeRunId : Option String) (job : NormalizedJob)
    (s : EnrichmentSession) :
    (service.enrichOne scrapeRunId job s).1.normalizedJobId = job.id := by
  unfold enrichOne
  cases service.enrichmentInputFromJob job with
  | none => rfl
  | some request =>
    dsimp only
    cases (service.attempts request service.config.maxAttempts 0 s.calls).1 <;> rfl

/-- An attempt fails and leaves the jobs alone, or succeeds and writes to its own. -/
theorem enrichOne_cases (scrapeRunId : Option String) (job : NormalizedJob)
    (s : EnrichmentSession) :
    ((service.enrichOne scrapeRunId job s).1.status = .failed ∧
        (service.enrichOne scrapeRunId job s).2.tables.jobs = s.tables.jobs) ∨
      ∃ output : EnrichmentOutput casefold,
        (service.enrichOne scrapeRunId job s).1.status = .success ∧
        (service.enrichOne scrapeRunId job s).2.tables.jobs
          = (upsertOutput job.id output .ai s.tables).jobs := by
  unfold enrichOne
  cases service.enrichmentInputFromJob job with
  | none => exact .inl ⟨rfl, rfl⟩
  | some request =>
    dsimp only
    cases (service.attempts request service.config.maxAttempts 0 s.calls).1 with
    | error exc => exact .inl ⟨rfl, rfl⟩
    | ok output => exact .inr ⟨output, rfl, rfl⟩

theorem mem_succeededOf_singleton {item : EnrichmentJobResult} {id : String} :
    id ∈ succeededOf [item] ↔ item.status = .success ∧ item.normalizedJobId = id := by
  unfold succeededOf
  by_cases h : item.status = .success
  · simp only [h, decide_true, List.filter_cons_of_pos, List.filter_nil, List.map_cons,
      List.map_nil, List.mem_singleton, true_and]
    exact eq_comm
  · simp [h]

/-- The rows of the jobs after an attempt: another is at most that of a job that succeeded. -/
theorem rows_enrichOne (scrapeRunId : Option String) (job : NormalizedJob) (s : EnrichmentSession) :
    ∃ f : NormalizedJob → NormalizedJob, (∀ row, (f row).id = row.id) ∧
      (∀ row, row.id ∉ succeededOf [(service.enrichOne scrapeRunId job s).1] → f row = row) ∧
      (service.enrichOne scrapeRunId job s).2.tables.jobs.normalizedJobs.rows
        = s.tables.jobs.normalizedJobs.rows.map f := by
  rcases service.enrichOne_cases scrapeRunId job s with ⟨-, hjobs⟩ | ⟨output, hstatus, hjobs⟩
  · exact ⟨fun row => row, fun _ => rfl, fun _ _ => rfl, by rw [hjobs, List.map_id']⟩
  · refine ⟨fun row => if row.id = job.id then row.withOutput .ai output else row, fun row => ?_,
      fun row hrow => ?_, by rw [hjobs]; rfl⟩
    · by_cases hid : row.id = job.id <;> simp [hid, NormalizedJob.withOutput]
    · rw [mem_succeededOf_singleton, normalizedJobId_enrichOne] at hrow
      exact if_neg fun hid => hrow ⟨hstatus, hid.symm⟩

/-- An attempt takes its job off the list if it succeeds. -/
theorem unenriched_enrichOne (scrapeRunId : Option String) (job : NormalizedJob)
    (s : EnrichmentSession) :
    (service.enrichOne scrapeRunId job s).2.tables.unenriched
      = s.tables.unenriched.filter (notEnriched [(service.enrichOne scrapeRunId job s).1]) := by
  obtain ⟨f, hid, hsame, hrows⟩ := service.rows_enrichOne scrapeRunId job s
  unfold StageTables.unenriched
  rw [service.succeeded_enrichOne, hrows, filter_insertionSort, List.filter_filter]
  generalize (service.enrichOne scrapeRunId job s).1 = item at hsame
  congr 1
  rw [List.filter_map]
  have hsel : ∀ row, ((fun row : NormalizedJob =>
      row.id ∉ s.tables.succeeded ++ succeededOf [item] && lacksStaging row) ∘ f) row
      = (notEnriched [item] row && (row.id ∉ s.tables.succeeded && lacksStaging row)) := by
    intro row
    by_cases hrow : row.id ∈ succeededOf [item]
    · simp [hid, notEnriched, hrow]
    · simp [hsame row hrow, notEnriched, hrow]
  rw [List.filter_congr fun row _ => hsel row]
  refine (List.map_congr_left fun row hrow => ?_).trans (List.map_id _)
  have hnot := (List.mem_filter.mp hrow).2
  refine hsame row ?_
  simp only [Bool.and_eq_true, notEnriched, decide_eq_true_eq] at hnot
  exact hnot.1

theorem succeededOf_cons (item : EnrichmentJobResult) (rest : List EnrichmentJobResult) :
    succeededOf (item :: rest) = succeededOf [item] ++ succeededOf rest := by
  unfold succeededOf
  by_cases h : item.status = .success <;> simp [h]

/-- The attempts of a batch take the jobs that succeed off the list. -/
theorem unenriched_enrichAll (scrapeRunId : Option String) (jobs : List NormalizedJob)
    (s : EnrichmentSession) :
    (service.enrichAll scrapeRunId jobs s).2.tables.unenriched
      = s.tables.unenriched.filter (notEnriched (service.enrichAll scrapeRunId jobs s).1) := by
  induction jobs generalizing s with
  | nil =>
    have hall : ∀ row, notEnriched [] row = true := fun row => by simp [notEnriched, succeededOf]
    exact (List.filter_eq_self.mpr fun row _ => hall row).symm
  | cons job rest ih =>
    rw [enrichAll]
    dsimp only
    rw [ih, unenriched_enrichOne, List.filter_filter]
    refine List.filter_congr fun row _ => ?_
    simp only [notEnriched, succeededOf_cons (service.enrichOne scrapeRunId job s).1
      (enrichAll service scrapeRunId rest _).1]
    simp [Bool.and_comm, not_or]

theorem normalizedJobId_enrichAll (scrapeRunId : Option String) (jobs : List NormalizedJob)
    (s : EnrichmentSession) :
    (service.enrichAll scrapeRunId jobs s).1.map EnrichmentJobResult.normalizedJobId
      = jobs.map NormalizedJob.id := by
  induction jobs generalizing s with
  | nil => rfl
  | cons job rest ih =>
    rw [enrichAll]
    dsimp only
    rw [List.map_cons, ih, normalizedJobId_enrichOne, List.map_cons]

theorem mem_ids_of_mem_succeededOf {results : List EnrichmentJobResult} {id : String}
    (h : id ∈ succeededOf results) : id ∈ results.map EnrichmentJobResult.normalizedJobId := by
  obtain ⟨item, hitem, rfl⟩ := List.mem_map.mp h
  exact List.mem_map_of_mem (List.mem_filter.mp hitem).1

/-- With distinct jobs, those not enriched are as many as the attempts that fail. -/
theorem countP_failed {results : List EnrichmentJobResult} {jobs : List NormalizedJob}
    (hids : results.map EnrichmentJobResult.normalizedJobId = jobs.map NormalizedJob.id)
    (hnodup : (jobs.map NormalizedJob.id).Nodup) :
    results.countP (fun item => item.status ≠ .success)
      = (jobs.filter (notEnriched results)).length := by
  induction results generalizing jobs with
  | nil =>
    rw [List.map_nil, eq_comm, List.map_eq_nil_iff] at hids
    rw [hids]
    rfl
  | cons item rest ih =>
    cases jobs with
    | nil => cases hids
    | cons job others =>
      rw [List.map_cons, List.map_cons, List.cons.injEq] at hids
      obtain ⟨hid, hids⟩ := hids
      obtain ⟨hnew, hnodup⟩ := List.nodup_cons.mp hnodup
      have hjob : notEnriched (item :: rest) job = decide (item.status ≠ .success) := by
        have hrest : job.id ∉ succeededOf rest := fun h =>
          hnew (hids ▸ mem_ids_of_mem_succeededOf h)
        simp [notEnriched, succeededOf_cons item rest, mem_succeededOf_singleton, hid, hrest]
      have hothers : others.filter (notEnriched (item :: rest))
          = others.filter (notEnriched rest) := by
        refine List.filter_congr fun row hrow => ?_
        have hne : item.normalizedJobId ≠ row.id := fun h =>
          hnew (hid ▸ h ▸ List.mem_map_of_mem hrow)
        simp [notEnriched, succeededOf_cons item rest, mem_succeededOf_singleton, hne]
      rw [List.countP_cons, ih hids hnodup, List.filter_cons, hjob, hothers]
      by_cases h : item.status = .success <;> simp [h]

/-! ### A batch serves the line -/

/-- How the jobs of each call end. -/
def roundsOf : List (Option String) → EnrichmentSession → List (NormalizedJob → Bool)
  | [], _ => []
  | scrapeRunId :: rest, s =>
    let batch := service.enrichPendingBatch scrapeRunId s
    notEnriched batch.1.results :: roundsOf rest batch.2

theorem length_roundsOf (runIds : List (Option String)) (s : EnrichmentSession) :
    (service.roundsOf runIds s).length = runIds.length := by
  induction runIds generalizing s with
  | nil => rfl
  | cons scrapeRunId rest ih => simp [roundsOf, ih]

theorem nodup_unenriched (tables : StageTables) :
    (tables.unenriched.map NormalizedJob.id).Nodup := by
  have hrows := tables.jobs.normalizedJobs.unique.sublist
    ((List.filter_sublist (p := fun job : NormalizedJob =>
      job.id ∉ tables.succeeded && lacksStaging job)).map NormalizedJob.id)
  exact ((List.perm_insertionSort newestFirst _).map NormalizedJob.id).nodup_iff.mpr hrows

section Batch

variable (scrapeRunId : Option String) (s : EnrichmentSession)

theorem ids_enrichPendingBatch :
    (service.enrichPendingBatch scrapeRunId s).1.results.map EnrichmentJobResult.normalizedJobId
      = (s.tables.unenriched.take service.config.batchSize).map NormalizedJob.id :=
  service.normalizedJobId_enrichAll scrapeRunId _ s

/-- The jobs behind the batch are not attempted by it. -/
theorem not_mem_ids_of_mem_drop {job : NormalizedJob}
    (h : job ∈ s.tables.unenriched.drop service.config.batchSize) :
    job.id ∉ (service.enrichPendingBatch scrapeRunId s).1.results.map
      EnrichmentJobResult.normalizedJobId := by
  have hnodup := nodup_unenriched s.tables
  rw [← List.take_append_drop service.config.batchSize s.tables.unenriched,
    List.map_append] at hnodup
  rw [service.ids_enrichPendingBatch]
  intro hmem
  exact (List.nodup_append.mp hnodup).2.2 _ hmem _ (List.mem_map_of_mem h) rfl

variable {s} {line : Line NormalizedJob} (hline : s.tables.unenriched = line.all)
  (htried : line.tried.length ≤ service.config.batchSize)

include hline htried in
theorem unenriched_enrichPendingBatch :
    (service.enrichPendingBatch scrapeRunId s).2.tables.unenriched
      = (line.serve service.config.batchSize
          (notEnriched (service.enrichPendingBatch scrapeRunId s).1.results)).all := by
  have hdrop : ∀ job ∈ s.tables.unenriched.drop service.config.batchSize,
      notEnriched (service.enrichPendingBatch scrapeRunId s).1.results job = true := by
    intro job hjob
    have hnot := service.not_mem_ids_of_mem_drop scrapeRunId s hjob
    simpa [notEnriched] using fun h => hnot (mem_ids_of_mem_succeededOf h)
  have hall := service.unenriched_enrichAll scrapeRunId
    (s.tables.unenriched.take service.config.batchSize) s
  rw [Line.all_serve _ htried, ← hline, ← List.filter_eq_self.mpr hdrop, ← List.filter_append,
    List.take_append_drop]
  exact hall

include hline in
theorem failed_enrichPendingBatch :
    (service.enrichPendingBatch scrapeRunId s).1.failed
      = (line.serve service.config.batchSize
          (notEnriched (service.enrichPendingBatch scrapeRunId s).1.results)).tried.length := by
  have hnodup := (nodup_unenriched s.tables).sublist
    ((List.take_sublist service.config.batchSize s.tables.unenriched).map NormalizedJob.id)
  have hcount := countP_failed (service.ids_enrichPendingBatch scrapeRunId s) hnodup
  rw [hline] at hcount
  exact hcount

end Batch

/-! ### The calls -/

/-- Those who wait are attempted exactly when the line serves them all. -/
theorem attempted_waiting_iff (runIds : List (Option String)) {s : EnrichmentSession}
    {line : Line NormalizedJob} (hline : s.tables.unenriched = line.all)
    (htried : line.tried.length ≤ service.config.batchSize) :
    (∀ job ∈ line.waiting, ∃ batch ∈ (service.enrichBatches runIds s).1,
        job.id ∈ batch.results.map EnrichmentJobResult.normalizedJobId) ↔
      (line.serveAll service.config.batchSize (service.roundsOf runIds s)).waiting = [] := by
  induction runIds generalizing s line with
  | nil => simp [enrichBatches, roundsOf, Line.serveAll, List.eq_nil_iff_forall_not_mem]
  | cons scrapeRunId rest ih =>
    have hnext := service.unenriched_enrichPendingBatch scrapeRunId hline htried
    rw [roundsOf, Line.serveAll, ← ih hnext (Line.length_tried_serve_le ..)]
    have hsplit : line.waiting = line.waiting.take (service.config.batchSize - line.tried.length)
        ++ line.waiting.drop (service.config.batchSize - line.tried.length) :=
      (List.take_append_drop ..).symm
    have htake : (s.tables.unenriched.take service.config.batchSize)
        = line.tried ++ line.waiting.take (service.config.batchSize - line.tried.length) := by
      rw [hline, Line.all, List.take_append, List.take_of_length_le htried]
    have hdrop : (s.tables.unenriched.drop service.config.batchSize)
        = line.waiting.drop (service.config.batchSize - line.tried.length) := by
      rw [hline, Line.all, List.drop_append, List.drop_of_length_le htried, List.nil_append]
    constructor
    · intro h job hjob
      obtain ⟨batch, hbatch, hid⟩ := h job (List.mem_of_mem_drop hjob)
      rcases List.mem_cons.mp hbatch with rfl | hmore
      · exact absurd hid (service.not_mem_ids_of_mem_drop scrapeRunId s (hdrop ▸ hjob))
      · exact ⟨batch, hmore, hid⟩
    · intro h job hjob
      rw [hsplit] at hjob
      rcases List.mem_append.mp hjob with hfirst | hlater
      · refine ⟨_, List.mem_cons_self, ?_⟩
        rw [service.ids_enrichPendingBatch, htake]
        exact List.mem_map_of_mem (List.mem_append_right _ hfirst)
      · obtain ⟨batch, hbatch, hid⟩ := h job hlater
        exact ⟨batch, List.mem_cons_of_mem _ hbatch, hid⟩

/-- Those served again are those that failed in a call before. -/
theorem servedAgain_roundsOf (runIds : List (Option String)) (hne : runIds ≠ [])
    {s : EnrichmentSession} {line : Line NormalizedJob} (hline : s.tables.unenriched = line.all)
    (htried : line.tried.length ≤ service.config.batchSize) :
    line.servedAgain service.config.batchSize (service.roundsOf runIds s)
      = line.tried.length + service.failedBeforeLast runIds s := by
  induction runIds generalizing s line with
  | nil => exact absurd rfl hne
  | cons scrapeRunId rest ih =>
    rw [roundsOf, Line.servedAgain]
    cases rest with
    | nil => rfl
    | cons other more =>
      have hnext := service.unenriched_enrichPendingBatch scrapeRunId hline htried
      rw [ih (List.cons_ne_nil _ _) hnext (Line.length_tried_serve_le ..),
        ← service.failed_enrichPendingBatch scrapeRunId hline]
      rfl

/-- An attempt that fails is a failed row of the log. -/
theorem failedLogs_enrichOne (scrapeRunId : Option String) (job : NormalizedJob)
    (s : EnrichmentSession) :
    (service.enrichOne scrapeRunId job s).2.tables.failedLogs = s.tables.failedLogs
      + [(service.enrichOne scrapeRunId job s).1].countP fun item => item.status ≠ .success := by
  unfold enrichOne
  cases service.enrichmentInputFromJob job with
  | none => simp [recordFailure, failedLogs_createAiRequestLog, logFor]
  | some request =>
    dsimp only
    cases (service.attempts request service.config.maxAttempts 0 s.calls).1 with
    | error exc => simp [recordFailure, failedLogs_createAiRequestLog, logFor]
    | ok output => simp [failedLogs_upsertOutput, failedLogs_createAiRequestLog, logFor]

theorem failedLogs_enrichAll (scrapeRunId : Option String) (jobs : List NormalizedJob)
    (s : EnrichmentSession) :
    (service.enrichAll scrapeRunId jobs s).2.tables.failedLogs = s.tables.failedLogs
      + (service.enrichAll scrapeRunId jobs s).1.countP fun item => item.status ≠ .success := by
  induction jobs generalizing s with
  | nil => rfl
  | cons job rest ih =>
    rw [enrichAll]
    dsimp only
    rw [ih, failedLogs_enrichOne]
    simp only [List.countP_cons, List.countP_nil]
    omega

/-- The log counts the attempts that failed. -/
theorem failedLogs_enrichBatches (runIds : List (Option String)) (s : EnrichmentSession) :
    (service.enrichBatches runIds s).2.tables.failedLogs = s.tables.failedLogs
      + ((service.enrichBatches runIds s).1.map EnrichmentBatchResult.failed).sum := by
  induction runIds generalizing s with
  | nil => rfl
  | cons scrapeRunId rest ih =>
    have hbatch : (service.enrichPendingBatch scrapeRunId s).2.tables.failedLogs
        = s.tables.failedLogs + (service.enrichPendingBatch scrapeRunId s).1.failed :=
      service.failedLogs_enrichAll scrapeRunId _ s
    rw [enrichBatches]
    dsimp only
    rw [ih, hbatch, List.map_cons, List.sum_cons, Nat.add_assoc]

theorem enrichBatches_dropLast (runIds : List (Option String)) (s : EnrichmentSession) :
    (service.enrichBatches runIds.dropLast s).1 = (service.enrichBatches runIds s).1.dropLast := by
  induction runIds generalizing s with
  | nil => rfl
  | cons scrapeRunId rest ih =>
    cases rest with
    | nil => rfl
    | cons other more => exact congrArg (_ :: ·) (ih (service.enrichPendingBatch scrapeRunId s).2)

/-- Every job is attempted exactly when the places of the calls suffice for the jobs and for the
    attempts that fail before the last call. -/
theorem allAttempted_iff (runIds : List (Option String)) (s : EnrichmentSession) :
    service.AllAttempted runIds s ↔
      s.tables.unenriched.length + service.failedBeforeLast runIds s
        ≤ runIds.length * service.config.batchSize := by
  have hline : s.tables.unenriched = (⟨[], s.tables.unenriched⟩ : Line NormalizedJob).all := rfl
  have hwaiting := service.attempted_waiting_iff runIds hline (Nat.zero_le _)
  rw [Line.waiting_serveAll_eq_nil_iff _ (Nat.zero_le _), length_roundsOf] at hwaiting
  have hagain : (⟨[], s.tables.unenriched⟩ : Line NormalizedJob).servedAgain
      service.config.batchSize (service.roundsOf runIds s) = service.failedBeforeLast runIds s := by
    cases runIds with
    | nil => rfl
    | cons scrapeRunId rest =>
      rw [service.servedAgain_roundsOf _ (List.cons_ne_nil _ _) hline (Nat.zero_le _)]
      exact Nat.zero_add _
  rw [hagain] at hwaiting
  exact hwaiting

end EnrichmentService

/-! ### A job that always fails -/

/-- A job with the word of a secret in its title. -/
def secretaryJob : NormalizedJob :=
  { plainJob "b" "Ac" 1 with title := "Secretary" }

/-- A service that attempts one job a call. -/
def oneAtATime : EnrichmentService fun name => name :=
  { oneSkillService with
    config := { batchSize := 1, batchSize_pos := Nat.one_pos, maxAttempts_pos := Nat.two_pos } }

/-- The session with an older job behind the one that always fails. -/
def behindSecretary : EnrichmentSession :=
  { tables := { jobs := ⟨Table.empty _, ⟨[secretaryJob, leadJob], by decide +kernel⟩⟩ } }

end Bisakerja
