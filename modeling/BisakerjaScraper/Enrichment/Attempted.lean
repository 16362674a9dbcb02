import BisakerjaScraper.Enrichment.Service
import BisakerjaScraper.Schemes.Faults

/-! The enrichment of one job on a storage that may fail.

    The call of the client, the row of the log and the staging rows are one `try` block: an error of
    the storage is taken for one of the client, after the log may have reported a success. -/

namespace Bisakerja
open Schemes

/-- The session of a service, with the number of the next storage operation and the answers of the
    client so far. -/
structure AttemptedSession (casefold : String → String) where
  tables : StageTables
  calls : ℕ := 0
  ticks : ℕ := 0
  writes : ℕ := 0
  answers : List (Except PyException (EnrichmentOutput casefold)) := []

/-- What the storage does: an operation that fails leaves some tables. -/
abbrev StorageFaults := Faults StageTables PyException

/-- `upsert_skill` on the row of a job. -/
def upsertSkillRow (jobId : String) (skill : EnrichedSkill) (tables : StageTables) : StageTables :=
  { tables with jobs := { tables.jobs with
    normalizedJobs := tables.jobs.normalizedJobs.modify jobId (fun job => { job with
      skillsStaging := upsertSkill job.id .ai skill job.skillsStaging }) fun _ => rfl } }

/-- `upsert_requirement` on the row of a job. -/
def upsertRequirementRow (jobId : String) (requirement : EnrichedRequirement)
    (tables : StageTables) : StageTables :=
  { tables with jobs := { tables.jobs with
    normalizedJobs := tables.jobs.normalizedJobs.modify jobId (fun job => { job with
      requirementsStaging :=
        upsertRequirement job.id .ai requirement job.requirementsStaging }) fun _ => rfl } }

/-- The storage operations of `upsert_output`; the last is its `flush`. -/
def outputWrites {casefold : String → String} (jobId : String)
    (output : EnrichmentOutput casefold) : List (StageTables → StageTables) :=
  output.skills.map (upsertSkillRow jobId) ++
    output.requirements.map (upsertRequirementRow jobId) ++ [fun tables => tables]

/-- The log rows of a job. -/
def StageTables.logsOf (tables : StageTables) (jobId : String) : List AIRequestLog :=
  tables.aiRequestLogs.filter fun log => log.normalizedJobId = some jobId

namespace AttemptedSession

variable {casefold : String → String}

/-- Some storage operations: what was raised, and the session. -/
def store (faults : StorageFaults) (writes : List (StageTables → StageTables))
    (s : AttemptedSession casefold) : Option PyException × AttemptedSession casefold :=
  match runWrites faults writes s.writes s.tables with
  | (exc, next, tables) => (exc, { s with tables := tables, writes := next })

/-- The client has answered. -/
def asked (s : AttemptedSession casefold)
    (answer : Except PyException (EnrichmentOutput casefold)) : AttemptedSession casefold :=
  { s with calls := s.calls + 1, answers := s.answers ++ [answer] }

end AttemptedSession

namespace EnrichmentService

variable {casefold : String → String} (service : EnrichmentService casefold)
  (faults : StorageFaults) (scrapeRunId : Option String) (job : NormalizedJob)

/-- The storage operations of an accepted answer. -/
def successWrites (request : EnrichmentJobInput) (retryCount : ℕ)
    (output : EnrichmentOutput casefold) (s : AttemptedSession casefold) :
    List (StageTables → StageTables) :=
  createAiRequestLog service.hash service.hostname
      (service.logFor job scrapeRunId (service.selectedModelForLog s.calls)
        (service.host.latencyMs s.ticks) .success retryCount request
        (responseSummaryFromOutput output) none) ::
    outputWrites job.id output

/-- What follows an answer in the `try` block of `enrich_one`. -/
def storeAnswer (request : EnrichmentJobInput) (retryCount : ℕ)
    (s : AttemptedSession casefold) : Except PyException (EnrichmentOutput casefold) →
      Option PyException × AttemptedSession casefold
  | .error exc => (some exc, s)
  | .ok output =>
    AttemptedSession.store faults
      (service.successWrites scrapeRunId job request retryCount output s)
      { s with ticks := s.ticks + 1 }

/-- The loop of `enrich_one`: the last error, `none` after a success, and the retries. -/
def storedAttempts (request : EnrichmentJobInput) : ℕ → ℕ → AttemptedSession casefold →
    Option PyException × ℕ × AttemptedSession casefold
  | 0, retryCount, s =>
    (some (.plain "RuntimeError" "unknown enrichment failure"), retryCount, s)
  | left + 1, retryCount, s =>
    let answer := service.enrichJob s.calls request
    match service.storeAnswer faults scrapeRunId job request retryCount (s.asked answer) answer with
    | (none, s) => (none, retryCount, s)
    | (some exc, s) =>
      if !exc.retryable || left = 0 then (some exc, retryCount, s)
      else storedAttempts request left (retryCount + 1) s

/-- The failed row of the log, and the result. -/
def storeFailure (model : String) (latencyMs : ℤ) (retryCount : ℕ) (request : EnrichmentJobInput)
    (exc : PyException) (s : AttemptedSession casefold) :
    Except PyException EnrichmentJobResult × AttemptedSession casefold :=
  match AttemptedSession.store faults [createAiRequestLog service.hash service.hostname
      (service.logFor job scrapeRunId model latencyMs .failed retryCount request
        [("errorCategory", .str exc.category)] (some exc))] s with
  | (none, s) => (.ok { normalizedJobId := job.id, status := .failed
                        errorCategory := some exc.category, errorMessage := some exc.message }, s)
  | (some error, s) => (.error error, s)

/-- `enrich_one`: what it returns or raises. -/
def enrichOneStored (s : AttemptedSession casefold) :
    Except PyException EnrichmentJobResult × AttemptedSession casefold :=
  match service.enrichmentInputFromJob job with
  | none =>
    service.storeFailure faults scrapeRunId job service.fallbackModel 0 0 failedRequestInput
      (.plain "ValidationError" (service.validationMessage job)) s
  | some request =>
    match service.storedAttempts faults scrapeRunId job request service.config.maxAttempts 0 s with
    | (none, _, s) => (.ok { normalizedJobId := job.id, status := .success }, s)
    | (some exc, retryCount, s) =>
      service.storeFailure faults scrapeRunId job (service.selectedModelForLog s.calls)
        (service.host.latencyMs s.ticks) retryCount request exc { s with ticks := s.ticks + 1 }

end EnrichmentService

/-! ### Storage operations -/

section Storage

variable {casefold : String → String} {tables : StageTables} {jobId : String}

/-- Without a failure the operations of `upsert_output` write the whole output. -/
theorem foldl_outputWrites (jobId : String) (output : EnrichmentOutput casefold)
    (tables : StageTables) :
    (outputWrites jobId output).foldl (fun s write => write s) tables
      = upsertOutput jobId output .ai tables := by
  have hskills : ∀ (skills : List EnrichedSkill) (tables : StageTables),
      (skills.map (upsertSkillRow jobId)).foldl (fun s write => write s) tables
        = { tables with jobs := { tables.jobs with
            normalizedJobs := tables.jobs.normalizedJobs.modify jobId (fun job => { job with
              skillsStaging := skills.foldl (fun rows skill =>
                upsertSkill job.id .ai skill rows) job.skillsStaging }) fun _ => rfl } } := by
    intro skills
    induction skills with
    | nil => exact fun tables => by simp [Table.modify_id]
    | cons skill rest ih =>
      intro tables
      rw [List.map_cons, List.foldl_cons, ih, upsertSkillRow]
      simp only [Table.modify_modify]
      rfl
  have hrequirements : ∀ (requirements : List EnrichedRequirement) (tables : StageTables),
      (requirements.map (upsertRequirementRow jobId)).foldl (fun s write => write s) tables
        = { tables with jobs := { tables.jobs with
            normalizedJobs := tables.jobs.normalizedJobs.modify jobId (fun job => { job with
              requirementsStaging := requirements.foldl (fun rows requirement =>
                upsertRequirement job.id .ai requirement rows) job.requirementsStaging })
              fun _ => rfl } } := by
    intro requirements
    induction requirements with
    | nil => exact fun tables => by simp [Table.modify_id]
    | cons requirement rest ih =>
      intro tables
      rw [List.map_cons, List.foldl_cons, ih, upsertRequirementRow]
      simp only [Table.modify_modify]
      rfl
  rw [outputWrites, List.foldl_append, List.foldl_append, hskills, hrequirements]
  simp only [Table.modify_modify, List.foldl_cons, List.foldl_nil]
  rfl

theorem length_outputWrites (jobId : String) (output : EnrichmentOutput casefold) :
    (outputWrites jobId output).length
      = output.skills.length + output.requirements.length + 1 := by
  simp [outputWrites, Nat.add_assoc]

/-- A new row of the log is one of its job. -/
theorem logsOf_createAiRequestLog (hash : StableHash) (hostname : String → Option String)
    (item : AIRequestLogInput) (tables : StageTables) :
    ∃ log, log.status = item.status ∧ log.retryCount = item.retryCount ∧
      (createAiRequestLog hash hostname item tables).logsOf item.normalizedJobId
        = tables.logsOf item.normalizedJobId ++ [log] := by
  obtain ⟨log, hlogs, hid, hstatus, hretries⟩ : ∃ log : AIRequestLog,
      (createAiRequestLog hash hostname item tables).aiRequestLogs
        = tables.aiRequestLogs ++ [log] ∧ log.normalizedJobId = some item.normalizedJobId ∧
        log.status = item.status ∧ log.retryCount = item.retryCount := ⟨_, rfl, rfl, rfl, rfl⟩
  refine ⟨log, hstatus, hretries, ?_⟩
  rw [StageTables.logsOf, hlogs, List.filter_append]
  simp [StageTables.logsOf, hid]

end Storage

namespace EnrichmentService

variable {casefold : String → String} {service : EnrichmentService casefold}
  {faults : StorageFaults} {scrapeRunId : Option String} {job : NormalizedJob}
  {request : EnrichmentJobInput} {s : AttemptedSession casefold}

theorem length_successWrites (service : EnrichmentService casefold) (scrapeRunId : Option String)
    (job : NormalizedJob) (request : EnrichmentJobInput) (retryCount : ℕ)
    (output : EnrichmentOutput casefold) (s : AttemptedSession casefold) :
    (service.successWrites scrapeRunId job request retryCount output s).length
      = output.skills.length + output.requirements.length + 2 := by
  rw [successWrites, List.length_cons, length_outputWrites]

/-! ### The loop -/

/-- What the loop does with the first answer that is not retried. -/
def afterAnswer (service : EnrichmentService casefold) (faults : StorageFaults)
    (scrapeRunId : Option String) (job : NormalizedJob) (request : EnrichmentJobInput)
    (left retryCount : ℕ) (s : AttemptedSession casefold)
    (answer : Except PyException (EnrichmentOutput casefold)) :
    Option PyException × ℕ × AttemptedSession casefold :=
  match service.storeAnswer faults scrapeRunId job request retryCount s answer with
  | (none, s) => (none, retryCount, s)
  | (some exc, s) =>
    if !exc.retryable || left = 0 then (some exc, retryCount, s)
    else service.storedAttempts faults scrapeRunId job request left (retryCount + 1) s

/-- An error that is asked again. -/
def RetryableError (answer : Except PyException (EnrichmentOutput casefold)) : Prop :=
  ∃ exc, answer = .error exc ∧ exc.retryable = true

theorem attempts_of_stop {left retryCount calls : ℕ}
    (h : ¬ (RetryableError (service.enrichJob calls request) ∧ left ≠ 0)) :
    service.attempts request (left + 1) retryCount calls
      = (service.enrichJob calls request, retryCount, calls + 1) := by
  rw [attempts]
  split
  · next hanswer => rw [hanswer]
  · next exc hanswer =>
    rw [hanswer, if_pos]
    by_contra hnot
    simp only [Bool.or_eq_true, Bool.not_eq_true', decide_eq_true_eq, not_or,
      Bool.not_eq_false] at hnot
    exact h ⟨⟨exc, hanswer, hnot.1⟩, hnot.2⟩

/-- The loop asks until an answer that is not retried, as it would without a storage. -/
theorem storedAttempts_eq (service : EnrichmentService casefold) (faults : StorageFaults)
    (scrapeRunId : Option String) (job : NormalizedJob) (request : EnrichmentJobInput)
    (left retryCount : ℕ) (s : AttemptedSession casefold) :
    ∃ earlier : List (Except PyException (EnrichmentOutput casefold)),
      (∀ answer ∈ earlier, RetryableError answer) ∧ earlier.length ≤ left ∧
      (service.attempts request (left + 1) retryCount s.calls).2
        = (retryCount + earlier.length, s.calls + earlier.length + 1) ∧
      (RetryableError (service.attempts request (left + 1) retryCount s.calls).1 →
        left - earlier.length = 0) ∧
      service.storedAttempts faults scrapeRunId job request (left + 1) retryCount s
        = service.afterAnswer faults scrapeRunId job request (left - earlier.length)
            (retryCount + earlier.length)
            { s with
              calls := s.calls + earlier.length + 1
              answers := s.answers ++ earlier ++
                [(service.attempts request (left + 1) retryCount s.calls).1] }
            (service.attempts request (left + 1) retryCount s.calls).1 := by
  induction left generalizing retryCount s with
  | zero =>
    rw [attempts_of_stop (by simp)]
    refine ⟨[], by simp, le_rfl, rfl, fun _ => rfl, ?_⟩
    simp [storedAttempts, afterAnswer, AttemptedSession.asked]
  | succ left ih =>
    by_cases hretry : RetryableError (service.enrichJob s.calls request)
    · obtain ⟨exc, hanswer, hexc⟩ := hretry
      have hattempts : service.attempts request (left + 2) retryCount s.calls
          = service.attempts request (left + 1) (retryCount + 1) (s.calls + 1) := by
        rw [attempts, hanswer]
        simp [hexc]
      have hstored : service.storedAttempts faults scrapeRunId job request (left + 2) retryCount s
          = service.storedAttempts faults scrapeRunId job request (left + 1) (retryCount + 1)
              (s.asked (.error exc)) := by
        rw [storedAttempts, hanswer]
        simp [storeAnswer, hexc]
      obtain ⟨earlier, hearlier, hlength, hcounts, hstop, hrun⟩ :=
        ih (retryCount + 1) (s.asked (.error exc))
      refine ⟨.error exc :: earlier, ?_, by simpa using hlength, ?_, ?_, ?_⟩
      · exact List.forall_mem_cons.mpr ⟨⟨exc, rfl, hexc⟩, hearlier⟩
      · rw [hattempts]
        refine hcounts.trans ?_
        simp only [AttemptedSession.asked, List.length_cons, Prod.mk.injEq]
        omega
      · rw [hattempts, List.length_cons, Nat.add_sub_add_right]
        exact hstop
      · rw [hattempts, hstored, hrun]
        have hretries : retryCount + 1 + earlier.length = retryCount + (earlier.length + 1) := by
          omega
        have hcalls : s.calls + 1 + earlier.length + 1 = s.calls + (earlier.length + 1) + 1 := by
          omega
        simp only [AttemptedSession.asked, List.length_cons, Nat.add_sub_add_right,
          List.append_assoc, List.cons_append, List.nil_append, hretries, hcalls]
    · rw [attempts_of_stop fun h => hretry h.1]
      refine ⟨[], by simp, Nat.zero_le _, rfl, fun h => absurd h hretry, ?_⟩
      simp [storedAttempts, afterAnswer, AttemptedSession.asked]

/-- The answers up to the first that is not retried, and what the loop does with an error. -/
theorem storedAttempts_of_error (faults : StorageFaults) (scrapeRunId : Option String)
    (job : NormalizedJob) {exc : PyException} {r c : ℕ}
    (h : service.attempts request service.config.maxAttempts 0 s.calls = (.error exc, r, c)) :
    ∃ earlier : List (Except PyException (EnrichmentOutput casefold)),
      (∀ answer ∈ earlier, RetryableError answer) ∧ r = earlier.length ∧
      r + 1 ≤ service.config.maxAttempts ∧
      service.storedAttempts faults scrapeRunId job request service.config.maxAttempts 0 s
        = (some exc, r, { s with
            calls := c
            answers := s.answers ++ (earlier ++ [.error exc]) }) := by
  have hpos := service.config.maxAttempts_pos
  obtain ⟨left, hleft⟩ : ∃ left, service.config.maxAttempts = left + 1 :=
    ⟨service.config.maxAttempts - 1, by omega⟩
  obtain ⟨earlier, hearlier, hlength, hcounts, hstop, hloop⟩ :=
    service.storedAttempts_eq faults scrapeRunId job request left 0 s
  rw [← hleft, h] at hcounts hstop hloop
  obtain ⟨rfl, rfl⟩ := Prod.mk.inj hcounts
  have hlast : (!exc.retryable || left - earlier.length = 0) = true := by
    cases hexc : exc.retryable with
    | false => rfl
    | true => simpa using hstop ⟨exc, rfl, hexc⟩
  refine ⟨earlier, hearlier, Nat.zero_add _, by omega, ?_⟩
  simp only [afterAnswer, storeAnswer, if_pos hlast, List.append_assoc] at hloop
  exact hloop

/-- The answers up to the first that is not retried, and what the loop does with an output. -/
theorem storedAttempts_of_ok (faults : StorageFaults) (scrapeRunId : Option String)
    (job : NormalizedJob) {output : EnrichmentOutput casefold} {r c : ℕ}
    (h : service.attempts request service.config.maxAttempts 0 s.calls = (.ok output, r, c)) :
    ∃ earlier : List (Except PyException (EnrichmentOutput casefold)),
      (∀ answer ∈ earlier, RetryableError answer) ∧ r = earlier.length ∧
      r + 1 ≤ service.config.maxAttempts ∧
      service.storedAttempts faults scrapeRunId job request service.config.maxAttempts 0 s
        = service.afterAnswer faults scrapeRunId job request
            (service.config.maxAttempts - (r + 1)) r { s with
              calls := c
              answers := s.answers ++ (earlier ++ [.ok output]) } (.ok output) := by
  have hpos := service.config.maxAttempts_pos
  obtain ⟨left, hleft⟩ : ∃ left, service.config.maxAttempts = left + 1 :=
    ⟨service.config.maxAttempts - 1, by omega⟩
  obtain ⟨earlier, hearlier, hlength, hcounts, -, hloop⟩ :=
    service.storedAttempts_eq faults scrapeRunId job request left 0 s
  rw [← hleft, h] at hcounts hloop
  obtain ⟨rfl, rfl⟩ := Prod.mk.inj hcounts
  have hleft' : service.config.maxAttempts - (0 + earlier.length + 1) = left - earlier.length := by
    omega
  refine ⟨earlier, hearlier, Nat.zero_add _, by omega, ?_⟩
  rw [hloop, hleft', List.append_assoc]

theorem answers_storeAnswer (service : EnrichmentService casefold) (faults : StorageFaults)
    (scrapeRunId : Option String) (job : NormalizedJob) (request : EnrichmentJobInput)
    (retryCount : ℕ) (s : AttemptedSession casefold)
    (answer : Except PyException (EnrichmentOutput casefold)) :
    (service.storeAnswer faults scrapeRunId job request retryCount s answer).2.answers
      = s.answers := by
  cases answer <;> rfl

/-- The loop only adds answers, and adds one if an attempt is left. -/
theorem storedAttempts_answers (service : EnrichmentService casefold) (faults : StorageFaults)
    (scrapeRunId : Option String) (job : NormalizedJob) (request : EnrichmentJobInput)
    (left retryCount : ℕ) (s : AttemptedSession casefold) :
    ∃ more, (service.storedAttempts faults scrapeRunId job request left retryCount s).2.2.answers
      = s.answers ++ more ∧ (left ≠ 0 → more ≠ []) := by
  induction left generalizing retryCount s with
  | zero => exact ⟨[], by simp [storedAttempts], by simp⟩
  | succ left ih =>
    have hone := service.answers_storeAnswer faults scrapeRunId job request retryCount
      (s.asked (service.enrichJob s.calls request)) (service.enrichJob s.calls request)
    rw [storedAttempts]
    generalize service.storeAnswer faults scrapeRunId job request retryCount
      (s.asked (service.enrichJob s.calls request)) (service.enrichJob s.calls request)
      = stored at hone
    obtain ⟨exc | exc, s'⟩ := stored
    · exact ⟨[service.enrichJob s.calls request], hone, by simp⟩
    · dsimp only
      split
      · exact ⟨[service.enrichJob s.calls request], hone, by simp⟩
      · obtain ⟨more, hmore, -⟩ := ih (retryCount + 1) s'
        refine ⟨service.enrichJob s.calls request :: more, ?_, by simp⟩
        dsimp only at hone
        rw [hmore, hone]
        simp [AttemptedSession.asked]

end EnrichmentService

end Bisakerja
