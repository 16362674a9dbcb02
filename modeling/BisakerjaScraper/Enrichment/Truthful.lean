import BisakerjaScraper.Enrichment.Attempted
import BisakerjaScraper.Sync.Partition
import Mathlib.Tactic.NormNum

/-! What the log says of the enrichment of one job.

    A run is logged as it was when one row tells its outcome. A storage error after the success was
    logged adds the row of a failure, and a retryable one asks the client again. -/

namespace Bisakerja
open Schemes

namespace EnrichmentService

variable {casefold : String → String} {service : EnrichmentService casefold}
  {faults : StorageFaults} {scrapeRunId : Option String} {job : NormalizedJob}
  {request : EnrichmentJobInput} {s : AttemptedSession casefold}

/-- A run that is logged as it was, with the answers it got and its row of the log: no answer but a
    retryable error is followed by another, and the row is a success exactly when the rows of the
    output are stored and the result is one. -/
structure TruthfulRun (service : EnrichmentService casefold) (job : NormalizedJob)
    (s s' : AttemptedSession casefold) (result : EnrichmentJobResult)
    (made : List (Except PyException (EnrichmentOutput casefold))) (log : AIRequestLog) : Prop where
  answers : s'.answers = s.answers ++ made
  attempts_le : made.length ≤ service.config.maxAttempts
  stops : ∀ before answer next rest, made = before ++ answer :: next :: rest → RetryableError answer
  logged : s'.tables.logsOf job.id = s.tables.logsOf job.id ++ [log]
  retries : log.retryCount = made.length - 1
  success : log.status = .success ↔
    (∃ output, made.getLast? = some (.ok output) ∧
      s'.tables.jobs = (upsertOutput job.id output .ai s.tables).jobs) ∧ result.status = .success

/-- `enrich_one` returns, and its run is logged as it was. -/
def Truthful (service : EnrichmentService casefold) (faults : StorageFaults)
    (scrapeRunId : Option String) (job : NormalizedJob) (s : AttemptedSession casefold) : Prop :=
  ∃ result s' made log, service.enrichOneStored faults scrapeRunId job s = (.ok result, s') ∧
    TruthfulRun service job s s' result made log

/-- The storage holds as far as the log needs it: the row of a failure is written; when an answer is
    accepted and one of its operations fails, this is not retried, leaves no row of the log, and the
    row of the failure is written. -/
def StorageHolds (service : EnrichmentService casefold) (faults : StorageFaults)
    (job : NormalizedJob) (s : AttemptedSession casefold) : Prop :=
  match service.enrichmentInputFromJob job with
  | none => faults s.writes = none
  | some request =>
    match service.attempts request service.config.maxAttempts 0 s.calls with
    | (.error _, _, _) => faults s.writes = none
    | (.ok output, retries, _) => ∀ i exc left,
      FirstFault faults s.writes (output.skills.length + output.requirements.length + 2) i exc
          left →
        (exc.retryable = true → service.config.maxAttempts ≤ retries + 1) ∧
          left.logsOf job.id = s.tables.logsOf job.id ∧ faults (s.writes + i + 1) = none

/-- A failure that is logged. -/
theorem storeFailure_of_none (service : EnrichmentService casefold) (scrapeRunId : Option String)
    (job : NormalizedJob) (model : String) (latencyMs : ℤ) (retryCount : ℕ)
    (request : EnrichmentJobInput) (exc : PyException) (h : faults s.writes = none) :
    ∃ result s' log,
      service.storeFailure faults scrapeRunId job model latencyMs retryCount request exc s
        = (.ok result, s') ∧ result.status = .failed ∧ s'.answers = s.answers ∧
        log.status = .failed ∧ log.retryCount = retryCount ∧
        s'.tables.logsOf job.id = s.tables.logsOf job.id ++ [log] := by
  obtain ⟨log, hstatus, hretries, hlogs⟩ := logsOf_createAiRequestLog service.hash service.hostname
    (service.logFor job scrapeRunId model latencyMs .failed retryCount request
      [("errorCategory", .str exc.category)] (some exc)) s.tables
  refine ⟨{ normalizedJobId := job.id, status := .failed, errorCategory := some exc.category
            errorMessage := some exc.message }, { s with tables := _, writes := s.writes + 1 }, log,
    ?_, rfl, rfl, hstatus, hretries, hlogs⟩
  simp only [storeFailure, AttemptedSession.store, runWrites, h]
  rfl

/-- A failure whose row is not written is raised. -/
theorem storeFailure_of_fault (service : EnrichmentService casefold) (scrapeRunId : Option String)
    (job : NormalizedJob) (model : String) (latencyMs : ℤ) (retryCount : ℕ)
    (request : EnrichmentJobInput) (exc : PyException) {error : PyException} {left : StageTables}
    (h : faults s.writes = some (error, left)) :
    ∃ s', service.storeFailure faults scrapeRunId job model latencyMs retryCount request exc s
      = (.error error, s') := by
  refine ⟨{ s with tables := left, writes := s.writes + 1 }, ?_⟩
  simp [storeFailure, AttemptedSession.store, runWrites, h]

/-- A run that ends in a failure is logged as it was exactly when the row of the failure is written,
    and is the only one. -/
theorem truthful_iff_of_failure {s₁ : AttemptedSession casefold} {model : String} {latencyMs : ℤ}
    {retryCount : ℕ} {exc : PyException}
    {made : List (Except PyException (EnrichmentOutput casefold))}
    (hrun : service.enrichOneStored faults scrapeRunId job s
      = service.storeFailure faults scrapeRunId job model latencyMs retryCount request exc s₁)
    (hanswers : s₁.answers = s.answers ++ made)
    (hle : made.length ≤ service.config.maxAttempts)
    (hstops : ∀ before answer next rest, made = before ++ answer :: next :: rest →
      RetryableError answer)
    (hretries : retryCount = made.length - 1) :
    service.Truthful faults scrapeRunId job s ↔
      s₁.tables.logsOf job.id = s.tables.logsOf job.id ∧ faults s₁.writes = none := by
  unfold Truthful
  rw [hrun]
  cases hfault : faults s₁.writes with
  | some failure =>
    obtain ⟨error, left⟩ := failure
    obtain ⟨s', hraised⟩ := service.storeFailure_of_fault scrapeRunId job model latencyMs retryCount
      request exc hfault
    rw [hraised]
    refine iff_of_false ?_ (by simp)
    rintro ⟨result, s'', made', log, hreturns, -⟩
    cases hreturns
  | none =>
    obtain ⟨result, s', log, hreturned, hfailed, hsame, hstatus, hcount, hlogs⟩ :=
      service.storeFailure_of_none scrapeRunId job model latencyMs retryCount request exc hfault
    rw [hreturned]
    constructor
    · rintro ⟨result', s'', made', log', hreturns, htruthful⟩
      cases hreturns
      have happended := hlogs.symm.trans htruthful.logged
      exact ⟨(List.append_inj' happended rfl).1, rfl⟩
    · rintro ⟨hsameLogs, -⟩
      refine ⟨result, s', made, log, rfl, ⟨hsame.trans hanswers, hle, hstops, ?_, ?_, ?_⟩⟩
      · rw [hlogs, hsameLogs]
      · rw [hcount, hretries]
      · rw [hstatus, hfailed]
        simp

theorem answers_storeFailure {model : String} {latencyMs : ℤ} {retryCount : ℕ} {exc : PyException}
    {result : EnrichmentJobResult} {s' : AttemptedSession casefold}
    (h : service.storeFailure faults scrapeRunId job model latencyMs retryCount request exc s
      = (.ok result, s')) : s'.answers = s.answers := by
  cases hfault : faults s.writes with
  | none =>
    obtain ⟨_, _, _, hreturned, -, hsame, -⟩ :=
      service.storeFailure_of_none scrapeRunId job model latencyMs retryCount request exc hfault
    rw [h] at hreturned
    cases hreturned
    exact hsame
  | some failure =>
    obtain ⟨_, hraised⟩ := service.storeFailure_of_fault scrapeRunId job model latencyMs retryCount
      request exc hfault
    rw [h] at hraised
    cases hraised

/-- Nothing is asked after a success. -/
theorem not_truthful_of_asked {output : EnrichmentOutput casefold}
    {earlier more : List (Except PyException (EnrichmentOutput casefold))} (hmore : more ≠ [])
    (hanswers : ∀ result s', service.enrichOneStored faults scrapeRunId job s = (.ok result, s') →
      s'.answers = s.answers ++ (earlier ++ .ok output :: more)) :
    ¬ service.Truthful faults scrapeRunId job s := by
  rintro ⟨result, s', made, log, hreturned, htruthful⟩
  have hmade := List.append_cancel_left
    (htruthful.answers.symm.trans (hanswers result s' hreturned))
  obtain ⟨next, rest, rfl⟩ := List.exists_cons_of_ne_nil hmore
  obtain ⟨exc, hexc, -⟩ := htruthful.stops earlier (.ok output) next rest hmade
  cases hexc

/-- Before the last of some answers there are only retryable errors. -/
theorem stops_of_earlier {earlier : List (Except PyException (EnrichmentOutput casefold))}
    {last : Except PyException (EnrichmentOutput casefold)}
    (h : ∀ answer ∈ earlier, RetryableError answer) :
    ∀ before answer next rest, earlier ++ [last] = before ++ answer :: next :: rest →
      RetryableError answer := by
  intro before answer next rest hsplit
  have hearlier := congrArg List.dropLast hsplit
  rw [List.dropLast_concat, List.dropLast_append_of_ne_nil (by simp)] at hearlier
  exact h answer (by rw [hearlier]; simp)

/-- An accepted answer on a storage that holds. -/
theorem storeAnswer_of_none (service : EnrichmentService casefold) (scrapeRunId : Option String)
    (job : NormalizedJob) (request : EnrichmentJobInput) (retryCount : ℕ)
    (s : AttemptedSession casefold) {output : EnrichmentOutput casefold}
    (h : ∀ i < output.skills.length + output.requirements.length + 2,
      faults (s.writes + i) = none) :
    ∃ s', service.storeAnswer faults scrapeRunId job request retryCount s (.ok output)
        = (none, s') ∧
      s'.answers = s.answers ∧
      s'.tables = (service.successWrites scrapeRunId job request retryCount output s).foldl
        (fun s write => write s) s.tables := by
  rw [← service.length_successWrites scrapeRunId job request retryCount output s] at h
  simp only [storeAnswer, AttemptedSession.store, runWrites_of_none h]
  exact ⟨_, rfl, rfl, rfl⟩

/-- An accepted answer on a storage that fails. -/
theorem storeAnswer_of_fault (service : EnrichmentService casefold) (scrapeRunId : Option String)
    (job : NormalizedJob) (request : EnrichmentJobInput) (retryCount : ℕ)
    (s : AttemptedSession casefold) {output : EnrichmentOutput casefold} {i : ℕ} {exc : PyException}
    {left : StageTables}
    (h : FirstFault faults s.writes (output.skills.length + output.requirements.length + 2) i exc
      left) :
    ∃ s', service.storeAnswer faults scrapeRunId job request retryCount s (.ok output)
        = (some exc, s') ∧ s'.answers = s.answers ∧ s'.tables = left ∧
      s'.writes = s.writes + i + 1 := by
  rw [← service.length_successWrites scrapeRunId job request retryCount output s] at h
  simp only [storeAnswer, AttemptedSession.store, runWrites_of_fault h]
  exact ⟨_, rfl, rfl, rfl, rfl⟩

/-- An answer that is stored in full is logged as it was. -/
theorem truthful_of_stored {output : EnrichmentOutput casefold} {s₁ s' : AttemptedSession casefold}
    {retryCount : ℕ} {made : List (Except PyException (EnrichmentOutput casefold))}
    (hrun : service.enrichOneStored faults scrapeRunId job s
      = (.ok { normalizedJobId := job.id, status := .success }, s'))
    (htables : s'.tables = (service.successWrites scrapeRunId job request retryCount output
      s₁).foldl (fun s write => write s) s.tables)
    (hanswers : s'.answers = s.answers ++ made)
    (hlast : made.getLast? = some (.ok output))
    (hle : made.length ≤ service.config.maxAttempts)
    (hstops : ∀ before answer next rest, made = before ++ answer :: next :: rest →
      RetryableError answer)
    (hretries : retryCount = made.length - 1) : service.Truthful faults scrapeRunId job s := by
  obtain ⟨log, hstatus, hcount, hlogs⟩ := logsOf_createAiRequestLog service.hash service.hostname
    (service.logFor job scrapeRunId (service.selectedModelForLog s₁.calls)
      (service.host.latencyMs s₁.ticks) .success retryCount request
      (responseSummaryFromOutput output) none) s.tables
  rw [successWrites, List.foldl_cons, foldl_outputWrites] at htables
  refine ⟨_, s', made, log, hrun, hanswers, hle, hstops, ?_, hcount.trans hretries,
    iff_of_true hstatus ⟨⟨output, hlast, ?_⟩, rfl⟩⟩
  · rw [htables]
    exact hlogs
  · rw [htables]
    rfl

theorem enrichOneStored_of_success {retryCount : ℕ} {s₁ : AttemptedSession casefold}
    (hrequest : service.enrichmentInputFromJob job = some request)
    (hloop : service.storedAttempts faults scrapeRunId job request service.config.maxAttempts 0 s
      = (none, retryCount, s₁)) :
    service.enrichOneStored faults scrapeRunId job s
      = (.ok { normalizedJobId := job.id, status := .success }, s₁) := by
  rw [enrichOneStored, hrequest]
  simp only [hloop]

theorem enrichOneStored_of_failure {retryCount : ℕ} {exc : PyException}
    {s₁ : AttemptedSession casefold}
    (hrequest : service.enrichmentInputFromJob job = some request)
    (hloop : service.storedAttempts faults scrapeRunId job request service.config.maxAttempts 0 s
      = (some exc, retryCount, s₁)) :
    service.enrichOneStored faults scrapeRunId job s
      = service.storeFailure faults scrapeRunId job (service.selectedModelForLog s₁.calls)
          (service.host.latencyMs s₁.ticks) retryCount request exc
          { s₁ with ticks := s₁.ticks + 1 } := by
  rw [enrichOneStored, hrequest]
  simp only [hloop]

/-- Only the loop asks. -/
theorem answers_enrichOneStored {result : EnrichmentJobResult} {s' : AttemptedSession casefold}
    (hrequest : service.enrichmentInputFromJob job = some request)
    (h : service.enrichOneStored faults scrapeRunId job s = (.ok result, s')) :
    s'.answers = (service.storedAttempts faults scrapeRunId job request
      service.config.maxAttempts 0 s).2.2.answers := by
  rcases hloop : service.storedAttempts faults scrapeRunId job request service.config.maxAttempts
    0 s with ⟨exc | exc, r, s₁⟩
  · rw [enrichOneStored_of_success hrequest hloop] at h
    cases h
    rfl
  · rw [enrichOneStored_of_failure hrequest hloop] at h
    exact (answers_storeFailure h :)

/-- On a storage that never fails this is `enrichOne`. -/
theorem enrichOneStored_of_none (hnone : ∀ n, faults n = none) :
    ∃ s', service.enrichOneStored faults scrapeRunId job s
        = (.ok (service.enrichOne scrapeRunId job ⟨s.tables, s.calls, s.ticks⟩).1, s') ∧
      (⟨s'.tables, s'.calls, s'.ticks⟩ : EnrichmentSession)
        = (service.enrichOne scrapeRunId job ⟨s.tables, s.calls, s.ticks⟩).2 := by
  unfold enrichOne
  cases hrequest : service.enrichmentInputFromJob job with
  | none =>
    simp only [enrichOneStored, hrequest, storeFailure, AttemptedSession.store, runWrites, hnone,
      recordFailure]
    exact ⟨_, rfl, rfl⟩
  | some request =>
    dsimp only
    rcases hattempts : service.attempts request service.config.maxAttempts 0 s.calls
      with ⟨exc | output, r, c⟩
    · obtain ⟨earlier, -, -, -, hloop⟩ := storedAttempts_of_error faults scrapeRunId job
        hattempts
      rw [enrichOneStored_of_failure hrequest hloop]
      simp only [storeFailure, AttemptedSession.store, runWrites, hnone, recordFailure]
      exact ⟨_, rfl, rfl⟩
    · obtain ⟨earlier, -, -, -, hloop⟩ := storedAttempts_of_ok faults scrapeRunId job
        hattempts
      rw [afterAnswer, storeAnswer, AttemptedSession.store,
        runWrites_of_none fun i _ => hnone (_ + i)] at hloop
      refine ⟨_, enrichOneStored_of_success hrequest hloop, ?_⟩
      rw [successWrites, List.foldl_cons, foldl_outputWrites]

/-- BUG: a storage error is retried, and logged besides the success. The attempts of a job are
    logged as they were exactly when the storage holds. -/
theorem truthful_iff (service : EnrichmentService casefold) (faults : StorageFaults)
    (scrapeRunId : Option String) (job : NormalizedJob) (s : AttemptedSession casefold) :
    service.Truthful faults scrapeRunId job s ↔ service.StorageHolds faults job s := by
  cases hrequest : service.enrichmentInputFromJob job with
  | none =>
    have hrun : service.enrichOneStored faults scrapeRunId job s = service.storeFailure faults
        scrapeRunId job service.fallbackModel 0 0 failedRequestInput
        (.plain "ValidationError" (service.validationMessage job)) s := by
      rw [enrichOneStored, hrequest]
    have hfailure := truthful_iff_of_failure hrun (List.append_nil _).symm (Nat.zero_le _)
      (by simp) rfl
    rw [hfailure, StorageHolds, hrequest]
    simp
  | some request =>
    rw [StorageHolds, hrequest]
    dsimp only
    rcases hattempts : service.attempts request service.config.maxAttempts 0 s.calls
      with ⟨exc | output, r, c⟩
    · obtain ⟨earlier, hearlier, rfl, hle, hloop⟩ := storedAttempts_of_error faults scrapeRunId job
        hattempts
      have hfailure := truthful_iff_of_failure (enrichOneStored_of_failure hrequest hloop) rfl
        (by simpa using hle) (stops_of_earlier hearlier) (by simp)
      rw [hfailure]
      simp
    · obtain ⟨earlier, hearlier, rfl, hle, hloop⟩ := storedAttempts_of_ok faults scrapeRunId job
        hattempts
      have hmade : (earlier ++ [Except.ok output]).length ≤ service.config.maxAttempts := by
        simpa using hle
      rw [afterAnswer] at hloop
      rcases none_or_firstFault faults s.writes
        (output.skills.length + output.requirements.length + 2) with hnone | ⟨i, exc, after, hfault⟩
      · obtain ⟨s', hstored, hanswers, htables⟩ := service.storeAnswer_of_none scrapeRunId job
          request earlier.length { s with
            calls := c
            answers := s.answers ++ (earlier ++ [.ok output]) } hnone
        rw [hstored] at hloop
        have htruthful := truthful_of_stored (enrichOneStored_of_success hrequest hloop) htables
          hanswers (by simp) hmade (stops_of_earlier hearlier) (by simp)
        refine iff_of_true htruthful fun i exc after hfault => ?_
        have hfails := hfault.fails
        rw [hnone i hfault.lt] at hfails
        cases hfails
      · obtain ⟨s', hstored, hanswers, htables, hwrites⟩ := service.storeAnswer_of_fault scrapeRunId
          job request earlier.length { s with
            calls := c
            answers := s.answers ++ (earlier ++ [.ok output]) } hfault
        rw [hstored] at hloop
        dsimp only at hloop
        split at hloop
        · next hlast =>
          have hfailure := truthful_iff_of_failure (enrichOneStored_of_failure hrequest hloop)
            hanswers hmade (stops_of_earlier hearlier) (by simp)
          rw [hfailure, htables, hwrites]
          constructor
          · rintro ⟨hlogs, hnext⟩ i' exc' after' hfault'
            obtain ⟨rfl, rfl, rfl⟩ := hfault.unique hfault'
            refine ⟨fun hretryable => ?_, hlogs, hnext⟩
            simp only [hretryable, Bool.not_true, Bool.false_or, decide_eq_true_eq] at hlast
            omega
          · intro h
            exact (h i exc after hfault).2
        · next hretried =>
          simp only [Bool.or_eq_true, Bool.not_eq_true', decide_eq_true_eq, not_or,
            Bool.not_eq_false] at hretried
          obtain ⟨more, hmore, hne⟩ := service.storedAttempts_answers faults scrapeRunId job request
            (service.config.maxAttempts - (earlier.length + 1)) (earlier.length + 1) s'
          have hasked : ∀ result s'',
              service.enrichOneStored faults scrapeRunId job s = (.ok result, s'') →
              s''.answers = s.answers ++ (earlier ++ .ok output :: more) := by
            intro result s'' hreturned
            rw [answers_enrichOneStored hrequest hreturned, hloop, hmore, hanswers]
            simp
          refine iff_of_false (not_truthful_of_asked (hne hretried.2) hasked) fun h => ?_
          have henough := (h i exc after hfault).1 hretried.1
          omega

end EnrichmentService

/-! ### A storage error -/

/-- A service whose client finds one skill. -/
def oneSkillService : EnrichmentService fun name => name where
  config := { maxAttempts_pos := Nat.two_pos }
  host := ⟨fun t => t, fun t => toString t, fun _ => 0⟩
  hash := plainHash
  hostname := fun _ => none
  clientModel := "gpt-test"
  lastModel := fun _ => none
  enrichJob := fun _ _ => .ok
    { skills := [⟨"Lead", ⟨1, confidence_one⟩⟩], requirements := []
      confidence := ⟨1, confidence_one⟩
      skills_nodup := by simp, requirements_nodup := requirements_nodup_nil }
  str := fun value => match value with
    | .str text => text
    | _ => ""
  validationMessage := fun _ => ""

/-- A job that can be asked about. -/
def leadJob : NormalizedJob := plainJob "a" "Ac" 0

/-- The log once the success of a job has been written. -/
def successLogged : StageTables :=
  createAiRequestLog plainHash (fun _ => none)
    { normalizedJobId := leadJob.id, scrapeRunId := none, provider := "openai-compatible"
      model := "unknown", baseUrl := none, latencyMs := some 0, status := .success, retryCount := 0
      request := .null } { jobs := ⟨⟨[], by decide⟩, ⟨[leadJob], List.nodup_singleton _⟩⟩ }

/-- The staging row of the skill is not written. -/
def skillRowFails (exc : PyException) : StorageFaults := fun n =>
  if n = 1 then some (exc, successLogged) else none

/-- The session before the job. -/
def beforeOneSkill : AttemptedSession fun name => name :=
  { tables := { jobs := successLogged.jobs } }

/-- When a staging row is not written, the job has a row of a success and one of a failure; after a
    retryable error the client is asked again. -/
theorem storage_error_logged_twice :
    ((oneSkillService.enrichOneStored
        (skillRowFails (.plain "OperationalError" "database is locked")) none leadJob
        beforeOneSkill).2.tables.logsOf leadJob.id).map AIRequestLog.status
          = [.success, .failed] ∧
      (oneSkillService.enrichOneStored (skillRowFails (.scraper .persist "busy" none true []))
        none leadJob beforeOneSkill).2.answers.length = 2 ∧
      ¬ oneSkillService.Truthful (skillRowFails (.plain "OperationalError" "database is locked"))
        none leadJob beforeOneSkill := by
  have htwice : ((oneSkillService.enrichOneStored
      (skillRowFails (.plain "OperationalError" "database is locked"))
        none leadJob beforeOneSkill).2.tables.logsOf leadJob.id).map AIRequestLog.status
          = [.success, .failed] := by decide +kernel
  refine ⟨htwice, by decide +kernel, ?_⟩
  rintro ⟨result, s', made, log, hrun, htruthful⟩
  rw [hrun, htruthful.logged, List.map_append] at htwice
  have hnone : beforeOneSkill.tables.logsOf leadJob.id = [] := rfl
  rw [hnone] at htwice
  simp at htwice

end Bisakerja
