import BisakerjaScraper.Sync.Frame

/-! Which jobs fit under the limit.

    The listing walks the eligible jobs newest first and keeps a job whose payload does not build
    without looking at its event. Such a job is therefore listed on every run, dead-lettered or
    not, and takes its place under the limit; enough of them in front keep the valid jobs out for
    good. -/

namespace Bisakerja
open Schemes Schemes.Delivery

namespace BackendSyncWorker

variable (w : BackendSyncWorker) (db : JobTables) (p : SyncParams)

/-- The eligible jobs of a run, newest first. -/
def eligible : List NormalizedJob :=
  listEligibleJobs db syncEligibleStatuses p.sourcePlatforms p.scrapeRunId

/-- The job's event is missing or retryable. -/
def isDue (events : SyncEvents) (job : NormalizedJob) : Bool :=
  (events.find? (w.keyOf db job)).all fun event => isRetryableEvent event w.maxAttempts

variable {w db p}

/-- The two branches of the listing. -/
theorem isCandidate_eq (events : SyncEvents) (job : NormalizedJob) :
    w.isCandidate db events job = (!w.contractValid db job || w.isDue db events job) := by
  unfold isCandidate contractValid isDue
  cases hp : w.payloadOf db job with
  | error exc => rfl
  | ok payload =>
    have hkey : w.keyOf db job = eventKey w.hash job (some (w.hash.digest payload)) := by
      simp [keyOf, payloadHash, hp]
    simp only [findEvent, hkey]
    cases events.find? (eventKey w.hash job (some (w.hash.digest payload))) <;> rfl

theorem candidates_eq (hlimit : 1 ≤ p.limit) (events : SyncEvents) :
    w.listBackendPayloadCandidates db p events
      = ((eligible db p).filter (w.isCandidate db events)).take p.limit.toNat :=
  collectUpTo_nil _ hlimit _

/-- In a list without repetitions, an element is among the first `n` that pass a test exactly when
    fewer than `n` pass before it. -/
theorem mem_take_filter_iff {α : Type} {q : α → Bool} {before after : List α} {x : α}
    (hq : q x = true) (hnodup : (before ++ x :: after).Nodup) (n : ℕ) :
    x ∈ ((before ++ x :: after).filter q).take n ↔ before.countP q < n := by
  rw [List.filter_append, List.filter_cons_of_pos hq, List.countP_eq_length_filter]
  constructor
  · intro hmem
    by_contra hge
    rw [List.take_append_of_le_length (by omega)] at hmem
    have hbefore := (List.mem_filter.mp (List.mem_of_mem_take hmem)).1
    exact List.disjoint_of_nodup_append hnodup hbefore List.mem_cons_self
  · intro hlt
    rw [List.take_append, List.mem_append]
    right
    obtain ⟨m, hm⟩ : ∃ m, n - (before.filter q).length = m + 1 :=
      ⟨n - (before.filter q).length - 1, by omega⟩
    rw [hm, List.take_succ_cons]
    exact List.mem_cons_self

theorem nodup_eligible : (eligible db p).Nodup :=
  List.Nodup.of_map _ (nodup_listEligibleJobs db syncEligibleStatuses p.sourcePlatforms
    p.scrapeRunId)

/-! ### Repeated runs over unchanged tables -/

/-- The job's event counts as due in every table with the same mark under its key. -/
theorem isDue_congr {events events' : SyncEvents} {job : NormalizedJob}
    (h : ledger events' (w.keyOf db job) = ledger events (w.keyOf db job)) :
    w.isDue db events' job = w.isDue db events job := by
  unfold isDue
  unfold ledger at h
  cases hf : events.find? (w.keyOf db job) with
  | none =>
    rw [hf, Option.map_none, Option.map_eq_none_iff] at h
    rw [h]
  | some event =>
    rw [hf, Option.map_some, Option.map_eq_some_iff] at h
    obtain ⟨event', hf', hmark⟩ := h
    rw [hf', Option.all_some, Option.all_some, Bool.eq_iff_iff, isRetryableEvent_iff,
      isRetryableEvent_iff, hmark]

/-- Two event tables that agree on the valid eligible jobs list the same candidates. -/
theorem candidates_congr (hlimit : 1 ≤ p.limit) {events events' : SyncEvents}
    (h : ∀ job ∈ eligible db p, w.contractValid db job = true →
      ledger events' (w.keyOf db job) = ledger events (w.keyOf db job)) :
    w.listBackendPayloadCandidates db p events' = w.listBackendPayloadCandidates db p events := by
  rw [candidates_eq hlimit, candidates_eq hlimit]
  refine congrArg (List.take p.limit.toNat) (List.filter_congr fun job hjob => ?_)
  rw [isCandidate_eq, isCandidate_eq]
  cases hvalid : w.contractValid db job with
  | false => rfl
  | true => rw [isDue_congr (h job hjob hvalid)]

variable (db p)

/-- A run that lists the same jobs under the same limit; its chunks may be of any size. -/
structure SyncRun.Lists (run : SyncRun) : Prop where
  db_eq : run.db = db
  scrapeRunId : run.params.scrapeRunId = p.scrapeRunId
  sourcePlatforms : run.params.sourcePlatforms = p.sourcePlatforms
  limit : run.params.limit = p.limit

variable {db p}

theorem SyncRun.Lists.candidates {run : SyncRun} (h : run.Lists db p) (events : SyncEvents) :
    w.listBackendPayloadCandidates run.db run.params events
      = w.listBackendPayloadCandidates db p events := by
  unfold listBackendPayloadCandidates
  rw [h.db_eq, h.scrapeRunId, h.sourcePlatforms, h.limit]

/-- With only invalid candidates, a run leaves the marks of the valid jobs as they are. -/
theorem ledger_runOnce_of_invalid {run : SyncRun} (hrun : run.Lists db p) {s : SyncState}
    (hinvalid : ∀ job ∈ w.listBackendPayloadCandidates db p s.events,
      w.contractValid db job = false)
    {job : NormalizedJob} (hjob : job ∈ eligible db p) (hvalid : w.contractValid db job = true) :
    ledger (w.runOnce s run).events (w.keyOf db job) = ledger s.events (w.keyOf db job) := by
  have hid : ∀ job' ∈ w.listBackendPayloadCandidates run.db run.params s.events,
      job'.id ≠ job.id := by
    intro job' hjob' hid
    rw [hrun.candidates] at hjob'
    have hmem := (collectUpTo_sublist (w.isCandidate db s.events) p.limit _).subset hjob'
    have heq := List.inj_on_of_nodup_map (nodup_listEligibleJobs db syncEligibleStatuses
      p.sourcePlatforms p.scrapeRunId) (List.mem_filter.mp hmem).1 hjob hid
    have hbad := hinvalid job' hjob'
    rw [heq, hvalid] at hbad
    cases hbad
  exact (untouched_runOnce hid).events _ (eventKey_normalizedJobId _ _ _)

/-- With only invalid candidates at the start, every run of the sequence lists the same ones. -/
theorem candidates_runHistory (hlimit : 1 ≤ p.limit) (runs : List SyncRun)
    (hruns : ∀ run ∈ runs, run.Lists db p) (s : SyncState)
    (hinvalid : ∀ job ∈ w.listBackendPayloadCandidates db p s.events,
      w.contractValid db job = false) :
    w.listBackendPayloadCandidates db p (w.runHistory runs s).events
      = w.listBackendPayloadCandidates db p s.events := by
  induction runs generalizing s with
  | nil => rfl
  | cons run runs ih =>
    have hrun := hruns run List.mem_cons_self
    have hstep : w.listBackendPayloadCandidates db p (w.runOnce s run).events
        = w.listBackendPayloadCandidates db p s.events :=
      candidates_congr hlimit fun job hjob hvalid =>
        ledger_runOnce_of_invalid hrun hinvalid hjob hvalid
    have hrest := ih (fun run' hrun' => hruns run' (List.mem_cons_of_mem run hrun'))
      (w.runOnce s run) (by rwa [hstep])
    exact hrest.trans hstep

/-! ### The newest job that is due -/

variable (w db p)

/-- `job` is the newest eligible job that is valid and due; `newer` are the jobs in front of it. -/
structure NewestDue (events : SyncEvents) (newer : List NormalizedJob) (job : NormalizedJob) :
    Prop where
  valid : w.contractValid db job = true
  due : w.isDue db events job = true
  newest : ∀ job' ∈ newer, w.contractValid db job' = true → w.isDue db events job' = false

variable {w db p}

/-- In front of the newest due job only the invalid ones are listed. -/
theorem NewestDue.filter_newer {events : SyncEvents} {newer : List NormalizedJob}
    {job : NormalizedJob} (h : w.NewestDue db events newer job) :
    newer.filter (w.isCandidate db events) = newer.filter fun job' => !w.contractValid db job' := by
  refine List.filter_congr fun job' hjob' => ?_
  rw [isCandidate_eq]
  cases hvalid : w.contractValid db job' with
  | false => rfl
  | true => simp [h.newest job' hjob' hvalid]

theorem NewestDue.mem_candidates_iff (hlimit : 1 ≤ p.limit) {events : SyncEvents}
    {newer older : List NormalizedJob} {job : NormalizedJob}
    (hsplit : eligible db p = newer ++ job :: older) (h : w.NewestDue db events newer job) :
    job ∈ w.listBackendPayloadCandidates db p events ↔
      newer.countP (fun job' => !w.contractValid db job') < p.limit.toNat := by
  have hcand : w.isCandidate db events job = true := by rw [isCandidate_eq, h.valid, h.due]; rfl
  rw [candidates_eq hlimit, hsplit,
    mem_take_filter_iff hcand (hsplit ▸ nodup_eligible), List.countP_eq_length_filter,
    h.filter_newer, ← List.countP_eq_length_filter]

/-- With enough invalid jobs in front, nothing else is listed. -/
theorem NewestDue.invalid_of_full (hlimit : 1 ≤ p.limit) {events : SyncEvents}
    {newer older : List NormalizedJob} {job : NormalizedJob}
    (hsplit : eligible db p = newer ++ job :: older) (h : w.NewestDue db events newer job)
    (hfull : p.limit.toNat ≤ newer.countP fun job' => !w.contractValid db job') :
    ∀ job' ∈ w.listBackendPayloadCandidates db p events, w.contractValid db job' = false := by
  intro job' hjob'
  rw [List.countP_eq_length_filter, ← h.filter_newer] at hfull
  rw [candidates_eq hlimit, hsplit, List.filter_append, List.take_append_of_le_length hfull,
    h.filter_newer] at hjob'
  have hmem := (List.mem_filter.mp (List.mem_of_mem_take hjob')).2
  simpa using hmem

/-- BUG: the listing does not look at the event of a job whose payload does not build. Such a job
    is left out only when the limit is reached in front of it, dead-lettered or not; and of a
    sequence of runs some run lists a valid job exactly when the invalid jobs newer than the
    newest due one do not fill the limit. -/
theorem invalid_jobs_fill_limit (hlimit : 1 ≤ p.limit) :
    (∀ (events : SyncEvents) (newer older : List NormalizedJob) (job : NormalizedJob),
      eligible db p = newer ++ job :: older → w.contractValid db job = false →
        (job ∉ w.listBackendPayloadCandidates db p events ↔
          p.limit.toNat ≤ newer.countP (w.isCandidate db events))) ∧
    (∀ (s : SyncState) (runs : List SyncRun) (newer older : List NormalizedJob)
      (job : NormalizedJob), runs ≠ [] → (∀ run ∈ runs, run.Lists db p) →
        eligible db p = newer ++ job :: older → w.NewestDue db s.events newer job →
          ((∃ i < runs.length, ∃ job' ∈ w.listBackendPayloadCandidates db p
              (w.runHistory (runs.take i) s).events, w.contractValid db job' = true) ↔
            newer.countP (fun job' => !w.contractValid db job') < p.limit.toNat)) := by
  constructor
  · intro events newer older job hsplit hinvalid
    have hcand : w.isCandidate db events job = true := by rw [isCandidate_eq, hinvalid]; rfl
    rw [candidates_eq hlimit, hsplit,
      mem_take_filter_iff hcand (hsplit ▸ nodup_eligible), not_lt]
  · intro s runs newer older job hruns hlists hsplit hnewest
    constructor
    · rintro ⟨i, -, job', hjob', hvalid⟩
      by_contra hfull
      have hinvalid := hnewest.invalid_of_full hlimit hsplit (not_lt.mp hfull)
      rw [candidates_runHistory hlimit (runs.take i)
        (fun run hrun => hlists run (List.mem_of_mem_take hrun)) s hinvalid] at hjob'
      rw [hinvalid job' hjob'] at hvalid
      cases hvalid
    · intro hroom
      exact ⟨0, List.length_pos_iff.mpr hruns, job,
        (hnewest.mem_candidates_iff hlimit hsplit).mpr hroom, hnewest.valid⟩

end BackendSyncWorker

/-- A job that never builds and an older one that does. -/
def blockedJobs : JobTables := jobTables [plainJob "a" "Ac" 1, plainJob "x" "-" 2] (by decide)

/-- Runs that attempt a single job. -/
def oneByOne : SyncParams := { scrapeRunId := none, limit := 1 }

/-- After one run `x` is dead-lettered and `a` is due, yet each of the first two runs, the bound
    for one invalid job under a limit of one, lists `x` alone. -/
theorem dead_letter_starves :
    let w := plainWorker 3 fun _ _ => accepted
    let run : BackendSyncWorker.SyncRun := ⟨blockedJobs, oneByOne⟩
    let x := plainJob "x" "-" 2
    let after := fun i => (w.runHistory (List.replicate i run) (.initial 0)).events
    ((after 1).find? (eventKey w.hash x none)).map SyncEvent.status = some .deadLetter ∧
      (after 1).find? (w.keyOf blockedJobs (plainJob "a" "Ac" 1)) = none ∧
      (w.listBackendPayloadCandidates blockedJobs oneByOne (after 0)).map NormalizedJob.id
        = ["x"] ∧
      (w.listBackendPayloadCandidates blockedJobs oneByOne (after 1)).map NormalizedJob.id
        = ["x"] := by
  decide +kernel

theorem invalid_jobs_fill_limit_oneByOne :
    let w := plainWorker 3 fun _ _ => accepted
    let run : BackendSyncWorker.SyncRun := ⟨blockedJobs, oneByOne⟩
    let x := plainJob "x" "-" 2
    (x ∉ w.listBackendPayloadCandidates blockedJobs oneByOne (Table.empty _) ↔ 1 ≤ 0) ∧
      ((∃ i < 2, ∃ job ∈ w.listBackendPayloadCandidates blockedJobs oneByOne
          (w.runHistory ([run, run].take i) (.initial 0)).events,
        w.contractValid blockedJobs job = true) ↔ 1 < 1) := by
  have hlimit : 1 ≤ oneByOne.limit := by decide
  have hsplit : BackendSyncWorker.eligible blockedJobs oneByOne
      = [plainJob "x" "-" 2, plainJob "a" "Ac" 1] := rfl
  have hlists : BackendSyncWorker.SyncRun.Lists blockedJobs oneByOne ⟨blockedJobs, oneByOne⟩ :=
    ⟨rfl, rfl, rfl, rfl⟩
  exact ⟨(BackendSyncWorker.invalid_jobs_fill_limit hlimit).1 _ [] _ _ hsplit (by decide +kernel),
    (BackendSyncWorker.invalid_jobs_fill_limit hlimit).2 _ [⟨blockedJobs, oneByOne⟩, ⟨blockedJobs, oneByOne⟩] [plainJob "x" "-" 2] [] _
      (by simp) (by simp [hlists]) hsplit
      ⟨by decide +kernel, by decide +kernel, by decide +kernel⟩⟩

end Bisakerja
