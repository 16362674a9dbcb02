import BisakerjaScraper.Core.Errors
import BisakerjaScraper.Persistence.Models

/-! The stage queue.

    A job is claimed, handled, and then completed or failed. The claim looks at the status, the time
    and the attempts of a job; the failure decides between another attempt and the dead letters. What
    links them is `StageJob.Accounted`, which every call keeps. -/

namespace Bisakerja
open Schemes

/-- `StageJobType`. -/
inductive StageJobType where
  | scrapeSource | normalizeRaw | enrichBatch | syncBatch | notifyHandoff
  deriving DecidableEq

/-- `StageJobStatus`. -/
inductive StageJobStatus where | pending | running | completed | failed | deadLetter
  deriving DecidableEq

/-- A `stage_jobs` row, without what a handler reads of it. -/
structure StageJob where
  id : String
  jobType : StageJobType
  status : StageJobStatus
  attemptCount : ℤ
  maxAttempts : ℤ
  availableAt : Time
  createdAt : Time
  lockedAt : Option Time := none
  completedAt : Option Time := none
  errorCategory : Option String := none
  errorMessage : Option String := none

/-- The stage jobs, by primary key. -/
abbrev StageJobs := Table StageJob StageJob.id

/-- `QueueJobInput`. -/
structure QueueJobInput where
  jobType : StageJobType
  maxAttempts : ℤ := 3
  availableAt : Option Time := none

/-- `QueueFailure`. -/
structure QueueFailure where
  category : String
  message : String
  retryDelaySeconds : ℤ := 0

/-! ### The repository -/

/-- `enqueue`, with the id and the time the row gets. -/
def enqueue (jobs : StageJobs) (id : String) (now : Time) (item : QueueJobInput) :
    Except PyException StageJobs :=
  if item.maxAttempts < 1 then .error (.plain "ValueError" "max_attempts must be at least 1")
  else .ok (jobs.insert
    { id
      jobType := item.jobType
      status := .pending
      attemptCount := 0
      maxAttempts := item.maxAttempts
      availableAt := item.availableAt.getD now
      createdAt := now })

/-- The `where` clause of `claim_next`. -/
def StageJob.claimable (jobType : StageJobType) (now : Time) (job : StageJob) : Bool :=
  job.jobType = jobType && (job.status = .pending || job.status = .failed) &&
    job.availableAt ≤ now && job.attemptCount < job.maxAttempts

/-- `order_by(available_at, created_at).limit(1)`. -/
def firstAvailable : List StageJob → Option StageJob
  | [] => none
  | job :: rest =>
    match firstAvailable rest with
    | none => some job
    | some other =>
      if other.availableAt < job.availableAt ∨
          other.availableAt = job.availableAt ∧ other.createdAt < job.createdAt then some other
      else some job

/-- The `select` of `claim_next`. -/
def selectClaimable (jobs : StageJobs) (jobType : StageJobType) (now : Time) : Option StageJob :=
  firstAvailable (jobs.rows.filter (·.claimable jobType now))

/-- What `claim_next` writes. -/
def StageJob.claimed (now : Time) (job : StageJob) : StageJob :=
  { job with status := .running, lockedAt := some now, errorCategory := none, errorMessage := none }

/-- What `complete` writes. -/
def StageJob.completed (now : Time) (job : StageJob) : StageJob :=
  { job with
    status := .completed, completedAt := some now, errorCategory := none, errorMessage := none }

/-- What `fail` writes. -/
def StageJob.failed (failure : QueueFailure) (now : Time) (job : StageJob) : StageJob :=
  let job :=
    { job with
      attemptCount := job.attemptCount + 1
      errorCategory := some failure.category
      errorMessage := some (String.ofList (failure.message.toList.take 500))
      lockedAt := none }
  if job.maxAttempts ≤ job.attemptCount then
    { job with status := .deadLetter, completedAt := some now }
  else
    { job with status := .failed, availableAt := now + failure.retryDelaySeconds * 1000000 }

/-- `claim_next`: the table, and the job that is handed out. -/
def claimNext (jobs : StageJobs) (jobType : StageJobType) (now : Time) :
    StageJobs × Option StageJob :=
  match selectClaimable jobs jobType now with
  | none => (jobs, none)
  | some job => (jobs.modify job.id (StageJob.claimed now) fun _ => rfl, some (job.claimed now))

/-- `complete`. -/
def complete (jobs : StageJobs) (id : String) (now : Time) : StageJobs :=
  jobs.modify id (StageJob.completed now) fun _ => rfl

@[simp] theorem StageJob.id_claimed (now : Time) (job : StageJob) : (job.claimed now).id = job.id :=
  rfl

@[simp] theorem StageJob.attemptCount_claimed (now : Time) (job : StageJob) :
    (job.claimed now).attemptCount = job.attemptCount := rfl

@[simp] theorem StageJob.id_completed (now : Time) (job : StageJob) :
    (job.completed now).id = job.id := rfl

@[simp] theorem StageJob.attemptCount_completed (now : Time) (job : StageJob) :
    (job.completed now).attemptCount = job.attemptCount := rfl

theorem StageJob.id_failed (failure : QueueFailure) (now : Time) (job : StageJob) :
    (job.failed failure now).id = job.id := by
  unfold StageJob.failed
  dsimp only
  split <;> rfl

/-- `fail`. -/
def fail (jobs : StageJobs) (id : String) (failure : QueueFailure) (now : Time) : StageJobs :=
  jobs.modify id (StageJob.failed failure now) fun job => job.id_failed failure now

/-! ### Runs -/

/-- A call of the repository. -/
inductive QueueCall where
  | enqueue (item : QueueJobInput) (id : String) (now : Time)
  | claimNext (jobType : StageJobType) (now : Time)
  | complete (id : String) (now : Time)
  | fail (id : String) (failure : QueueFailure) (now : Time)

/-- The table after a call. A refused item leaves it. -/
def QueueCall.apply (jobs : StageJobs) : QueueCall → StageJobs
  | .enqueue item id now =>
    match Bisakerja.enqueue jobs id now item with
    | .ok jobs => jobs
    | .error _ => jobs
  | .claimNext jobType now => (Bisakerja.claimNext jobs jobType now).1
  | .complete id now => Bisakerja.complete jobs id now
  | .fail id failure now => Bisakerja.fail jobs id failure now

/-- Only a running job is completed or failed. -/
def QueueCall.Allowed (jobs : StageJobs) : QueueCall → Prop
  | .complete id _ => ∃ job ∈ jobs.rows, job.id = id ∧ job.status = .running
  | .fail id _ _ => ∃ job ∈ jobs.rows, job.id = id ∧ job.status = .running
  | _ => True

/-- The call fails the job with an id. -/
def QueueCall.fails (id : String) : QueueCall → Bool
  | .fail id' _ _ => id' = id
  | _ => false

/-- A sequence of calls, and the table it makes of another. -/
inductive QueueRun (start : StageJobs) : List QueueCall → StageJobs → Prop
  | start : QueueRun start [] start
  | next {calls : List QueueCall} {jobs : StageJobs} {call : QueueCall}
      (h : QueueRun start calls jobs) (hallowed : call.Allowed jobs) :
      QueueRun start (calls ++ [call]) (call.apply jobs)

/-- The attempts of a job fit its status. -/
structure StageJob.Accounted (job : StageJob) : Prop where
  nonneg : 0 ≤ job.attemptCount
  le : job.attemptCount ≤ job.maxAttempts
  isOpen : job.status = .pending ∨ job.status = .running ∨ job.status = .failed →
    job.attemptCount < job.maxAttempts
  dead : job.status = .deadLetter ↔ job.attemptCount = job.maxAttempts

/-- A job is done with: nothing claims it again. -/
def StageJob.Terminal (job : StageJob) : Prop :=
  job.status = .completed ∨ job.status = .deadLetter

/-! ### What a call does to a row -/

theorem mem_of_firstAvailable {jobs : List StageJob} {job : StageJob}
    (h : firstAvailable jobs = some job) : job ∈ jobs := by
  induction jobs generalizing job with
  | nil => cases h
  | cons first rest ih =>
    unfold firstAvailable at h
    split at h
    · cases h
      exact List.mem_cons_self
    · next other hother =>
      split at h <;> cases h
      · exact List.mem_cons_of_mem _ (ih hother)
      · exact List.mem_cons_self

/-- The job that is selected is one the `where` clause admits. -/
theorem claimable_of_select {jobs : StageJobs} {jobType : StageJobType} {now : Time}
    {job : StageJob} (h : selectClaimable jobs jobType now = some job) :
    job ∈ jobs.rows ∧ (job.status = .pending ∨ job.status = .failed) ∧ job.availableAt ≤ now ∧
      job.attemptCount < job.maxAttempts := by
  have hmem := List.mem_filter.mp (mem_of_firstAvailable h)
  have hclaimable := hmem.2
  simp only [StageJob.claimable, Bool.and_eq_true, Bool.or_eq_true, decide_eq_true_eq] at hclaimable
  exact ⟨hmem.1, hclaimable.1.1.2, hclaimable.1.2, hclaimable.2⟩

/-- A row of the table is new, or was there and has been claimed, completed, failed or left. -/
inductive RowChange (jobs : StageJobs) (call : QueueCall) (job : StageJob) : Prop
  | kept (h : job ∈ jobs.rows) (hnot : call.fails job.id = false)
  | enqueued (hnew : jobs.find? job.id = none) (hstatus : job.status = .pending)
      (hattempts : job.attemptCount = 0) (hmax : 1 ≤ job.maxAttempts)
      (hnot : call.fails job.id = false)
  | claimed {old : StageJob} {now : Time} (hold : old ∈ jobs.rows) (h : job = old.claimed now)
      (hopen : old.status = .pending ∨ old.status = .failed) (hnot : call.fails job.id = false)
  | completed {old : StageJob} {now : Time} (hold : old ∈ jobs.rows) (h : job = old.completed now)
      (hrunning : old.status = .running) (hnot : call.fails job.id = false)
  | failed {old : StageJob} {failure : QueueFailure} {now : Time} (hold : old ∈ jobs.rows)
      (h : job = old.failed failure now) (hrunning : old.status = .running)
      (hfails : call.fails job.id = true)

/-- The row of an id is the only one. -/
theorem eq_of_id {jobs : StageJobs} {job other : StageJob} (hjob : job ∈ jobs.rows)
    (hother : other ∈ jobs.rows) (hid : job.id = other.id) : job = other :=
  List.inj_on_of_nodup_map jobs.unique hjob hother hid

theorem apply_enqueue (jobs : StageJobs) (item : QueueJobInput) (id : String) (now : Time) :
    QueueCall.apply jobs (.enqueue item id now) =
      if item.maxAttempts < 1 then jobs
      else jobs.insert
        { id
          jobType := item.jobType
          status := .pending
          attemptCount := 0
          maxAttempts := item.maxAttempts
          availableAt := item.availableAt.getD now
          createdAt := now } := by
  simp only [QueueCall.apply, enqueue]
  by_cases hmax : item.maxAttempts < 1 <;> simp [hmax]

theorem apply_claimNext (jobs : StageJobs) (jobType : StageJobType) (now : Time) :
    QueueCall.apply jobs (.claimNext jobType now) =
      match selectClaimable jobs jobType now with
      | none => jobs
      | some job => jobs.modify job.id (StageJob.claimed now) fun _ => rfl := by
  simp only [QueueCall.apply, claimNext]
  split <;> rfl

/-- What a call may do to a row. -/
theorem rowChange {jobs : StageJobs} {call : QueueCall} (hallowed : call.Allowed jobs)
    {job : StageJob} (h : job ∈ (call.apply jobs).rows) : RowChange jobs call job := by
  cases call with
  | enqueue item id now =>
    by_cases hmax : item.maxAttempts < 1
    · rw [apply_enqueue, if_pos hmax] at h
      exact .kept h rfl
    · rw [apply_enqueue, if_neg hmax] at h
      unfold Table.insert at h
      split at h
      · exact .kept h rfl
      · next hfresh =>
        rcases List.mem_append.mp h with h | h
        · exact .kept h rfl
        · cases List.mem_singleton.mp h
          exact .enqueued (Table.find?_eq_none_iff.mpr hfresh) rfl rfl (Int.not_lt.mp hmax) rfl
  | claimNext jobType now =>
    rw [apply_claimNext] at h
    split at h
    · exact .kept h rfl
    · next selected hselect =>
      obtain ⟨hmem, hopen, -⟩ := claimable_of_select hselect
      obtain ⟨old, hold, hnew⟩ := (Table.mem_modify _ _ _ _).mp h
      split at hnew
      · next hid =>
        have heq := eq_of_id hold hmem hid
        exact .claimed hmem (heq ▸ hnew.symm) hopen rfl
      · exact .kept (hnew ▸ hold) rfl
  | complete id now =>
    obtain ⟨running, hmem, hid, hrunning⟩ := hallowed
    obtain ⟨old, hold, hnew⟩ := (Table.mem_modify jobs id (StageJob.completed now) fun _ => rfl).mp h
    split at hnew
    · next hold' =>
      have heq := eq_of_id hold hmem (hold'.trans hid.symm)
      exact .completed hmem (heq ▸ hnew.symm) hrunning rfl
    · exact .kept (hnew ▸ hold) rfl
  | fail id failure now =>
    obtain ⟨running, hmem, hid, hrunning⟩ := hallowed
    obtain ⟨old, hold, hnew⟩ := (Table.mem_modify jobs id (StageJob.failed failure now)
      fun job => job.id_failed failure now).mp h
    split at hnew
    · next hold' =>
      have heq := eq_of_id hold hmem (hold'.trans hid.symm)
      refine .failed hmem (heq ▸ hnew.symm) hrunning ?_
      rw [← hnew, StageJob.id_failed, hold']
      exact decide_eq_true rfl
    · next hold' =>
      refine .kept (hnew ▸ hold) ?_
      rw [← hnew]
      exact decide_eq_false fun hid => hold' hid.symm

/-- Rows stay: a call adds rows and rewrites them. -/
theorem exists_id_apply {jobs : StageJobs} {job : StageJob} (call : QueueCall)
    (h : job ∈ jobs.rows) : ∃ job' ∈ (call.apply jobs).rows, job'.id = job.id := by
  have hmodify : ∀ (id : String) (f : StageJob → StageJob) (hf : ∀ r, (f r).id = r.id),
      ∃ job' ∈ (jobs.modify id f hf).rows, job'.id = job.id := by
    intro id f hf
    refine ⟨_, (Table.mem_modify jobs id f hf).mpr ⟨job, h, rfl⟩, ?_⟩
    split
    · exact hf job
    · rfl
  cases call with
  | enqueue item id now =>
    rw [apply_enqueue]
    split
    · exact ⟨job, h, rfl⟩
    · exact ⟨job, Table.mem_of_find? (Table.find?_insert_of_some (Table.find?_of_mem h)), rfl⟩
  | claimNext jobType now =>
    rw [apply_claimNext]
    split
    · exact ⟨job, h, rfl⟩
    · exact hmodify _ _ _
  | complete id now => exact hmodify id (StageJob.completed now) fun _ => rfl
  | fail id failure now =>
    exact hmodify id (StageJob.failed failure now) fun job => job.id_failed failure now

/-! ### What a run keeps -/

/-- A call keeps the attempts of the jobs accounted for. -/
theorem RowChange.accounted {jobs : StageJobs} {call : QueueCall} {job : StageJob}
    (h : RowChange jobs call job) (hjobs : ∀ old ∈ jobs.rows, old.Accounted) : job.Accounted := by
  cases h with
  | kept h _ => exact hjobs job h
  | enqueued _ hstatus hattempts hmax _ =>
    refine ⟨by omega, by omega, fun _ => by omega, ?_⟩
    simp only [hstatus, reduceCtorEq, false_iff]
    omega
  | claimed hold h hopen _ =>
    obtain ⟨hnonneg, hle, hlt, -⟩ := hjobs _ hold
    have hlt := hlt (by tauto)
    subst h
    refine ⟨hnonneg, hle, fun _ => hlt, ?_⟩
    simp only [StageJob.claimed, reduceCtorEq, false_iff]
    omega
  | completed hold h hrunning _ =>
    obtain ⟨hnonneg, hle, hlt, -⟩ := hjobs _ hold
    have hlt := hlt (.inr (.inl hrunning))
    subst h
    refine ⟨hnonneg, hle, fun _ => hlt, ?_⟩
    simp only [StageJob.completed, reduceCtorEq, false_iff]
    omega
  | @failed old failure now hold h hrunning _ =>
    obtain ⟨hnonneg, hle, hlt, -⟩ := hjobs _ hold
    have hlt := hlt (.inr (.inl hrunning))
    subst h
    unfold StageJob.failed
    dsimp only
    split
    · exact ⟨by dsimp only; omega, by dsimp only; omega, by simp, by simp; omega⟩
    · exact ⟨by dsimp only; omega, by dsimp only; omega, fun _ => by dsimp only; omega,
        by simp; omega⟩

/-- What a run has counted: the attempts of a job are its failures. -/
structure Attempts (calls : List QueueCall) (jobs : StageJobs) : Prop where
  rows : ∀ job ∈ jobs.rows, job.attemptCount = calls.countP (·.fails job.id)
  absent : ∀ id, jobs.find? id = none → calls.countP (·.fails id) = 0

/-- A failure is of a job that is there. -/
theorem exists_of_fails {jobs : StageJobs} {call : QueueCall} {id : String}
    (hallowed : call.Allowed jobs) (h : call.fails id = true) : ∃ job ∈ jobs.rows, job.id = id := by
  cases call with
  | fail id' failure now =>
    obtain ⟨job, hmem, hid, -⟩ := hallowed
    exact ⟨job, hmem, hid.trans (of_decide_eq_true h)⟩
  | _ => cases h

theorem Attempts.next {calls : List QueueCall} {jobs : StageJobs} {call : QueueCall}
    (h : Attempts calls jobs) (hallowed : call.Allowed jobs) :
    Attempts (calls ++ [call]) (call.apply jobs) := by
  refine ⟨fun job hjob => ?_, fun id habsent => ?_⟩
  · rw [List.countP_append, List.countP_singleton]
    cases rowChange hallowed hjob with
    | kept hold hnot => simp [h.rows job hold, hnot]
    | enqueued hnew _ hattempts _ hnot => simp [hattempts, h.absent _ hnew, hnot]
    | claimed hold heq _ hnot =>
      subst heq
      rw [StageJob.id_claimed] at hnot
      simpa [hnot] using h.rows _ hold
    | completed hold heq _ hnot =>
      subst heq
      rw [StageJob.id_completed] at hnot
      simpa [hnot] using h.rows _ hold
    | @failed old failure now hold heq _ hfails =>
      rw [hfails]
      have hid : job.id = old.id := by rw [heq, StageJob.id_failed]
      have hattempts : job.attemptCount = old.attemptCount + 1 := by
        rw [heq]
        unfold StageJob.failed
        dsimp only
        split <;> rfl
      rw [hattempts, h.rows old hold, hid]
      simp
  · have habsent' : jobs.find? id = none := by
      rw [Table.find?_eq_none_iff] at habsent ⊢
      intro hmem
      obtain ⟨old, hold, rfl⟩ := List.mem_map.mp hmem
      obtain ⟨job, hjob, hid⟩ := exists_id_apply call hold
      exact habsent (hid ▸ List.mem_map_of_mem hjob)
    have hnot : call.fails id = false := by
      rw [Bool.eq_false_iff]
      intro hfails
      obtain ⟨job, hmem, rfl⟩ := exists_of_fails hallowed hfails
      exact Table.find?_eq_none_iff.mp habsent' (List.mem_map_of_mem hmem)
    simp [h.absent id habsent', hnot]

/-- A terminal row stays as it is. -/
theorem mem_apply_of_terminal {jobs : StageJobs} {call : QueueCall} (hallowed : call.Allowed jobs)
    {job : StageJob} (h : job ∈ jobs.rows) (hterminal : job.Terminal) :
    job ∈ (call.apply jobs).rows := by
  obtain ⟨job', hjob', hid⟩ := exists_id_apply call h
  have hother : ∀ {old : StageJob}, old ∈ jobs.rows → old.id = job'.id →
      old.status = .completed ∨ old.status = .deadLetter := by
    intro old hold hsame
    rwa [← eq_of_id h hold (hid.symm.trans hsame.symm)]
  cases rowChange hallowed hjob' with
  | kept hold _ => rwa [← eq_of_id hold h hid]
  | enqueued hnew _ _ _ _ =>
    rw [hid, Table.find?_of_mem h] at hnew
    cases hnew
  | claimed hold heq hopen _ => rcases hother hold (by rw [heq]; rfl) with h' | h' <;> simp_all
  | completed hold heq hrunning _ =>
    rcases hother hold (by rw [heq]; rfl) with h' | h' <;> simp_all
  | failed hold heq hrunning _ =>
    rcases hother hold (by rw [heq, StageJob.id_failed]) with h' | h' <;> simp_all

/-- What holds of the queue after a run from an empty table. -/
structure QueueLaw (calls : List QueueCall) (jobs : StageJobs) : Prop where
  accounted : ∀ job ∈ jobs.rows, job.Accounted
  failures : ∀ job ∈ jobs.rows, job.attemptCount = calls.countP (·.fails job.id)
  claims : ∀ jobType now job, (claimNext jobs jobType now).2 = some job →
    ∃ old ∈ jobs.rows, job = old.claimed now ∧ (old.status = .pending ∨ old.status = .failed) ∧
      old.availableAt ≤ now
  terminal : ∀ more jobs', QueueRun jobs more jobs' → ∀ job ∈ jobs.rows, job.Terminal →
    job ∈ jobs'.rows ∧ ∀ jobType now claimed, (claimNext jobs' jobType now).2 = some claimed →
      claimed.id ≠ job.id

/-- A claim hands out a row that was pending or had failed, once it is available. -/
theorem claimNext_some {jobs : StageJobs} {jobType : StageJobType} {now : Time} {job : StageJob}
    (h : (claimNext jobs jobType now).2 = some job) :
    ∃ old ∈ jobs.rows, job = old.claimed now ∧ (old.status = .pending ∨ old.status = .failed) ∧
      old.availableAt ≤ now := by
  unfold claimNext at h
  split at h
  · cases h
  · next old hselect =>
    obtain ⟨hmem, hopen, havailable, -⟩ := claimable_of_select hselect
    cases h
    exact ⟨old, hmem, rfl, hopen, havailable⟩

/-- What every run from an empty table keeps. -/
theorem QueueRun.kept {calls : List QueueCall} {jobs : StageJobs}
    (h : QueueRun (Table.empty StageJob.id) calls jobs) :
    (∀ job ∈ jobs.rows, job.Accounted) ∧ Attempts calls jobs := by
  induction h with
  | start =>
    have hnone : ∀ job : StageJob, job ∉ (Table.empty StageJob.id).rows := fun _ => List.not_mem_nil
    exact ⟨fun job hjob => absurd hjob (hnone job), fun job hjob => absurd hjob (hnone job),
      fun _ _ => rfl⟩
  | next _ hallowed ih =>
    exact ⟨fun job hjob => (rowChange hallowed hjob).accounted ih.1, ih.2.next hallowed⟩

/-- A terminal row stays over a run. -/
theorem QueueRun.mem_of_terminal {jobs jobs' : StageJobs} {more : List QueueCall}
    (h : QueueRun jobs more jobs') {job : StageJob} (hjob : job ∈ jobs.rows)
    (hterminal : job.Terminal) : job ∈ jobs'.rows := by
  induction h with
  | start => exact hjob
  | next _ hallowed ih => exact mem_apply_of_terminal hallowed ih hterminal

/-- The law of the queue. -/
theorem queueLaw {calls : List QueueCall} {jobs : StageJobs}
    (h : QueueRun (Table.empty StageJob.id) calls jobs) : QueueLaw calls jobs := by
  obtain ⟨haccounted, hattempts⟩ := h.kept
  refine ⟨haccounted, hattempts.rows, fun jobType now job => claimNext_some, ?_⟩
  intro more jobs' hmore job hjob hterminal
  have hstays := hmore.mem_of_terminal hjob hterminal
  refine ⟨hstays, fun jobType now claimed hclaimed hid => ?_⟩
  obtain ⟨old, hold, rfl, hopen, -⟩ := claimNext_some hclaimed
  rw [eq_of_id hold hstays hid] at hopen
  rcases hterminal with hterminal | hterminal <;> simp [hterminal] at hopen

/-- One job with a single attempt, which is claimed and fails. -/
def oneFailure : List QueueCall :=
  [.enqueue { jobType := .syncBatch, maxAttempts := 1 } "s1" 0, .claimNext .syncBatch 5,
    .fail "s1" { category := "ValueError", message := "broken" } 7]

/-- Its table at the end. -/
def oneFailureJobs : StageJobs := oneFailure.foldl QueueCall.apply (Table.empty StageJob.id)

theorem queueLaw_oneFailure : QueueLaw oneFailure oneFailureJobs := by
  have hrun : QueueRun (Table.empty StageJob.id)
      ([] ++ [oneFailure[0]] ++ [oneFailure[1]] ++ [oneFailure[2]]) oneFailureJobs := by
    refine .next (.next (.next .start ?_) ?_) ⟨_, List.mem_cons_self, rfl, rfl⟩
    · exact trivial
    · exact trivial
  exact queueLaw hrun

/-- The failed attempt was its last. -/
example : oneFailureJobs.rows.map StageJob.status = [.deadLetter] := by decide

end Bisakerja
