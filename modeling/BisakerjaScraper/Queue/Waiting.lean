import BisakerjaScraper.Queue.Jobs
import Mathlib.Data.List.Perm.Subperm

/-! How long a job of the queue waits.

    A claim takes the waiting job that has been available longest. A job that is handled and fails
    becomes available anew, behind those that were available before. So however many workers claim,
    complete and fail jobs, and whatever they enqueue meanwhile, a job waits for the claims of those
    that were before it when it became available, and for each of them once. -/

namespace Bisakerja
open Schemes

namespace StageJob

/-- The job is still to be handled. -/
def Waiting (job : StageJob) : Prop :=
  (job.status = .pending ∨ job.status = .failed) ∧ job.attemptCount < job.maxAttempts

instance (job : StageJob) : Decidable job.Waiting := by unfold Waiting; infer_instance

/-- The order of `claim_next`, ties included. -/
def NoLaterThan (job other : StageJob) : Prop :=
  job.availableAt < other.availableAt ∨
    job.availableAt = other.availableAt ∧ job.createdAt ≤ other.createdAt

instance (job other : StageJob) : Decidable (job.NoLaterThan other) := by
  unfold NoLaterThan; infer_instance

/-- Another waiting job that a claim may prefer. -/
def Ahead (job other : StageJob) : Prop :=
  job.jobType = other.jobType ∧ job.Waiting ∧ job.id ≠ other.id ∧ job.NoLaterThan other

instance (job other : StageJob) : Decidable (job.Ahead other) := by unfold Ahead; infer_instance

end StageJob

/-- The jobs ahead of a job. -/
def aheadOf (jobs : StageJobs) (job : StageJob) : List String :=
  (jobs.rows.filter fun row => row.Ahead job).map StageJob.id

namespace QueueCall

/-- The job a call hands out. -/
def handsOut (jobs : StageJobs) : QueueCall → Option String
  | .claimNext jobType now => (Bisakerja.claimNext jobs jobType now).2.map StageJob.id
  | _ => none

/-- The call claims a job of a type. -/
def claims (jobType : StageJobType) : QueueCall → Bool
  | .claimNext jobType' _ => jobType' = jobType
  | _ => false

/-- The call is made after a time, and makes no job available before it. -/
def After (time : Time) : QueueCall → Prop
  | .enqueue item _ now => time < item.availableAt.getD now
  | .claimNext _ now => time ≤ now
  | .complete _ _ => True
  | .fail _ failure now => time < now + failure.retryDelaySeconds * 1000000

end QueueCall

/-- The jobs some calls hand out, in order. -/
def handedOut : StageJobs → List QueueCall → List String
  | _, [] => []
  | jobs, call :: rest => (call.handsOut jobs).toList ++ handedOut (call.apply jobs) rest

/-! ### The order of the claims -/

theorem StageJob.claimable_iff {jobType : StageJobType} {now : Time} {job : StageJob} :
    job.claimable jobType now = true ↔ job.jobType = jobType ∧ job.Waiting ∧ job.availableAt ≤ now := by
  simp only [StageJob.claimable, StageJob.Waiting, Bool.and_eq_true, Bool.or_eq_true, decide_eq_true_eq]
  tauto

theorem StageJob.NoLaterThan.trans {a b c : StageJob} (h : a.NoLaterThan b) (h' : b.NoLaterThan c) :
    a.NoLaterThan c := by
  rcases h with h | ⟨h, hties⟩
  · rcases h' with h' | ⟨h', -⟩
    · exact .inl (Int.lt_trans h h')
    · exact .inl (h' ▸ h)
  · rcases h' with h' | ⟨h', hties'⟩
    · exact .inl (h ▸ h')
    · exact .inr ⟨h.trans h', Int.le_trans hties hties'⟩

/-- `firstAvailable` keeps the job on hand when the other is not before it. -/
theorem StageJob.noLaterThan_of_not {job other : StageJob} (h : ¬ (other.availableAt < job.availableAt ∨
    other.availableAt = job.availableAt ∧ other.createdAt < job.createdAt)) :
    job.NoLaterThan other := by
  obtain ⟨hle, hties⟩ := not_or.mp h
  rcases Int.lt_or_eq_of_le (Int.not_lt.mp hle) with hlt | heq
  · exact .inl hlt
  · exact .inr ⟨heq, Int.not_lt.mp fun hlt => hties ⟨heq.symm, hlt⟩⟩

theorem StageJob.not_noLaterThan {row job : StageJob} (h : job.availableAt < row.availableAt) :
    ¬ row.NoLaterThan job := by
  rintro (hlt | ⟨heq, -⟩)
  · exact Int.lt_irrefl _ (Int.lt_trans h hlt)
  · exact Int.lt_irrefl _ (heq ▸ h)

/-- Nothing is before what `order_by(…).limit(1)` gives. -/
theorem firstAvailable_least {jobs : List StageJob} {job : StageJob} (h : job ∈ jobs) :
    ∃ first, firstAvailable jobs = some first ∧ first.NoLaterThan job := by
  induction jobs with
  | nil => cases h
  | cons head rest ih =>
    have hself : head.NoLaterThan head := .inr ⟨rfl, Int.le_refl _⟩
    unfold firstAvailable
    rcases List.mem_cons.mp h with rfl | hrest
    · split
      · exact ⟨_, rfl, hself⟩
      · next other _ =>
        split
        · next hless => exact ⟨_, rfl, hless.imp_right fun h => ⟨h.1, Int.le_of_lt h.2⟩⟩
        · exact ⟨_, rfl, hself⟩
    · obtain ⟨first, hfirst, hle⟩ := ih hrest
      rw [hfirst]
      dsimp only
      split
      · exact ⟨_, rfl, hle⟩
      · next hless => exact ⟨_, rfl, (StageJob.noLaterThan_of_not hless).trans hle⟩

/-- A claim that finds a job waiting hands out that job or one ahead of it. -/
theorem selectClaimable_of_waiting {jobs : StageJobs} {job : StageJob} (hjob : job ∈ jobs.rows)
    (hwaiting : job.Waiting) {now : Time} (hnow : job.availableAt ≤ now) :
    ∃ first ∈ jobs.rows, selectClaimable jobs job.jobType now = some first ∧
      (first = job ∨ first.Ahead job) := by
  have hmem : job ∈ jobs.rows.filter (·.claimable job.jobType now) :=
    List.mem_filter.mpr ⟨hjob, StageJob.claimable_iff.mpr ⟨rfl, hwaiting, hnow⟩⟩
  obtain ⟨first, hfirst, hle⟩ := firstAvailable_least hmem
  obtain ⟨hrow, hclaimable⟩ := List.mem_filter.mp (mem_of_firstAvailable hfirst)
  obtain ⟨htype, hopen, -⟩ := StageJob.claimable_iff.mp hclaimable
  refine ⟨first, hrow, hfirst, ?_⟩
  by_cases hid : first.id = job.id
  · exact .inl (eq_of_id hrow hjob hid)
  · exact .inr ⟨htype, hopen, hid, hle⟩

/-! ### One call -/

section Call

variable {jobs : StageJobs} {call : QueueCall} {job row : StageJob}

/-- What has been claimed, completed or given up does not wait, and what has failed waits behind. -/
theorem not_ahead_of_failed {failure : QueueFailure} {now : Time}
    (hafter : job.availableAt < now + failure.retryDelaySeconds * 1000000) (old : StageJob) :
    ¬ (old.failed failure now).Ahead job := by
  rintro ⟨-, ⟨hstatus, -⟩, -, hle⟩
  unfold StageJob.failed at hstatus hle
  dsimp only at hstatus hle
  split at hstatus
  · rcases hstatus with h | h <;> cases h
  · next hattempts =>
    rw [if_neg hattempts] at hle
    exact StageJob.not_noLaterThan hafter hle

/-- A call puts no job ahead of one that has been available before it. -/
theorem mem_rows_of_ahead (hafter : call.After job.availableAt)
    (hrow : row ∈ (call.apply jobs).rows) (hahead : row.Ahead job) : row ∈ jobs.rows := by
  cases call with
  | enqueue item id now =>
    rw [apply_enqueue] at hrow
    split at hrow
    · exact hrow
    · unfold Table.insert at hrow
      split at hrow
      · exact hrow
      · rcases List.mem_append.mp hrow with hold | hnew
        · exact hold
        · have hafter : job.availableAt < item.availableAt.getD now := hafter
          cases List.mem_singleton.mp hnew
          exact absurd hahead.2.2.2 (StageJob.not_noLaterThan hafter)
  | claimNext jobType now =>
    rw [apply_claimNext] at hrow
    split at hrow
    · exact hrow
    · obtain ⟨old, hold, rfl⟩ := (Table.mem_modify _ _ _ _).mp hrow
      split at hahead
      · obtain ⟨-, ⟨hstatus, -⟩, -⟩ := hahead
        rcases hstatus with h | h <;> cases h
      · next hne =>
        rw [if_neg hne]
        exact hold
  | complete id now =>
    obtain ⟨old, hold, rfl⟩ :=
      (Table.mem_modify jobs id (StageJob.completed now) fun _ => rfl).mp hrow
    split at hahead
    · obtain ⟨-, ⟨hstatus, -⟩, -⟩ := hahead
      rcases hstatus with h | h <;> cases h
    · next hne =>
      rw [if_neg hne]
      exact hold
  | fail id failure now =>
    obtain ⟨old, hold, rfl⟩ := (Table.mem_modify jobs id (StageJob.failed failure now)
      fun job => job.id_failed failure now).mp hrow
    split at hahead
    · exact absurd hahead (not_ahead_of_failed hafter old)
    · next hne =>
      rw [if_neg hne]
      exact hold

theorem nodup_aheadOf (jobs : StageJobs) (job : StageJob) : (aheadOf jobs job).Nodup :=
  jobs.unique.sublist (List.filter_sublist.map _)

theorem mem_aheadOf {id : String} :
    id ∈ aheadOf jobs job ↔ ∃ row ∈ jobs.rows, row.Ahead job ∧ row.id = id := by
  unfold aheadOf
  simp [and_assoc]

/-- No call adds to the jobs ahead. -/
theorem aheadOf_subset (hafter : call.After job.availableAt) :
    aheadOf (call.apply jobs) job ⊆ aheadOf jobs job := by
  intro id hid
  obtain ⟨row, hrow, hahead, rfl⟩ := mem_aheadOf.mp hid
  exact mem_aheadOf.mpr ⟨row, mem_rows_of_ahead hafter hrow hahead, hahead, rfl⟩

theorem handsOut_claimNext {jobType : StageJobType} {now : Time} {first : StageJob}
    (h : selectClaimable jobs jobType now = some first) :
    (QueueCall.claimNext jobType now).handsOut jobs = some first.id := by
  change (claimNext jobs jobType now).2.map StageJob.id = _
  unfold claimNext
  rw [h]
  rfl

/-- A waiting job stays as it is, unless it is handed out. -/
theorem mem_apply_of_waiting (hallowed : call.Allowed jobs) (hjob : job ∈ jobs.rows)
    (hwaiting : job.Waiting) (hnot : call.handsOut jobs ≠ some job.id) :
    job ∈ (call.apply jobs).rows := by
  have hrunning : ∀ id, (∃ other ∈ jobs.rows, other.id = id ∧ other.status = .running) →
      job.id ≠ id := by
    rintro id ⟨other, hother, rfl, hstatus⟩ hid
    rw [← eq_of_id hjob hother hid] at hstatus
    rcases hwaiting.1 with h | h <;> rw [h] at hstatus <;> cases hstatus
  cases call with
  | enqueue item id now =>
    rw [apply_enqueue]
    split
    · exact hjob
    · exact Table.mem_of_find? (Table.find?_insert_of_some (Table.find?_of_mem hjob))
  | claimNext jobType now =>
    rw [apply_claimNext]
    split
    · exact hjob
    · next first hfirst =>
      have hne : job.id ≠ first.id := by
        rintro hid
        rw [hid] at hnot
        exact hnot (handsOut_claimNext hfirst)
      exact (Table.mem_modify _ _ _ _).mpr ⟨job, hjob, if_neg hne⟩
  | complete id now =>
    exact (Table.mem_modify jobs id (StageJob.completed now) fun _ => rfl).mpr
      ⟨job, hjob, if_neg (hrunning id hallowed)⟩
  | fail id failure now =>
    exact (Table.mem_modify jobs id (StageJob.failed failure now)
      fun job => job.id_failed failure now).mpr ⟨job, hjob, if_neg (hrunning id hallowed)⟩

/-- A claim of the job's type that hands out another job takes one from ahead of it. -/
theorem length_aheadOf_of_claims (hjob : job ∈ jobs.rows) (hwaiting : job.Waiting)
    (hafter : call.After job.availableAt) (hclaims : call.claims job.jobType = true)
    (hnot : call.handsOut jobs ≠ some job.id) :
    (aheadOf (call.apply jobs) job).length < (aheadOf jobs job).length := by
  cases call with
  | claimNext jobType now =>
    cases of_decide_eq_true hclaims
    obtain ⟨first, hrow, hfirst, hself | hahead⟩ := selectClaimable_of_waiting hjob hwaiting hafter
    · have hhands := handsOut_claimNext hfirst
      rw [hself] at hhands
      exact absurd hhands hnot
    · have hmem : first.id ∈ aheadOf jobs job := mem_aheadOf.mpr ⟨first, hrow, hahead, rfl⟩
      have hgone : first.id ∉ aheadOf (QueueCall.apply jobs (.claimNext job.jobType now)) job := by
        intro hstill
        obtain ⟨row, hrow', ⟨-, ⟨hstatus, -⟩, -⟩, hid⟩ := mem_aheadOf.mp hstill
        rw [apply_claimNext, hfirst] at hrow'
        obtain ⟨old, -, rfl⟩ := (Table.mem_modify _ _ _ _).mp hrow'
        split at hstatus
        · rcases hstatus with h | h <;> cases h
        · next hne =>
          rw [if_neg hne] at hid
          exact hne hid
      have hsub : aheadOf (QueueCall.apply jobs (.claimNext job.jobType now)) job
          ⊆ (aheadOf jobs job).erase first.id := by
        intro id hid
        have hne : id ≠ first.id := fun heq => hgone (heq ▸ hid)
        exact (List.mem_erase_of_ne hne).mpr (aheadOf_subset hafter hid)
      have hle := (List.subperm_of_subset (nodup_aheadOf _ job) hsub).length_le
      rw [List.length_erase_of_mem hmem] at hle
      have hpos := List.length_pos_of_mem hmem
      omega
  | _ => cases hclaims

end Call

/-! ### A run -/

theorem handedOut_append (jobs : StageJobs) (calls : List QueueCall) (call : QueueCall) :
    handedOut jobs (calls ++ [call])
      = handedOut jobs calls ++ (call.handsOut (calls.foldl QueueCall.apply jobs)).toList := by
  induction calls generalizing jobs with
  | nil => simp [handedOut]
  | cons first rest ih => simp [handedOut, ih, List.append_assoc]

theorem QueueRun.foldl {start jobs : StageJobs} {calls : List QueueCall}
    (h : QueueRun start calls jobs) : calls.foldl QueueCall.apply start = jobs := by
  induction h with
  | start => rfl
  | next _ _ ih => rw [List.foldl_append, ih, List.foldl_cons, List.foldl_nil]

/-- Until the job is handed out it stays as it is, and each claim of its type uses up one of those
    ahead of it. -/
theorem QueueRun.waits {start jobs : StageJobs} {calls : List QueueCall} {job : StageJob}
    (hrun : QueueRun start calls jobs) (hjob : job ∈ start.rows) (hwaiting : job.Waiting)
    (hafter : ∀ call ∈ calls, call.After job.availableAt) (hnot : job.id ∉ handedOut start calls) :
    job ∈ jobs.rows ∧ calls.countP (·.claims job.jobType) + (aheadOf jobs job).length
      ≤ (aheadOf start job).length := by
  induction hrun with
  | start => exact ⟨hjob, by simp⟩
  | @next calls jobs call h hallowed ih =>
    rw [handedOut_append, h.foldl, List.mem_append, not_or] at hnot
    obtain ⟨hbefore, hcall⟩ := hnot
    have hcall : call.handsOut jobs ≠ some job.id := fun heq => hcall (by simp [heq])
    have hafter' := hafter call (List.mem_append_right _ List.mem_cons_self)
    obtain ⟨hmem, hcount⟩ := ih (fun c hc => hafter c (List.mem_append_left _ hc)) hbefore
    refine ⟨mem_apply_of_waiting hallowed hmem hwaiting hcall, ?_⟩
    rw [List.countP_append, List.countP_singleton]
    split
    · next hclaims =>
      have hless := length_aheadOf_of_claims hmem hwaiting hafter' hclaims hcall
      omega
    · have hle := (List.subperm_of_subset (nodup_aheadOf (call.apply jobs) job)
        (aheadOf_subset hafter')).length_le
      omega

/-- No job starves: from a state in which it waits with `n` jobs ahead of it, the first `n + 1`
    claims of its type hand it out, whoever makes them and whatever happens to the others. -/
theorem no_job_starves {start jobs : StageJobs} {calls : List QueueCall} {job : StageJob}
    (hrun : QueueRun start calls jobs) (hjob : job ∈ start.rows) (hwaiting : job.Waiting)
    (hafter : ∀ call ∈ calls, call.After job.availableAt)
    (hclaims : (aheadOf start job).length < calls.countP (·.claims job.jobType)) :
    job.id ∈ handedOut start calls := by
  by_contra hnot
  have hcount := (hrun.waits hjob hwaiting hafter hnot).2
  omega

/-- Two pending jobs. -/
def twoPendingJobs : StageJobs :=
  [QueueCall.enqueue { jobType := .enrichBatch } "e1" 0, .enqueue { jobType := .enrichBatch } "e2" 1].foldl
    QueueCall.apply (Table.empty StageJob.id)

/-- The second of them. -/
def secondPendingJob : StageJob where
  id := "e2"
  jobType := .enrichBatch
  status := .pending
  attemptCount := 0
  maxAttempts := 3
  availableAt := 1
  createdAt := 1

/-- The failure of the first job. -/
def firstJobFails : QueueCall := .fail "e1" { category := "error", message := "error" } 3

/-- The first job is claimed and fails; the second claim hands out the second job, though the first
    could be tried again. -/
theorem second_job_is_served : "e2" ∈ handedOut twoPendingJobs
    [.claimNext .enrichBatch 2, firstJobFails, .claimNext .enrichBatch 4] := by
  have hclaimed : QueueRun twoPendingJobs ([] ++ [.claimNext .enrichBatch 2]) _ := .next .start trivial
  have hfailed : QueueRun twoPendingJobs ([.claimNext .enrichBatch 2] ++ [firstJobFails]) _ :=
    .next hclaimed ⟨_, List.mem_cons_self, rfl, rfl⟩
  have hrun : QueueRun twoPendingJobs
      ([.claimNext .enrichBatch 2, firstJobFails] ++ [.claimNext .enrichBatch 4]) _ :=
    .next hfailed trivial
  have hjob : secondPendingJob ∈ twoPendingJobs.rows := List.mem_cons_of_mem _ List.mem_cons_self
  have hafter : ∀ call ∈ [.claimNext .enrichBatch 2, firstJobFails] ++ [.claimNext .enrichBatch 4],
      call.After secondPendingJob.availableAt := by
    simp [QueueCall.After, secondPendingJob, firstJobFails]
  exact no_job_starves hrun hjob (by decide) hafter (by decide)

/-! ### How often a job is handed out -/

/-- How often a job has been handed out: once for each failure, and once more when it is out or
    done. -/
def StageJob.handouts (job : StageJob) : ℤ :=
  job.attemptCount + if job.status = .running ∨ job.status = .completed then 1 else 0

/-- The same of an id, which may have no job. -/
def handoutsOf (jobs : StageJobs) (id : String) : ℤ := (jobs.find? id).elim 0 StageJob.handouts

theorem StageJob.handouts_claimed {job : StageJob} (now : Time)
    (h : job.status = .pending ∨ job.status = .failed) :
    (job.claimed now).handouts = job.handouts + 1 := by
  rcases h with h | h <;> simp [StageJob.handouts, StageJob.claimed, h]

theorem StageJob.handouts_completed {job : StageJob} (now : Time) (h : job.status = .running) :
    (job.completed now).handouts = job.handouts := by
  simp [StageJob.handouts, StageJob.completed, h]

theorem StageJob.handouts_failed {job : StageJob} (failure : QueueFailure) (now : Time)
    (h : job.status = .running) : (job.failed failure now).handouts = job.handouts := by
  unfold StageJob.failed StageJob.handouts
  dsimp only
  split <;> simp [h]

/-- What is written to a job that is there, and leaves its handouts, leaves those of every id. -/
theorem handoutsOf_modify {jobs : StageJobs} {job : StageJob} (hjob : job ∈ jobs.rows)
    {f : StageJob → StageJob} (hf : ∀ job, (f job).id = job.id) (id : String) :
    handoutsOf (jobs.modify job.id f hf) id
      = handoutsOf jobs id + if job.id = id then (f job).handouts - job.handouts else 0 := by
  unfold handoutsOf
  rw [Table.find?_modify]
  split
  · next hid =>
    rw [← hid, Table.find?_of_mem hjob, Option.map_some, Option.elim_some, Option.elim_some]
    omega
  · exact (Int.add_zero _).symm

/-- A call counts for the job it hands out. -/
theorem handoutsOf_apply {jobs : StageJobs} {call : QueueCall} (hallowed : call.Allowed jobs)
    (id : String) : handoutsOf (call.apply jobs) id
      = handoutsOf jobs id + if call.handsOut jobs = some id then 1 else 0 := by
  cases call with
  | enqueue item newId now =>
    have hnone : (QueueCall.enqueue item newId now).handsOut jobs ≠ some id := fun h => by cases h
    rw [apply_enqueue, if_neg hnone, Int.add_zero]
    split
    · rfl
    · unfold handoutsOf
      by_cases hid : newId = id
      · subst hid
        cases hold : jobs.find? newId with
        | some old => rw [Table.find?_insert_of_some hold]
        | none =>
          rw [Table.find?_insert jobs hold, if_pos rfl]
          rfl
      · rw [Table.find?_insert_of_ne jobs hid]
  | claimNext jobType now =>
    rw [apply_claimNext]
    cases hselect : selectClaimable jobs jobType now with
    | none =>
      have hnone : (QueueCall.claimNext jobType now).handsOut jobs ≠ some id := by
        simp [QueueCall.handsOut, claimNext, hselect]
      rw [if_neg hnone, Int.add_zero]
    | some first =>
      obtain ⟨hmem, hopen, -⟩ := claimable_of_select hselect
      refine (handoutsOf_modify hmem (f := StageJob.claimed now) (fun _ => rfl) id).trans ?_
      rw [handsOut_claimNext hselect, StageJob.handouts_claimed now hopen]
      simp only [Option.some.injEq]
      split <;> omega
  | complete jobId now =>
    obtain ⟨running, hmem, rfl, hrunning⟩ := hallowed
    have hnone : (QueueCall.complete running.id now).handsOut jobs ≠ some id := fun h => by cases h
    refine (handoutsOf_modify hmem (f := StageJob.completed now) (fun _ => rfl) id).trans ?_
    rw [if_neg hnone, StageJob.handouts_completed now hrunning, Int.sub_self, ite_self]
  | fail jobId failure now =>
    obtain ⟨running, hmem, rfl, hrunning⟩ := hallowed
    have hnone : (QueueCall.fail running.id failure now).handsOut jobs ≠ some id :=
      fun h => by cases h
    refine (handoutsOf_modify hmem (f := StageJob.failed failure now)
      (fun job => job.id_failed failure now) id).trans ?_
    rw [if_neg hnone, StageJob.handouts_failed failure now hrunning, Int.sub_self, ite_self]

theorem QueueRun.count_handedOut {calls : List QueueCall} {jobs : StageJobs}
    (h : QueueRun (Table.empty StageJob.id) calls jobs) (id : String) :
    ((handedOut (Table.empty StageJob.id) calls).count id : ℤ) = handoutsOf jobs id := by
  induction h with
  | start => rfl
  | @next calls jobs call h hallowed ih =>
    rw [handedOut_append, h.foldl, List.count_append, Int.natCast_add, ih, handoutsOf_apply hallowed]
    cases call.handsOut jobs with
    | none => simp
    | some out => by_cases hid : out = id <;> simp [hid]

/-- In every run a job has been handed out as often as it has failed, and once more while it is out
    and once it is done; so it is never handed out more often than it has attempts. -/
theorem handed_out_within_attempts {calls : List QueueCall} {jobs : StageJobs}
    (h : QueueRun (Table.empty StageJob.id) calls jobs) {job : StageJob} (hjob : job ∈ jobs.rows) :
    ((handedOut (Table.empty StageJob.id) calls).count job.id : ℤ)
        = job.attemptCount + (if job.status = .running ∨ job.status = .completed then 1 else 0) ∧
      ((handedOut (Table.empty StageJob.id) calls).count job.id : ℤ) ≤ job.maxAttempts := by
  have hcount := h.count_handedOut job.id
  unfold handoutsOf at hcount
  rw [Table.find?_of_mem hjob, Option.elim_some] at hcount
  refine ⟨hcount, ?_⟩
  obtain ⟨-, hle, hopen, hdead⟩ := h.kept.1 job hjob
  rw [hcount]
  unfold StageJob.handouts
  split
  · next hstatus =>
    rcases hstatus with hstatus | hstatus
    · have hless := hopen (.inr (.inl hstatus))
      omega
    · have hne : job.attemptCount ≠ job.maxAttempts := fun heq => by
        rw [hdead.mpr heq] at hstatus
        cases hstatus
      omega
  · omega

/-- A job that fails once and is then done. -/
def retriedJob : List QueueCall :=
  [.enqueue { jobType := .enrichBatch } "e1" 0, .claimNext .enrichBatch 1, firstJobFails,
    .claimNext .enrichBatch 4, .complete "e1" 5]

theorem handed_out_retriedJob :
    ∃ job ∈ (retriedJob.foldl QueueCall.apply (Table.empty StageJob.id)).rows,
      ((handedOut (Table.empty StageJob.id) retriedJob).count job.id : ℤ)
          = job.attemptCount + (if job.status = .running ∨ job.status = .completed then 1 else 0) ∧
        ((handedOut (Table.empty StageJob.id) retriedJob).count job.id : ℤ) ≤ job.maxAttempts := by
  have hclaimed : QueueRun (Table.empty StageJob.id) ([] ++ [retriedJob[0]] ++ [retriedJob[1]]) _ :=
    .next (.next .start trivial) trivial
  have hfailed : QueueRun (Table.empty StageJob.id)
      ([] ++ [retriedJob[0]] ++ [retriedJob[1]] ++ [retriedJob[2]]) _ :=
    .next hclaimed ⟨_, List.mem_cons_self, rfl, rfl⟩
  have hagain : QueueRun (Table.empty StageJob.id)
      ([] ++ [retriedJob[0]] ++ [retriedJob[1]] ++ [retriedJob[2]] ++ [retriedJob[3]]) _ :=
    .next hfailed trivial
  have hrun : QueueRun (Table.empty StageJob.id)
      ([] ++ [retriedJob[0]] ++ [retriedJob[1]] ++ [retriedJob[2]] ++ [retriedJob[3]]
        ++ [retriedJob[4]]) _ :=
    .next hagain ⟨_, List.mem_cons_self, rfl, rfl⟩
  exact ⟨_, List.mem_cons_self, handed_out_within_attempts hrun List.mem_cons_self⟩

/-- Twice, after one failure. -/
example : (handedOut (Table.empty StageJob.id) retriedJob).count "e1" = 2 := by decide

end Bisakerja
