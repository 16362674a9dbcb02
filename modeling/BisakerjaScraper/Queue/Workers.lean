import BisakerjaScraper.Queue.Jobs
import Mathlib.Data.List.Induction
import Mathlib.Logic.Function.Basic

/-! Several workers on one queue.

    A worker claims in two steps: it reads the first claimable row, and then writes it as running.
    Neither locks the row nor checks it again, so what it writes may have been claimed in between.
    The workers stay apart exactly when every write still finds its row unclaimed. -/

namespace Bisakerja
open Schemes

/-- Where a worker is: it has nothing, it has read a row, or its handler works on a job. -/
inductive WorkerPhase where
  | idle
  | selected (job : StageJob) (now : Time)
  | handling (id : String)

/-- What the workers share, and where each of them is. The last two fields only watch: how often the
    handler was started on a job, and how often its row was put up to be claimed. -/
structure QueueSystem (ω : Type) where
  jobs : StageJobs
  phases : ω → WorkerPhase
  executed : String → ℕ
  offered : String → ℕ

/-- A step of a worker, or of whoever enqueues. -/
inductive WorkerAction (ω : Type) where
  | enqueue (item : QueueJobInput) (id : String) (now : Time)
  | read (worker : ω) (jobType : StageJobType) (now : Time)
  | write (worker : ω)
  | complete (worker : ω) (now : Time)
  | fail (worker : ω) (failure : QueueFailure) (now : Time)

/-- A row that a claim may take. -/
def StageJob.isOpen (job : StageJob) : Bool := job.status = .pending || job.status = .failed

/-- The `update` of a claim: the columns that differ from what was read. -/
def StageJob.claimWrite (read : StageJob) (now : Time) (row : StageJob) : StageJob :=
  { row with
    status := .running
    lockedAt := some now
    errorCategory := if read.errorCategory.isNone then row.errorCategory else none
    errorMessage := if read.errorMessage.isNone then row.errorMessage else none }

namespace QueueSystem

variable {ω : Type}

/-- No jobs, and idle workers. -/
def init : QueueSystem ω where
  jobs := Table.empty StageJob.id
  phases _ := .idle
  executed _ := 0
  offered _ := 0

/-- The row under an id can be claimed. -/
def openId (jobs : StageJobs) (id : String) : Bool := (jobs.find? id).any StageJob.isOpen

/-- No job is worked on by two workers, and a row that was put up is handled once. -/
structure Exclusive (s : QueueSystem ω) : Prop where
  apart : ∀ worker worker' id, s.phases worker = .handling id → s.phases worker' = .handling id →
    worker = worker'
  once : ∀ id, s.executed id ≤ s.offered id

variable [DecidableEq ω]

/-- A step, where it can be taken. -/
def step (s : QueueSystem ω) : WorkerAction ω → Option (QueueSystem ω)
  | .enqueue item id now =>
    if (s.jobs.find? id).isSome then none
    else match Bisakerja.enqueue s.jobs id now item with
      | .ok jobs => some { s with jobs, offered := Function.update s.offered id (s.offered id + 1) }
      | .error _ => none
  | .read worker jobType now =>
    match s.phases worker, selectClaimable s.jobs jobType now with
    | .idle, some job => some { s with phases := Function.update s.phases worker (.selected job now) }
    | _, _ => none
  | .write worker =>
    match s.phases worker with
    | .selected job now => some
      { s with
        jobs := s.jobs.modify job.id (job.claimWrite now) fun _ => rfl
        phases := Function.update s.phases worker (.handling job.id)
        executed := Function.update s.executed job.id (s.executed job.id + 1) }
    | _ => none
  | .complete worker now =>
    match s.phases worker with
    | .handling id => some
      { s with
        jobs := Bisakerja.complete s.jobs id now
        phases := Function.update s.phases worker .idle }
    | _ => none
  | .fail worker failure now =>
    match s.phases worker with
    | .handling id =>
      let jobs := Bisakerja.fail s.jobs id failure now
      some
        { s with
          jobs
          phases := Function.update s.phases worker .idle
          offered := Function.update s.offered id
            (s.offered id + if openId jobs id then 1 else 0) }
    | _ => none

/-- The state after some steps. -/
def after (actions : List (WorkerAction ω)) : Option (QueueSystem ω) :=
  actions.foldlM step init

/-- The workers stay apart from the start to the end of the steps. -/
def AlwaysExclusive (actions : List (WorkerAction ω)) : Prop :=
  ∀ before s, before <+: actions → after before = some s → s.Exclusive

/-- Every write of a claim finds its row as it can be claimed: no one else has written it since. -/
def WritesFindOpen (actions : List (WorkerAction ω)) : Prop :=
  ∀ before worker rest s job now, actions = before ++ .write worker :: rest →
    after before = some s → s.phases worker = .selected job now → openId s.jobs job.id = true

/-! ### What the steps keep -/

/-- What holds while every write finds its row open. -/
structure Kept (s : QueueSystem ω) : Prop where
  running : ∀ worker id, s.phases worker = .handling id →
    ∃ row, s.jobs.find? id = some row ∧ row.status = .running
  apart : ∀ worker worker' id, s.phases worker = .handling id → s.phases worker' = .handling id →
    worker = worker'
  held : ∀ id row, s.jobs.find? id = some row → row.status = .running →
    ∃ worker, s.phases worker = .handling id
  known : ∀ worker job now, s.phases worker = .selected job now →
    (s.jobs.find? job.id).isSome = true
  count : ∀ id, s.executed id + (if openId s.jobs id then 1 else 0) = s.offered id

omit [DecidableEq ω] in
theorem Kept.exclusive {s : QueueSystem ω} (h : s.Kept) : s.Exclusive :=
  ⟨h.apart, fun id => (h.count id) ▸ Nat.le_add_right _ _⟩

omit [DecidableEq ω] in
theorem kept_init : (init : QueueSystem ω).Kept where
  running _ _ h := by cases h
  apart _ _ _ h := by cases h
  held _ _ h := by cases h
  known _ _ _ h := by cases h
  count _ := rfl

/-- A new row is put up, and no worker has it. -/
theorem Kept.enqueue {s s' : QueueSystem ω} (h : s.Kept) {item : QueueJobInput} {id : String}
    {now : Time} (hstep : s.step (.enqueue item id now) = some s') : s'.Kept := by
  simp only [step] at hstep
  split at hstep
  · cases hstep
  · next hfresh =>
    have hnone : s.jobs.find? id = none := by simpa using hfresh
    unfold Bisakerja.enqueue at hstep
    split at hstep
    · next jobs hitem =>
      split at hitem
      · cases hitem
      · cases hitem
        cases hstep
        have hfind := Table.find?_insert s.jobs (r := 
          { id
            jobType := item.jobType
            status := .pending
            attemptCount := 0
            maxAttempts := item.maxAttempts
            availableAt := item.availableAt.getD now
            createdAt := now : StageJob }) hnone
        dsimp only at hfind
        refine ⟨?_, h.apart, ?_, ?_, ?_⟩
        · intro worker id' hphase
          obtain ⟨row, hrow, hrunning⟩ := h.running worker id' hphase
          exact ⟨row, Table.find?_insert_of_some hrow, hrunning⟩
        · intro id' row hrow hrunning
          dsimp only at hrow
          rw [hfind] at hrow
          split at hrow
          · cases hrow
            cases hrunning
          · exact h.held id' row hrow hrunning
        · intro worker job now' hphase
          obtain ⟨row, hrow⟩ := Option.isSome_iff_exists.mp (h.known worker job now' hphase)
          exact Option.isSome_iff_exists.mpr ⟨row, Table.find?_insert_of_some hrow⟩
        · intro id'
          have hcount := h.count id'
          dsimp only
          unfold openId at hcount ⊢
          rw [hfind]
          by_cases hid : id = id'
          · subst hid
            rw [hnone] at hcount
            simpa [StageJob.isOpen] using hcount
          · rw [Function.update_of_ne (Ne.symm hid)]
            simpa [hid] using hcount
    · cases hstep

/-- A read takes nothing yet. -/
theorem Kept.read {s s' : QueueSystem ω} (h : s.Kept) {worker : ω} {jobType : StageJobType}
    {now : Time} (hstep : s.step (.read worker jobType now) = some s') : s'.Kept := by
  simp only [step] at hstep
  split at hstep
  · next job hidle hselect =>
    cases hstep
    have hphases : ∀ worker' id, Function.update s.phases worker (.selected job now) worker'
        = .handling id ↔ s.phases worker' = .handling id := by
      intro worker' id
      by_cases hworker : worker' = worker
      · subst hworker
        simp [hidle]
      · simp [hworker]
    refine ⟨?_, ?_, ?_, ?_, h.count⟩
    · intro worker' id hphase
      exact h.running worker' id ((hphases worker' id).mp hphase)
    · intro worker₁ worker₂ id h₁ h₂
      exact h.apart _ _ id ((hphases _ id).mp h₁) ((hphases _ id).mp h₂)
    · intro id row hrow hrunning
      obtain ⟨worker', hphase⟩ := h.held id row hrow hrunning
      exact ⟨worker', (hphases worker' id).mpr hphase⟩
    · intro worker' job' now' hphase
      dsimp only at hphase ⊢
      by_cases hworker : worker' = worker
      · subst hworker
        rw [Function.update_self] at hphase
        cases hphase
        rw [Table.find?_of_mem (claimable_of_select hselect).1]
        rfl
      · exact h.known worker' job' now' (by simpa [hworker] using hphase)
  · cases hstep

/-- A write that finds its row open takes the row. -/
theorem Kept.write {s : QueueSystem ω} (h : s.Kept) {worker : ω} {job : StageJob} {now : Time}
    (hselected : s.phases worker = .selected job now) (hopen : openId s.jobs job.id = true) :
    Kept { s with
      jobs := s.jobs.modify job.id (job.claimWrite now) fun _ => rfl
      phases := Function.update s.phases worker (.handling job.id)
      executed := Function.update s.executed job.id (s.executed job.id + 1) } := by
  obtain ⟨row, hrow, hrowOpen⟩ : ∃ row, s.jobs.find? job.id = some row ∧ row.isOpen = true := by
    unfold openId at hopen
    cases hrow : s.jobs.find? job.id with
    | none => simp [hrow] at hopen
    | some row => exact ⟨row, rfl, by simpa [hrow] using hopen⟩
  have hnotHeld : ∀ worker', s.phases worker' ≠ .handling job.id := by
    intro worker' hphase
    obtain ⟨row', hrow', hrunning⟩ := h.running worker' job.id hphase
    rw [hrow] at hrow'
    cases hrow'
    simp [StageJob.isOpen, hrunning] at hrowOpen
  have hfind := Table.find?_modify s.jobs job.id (job.claimWrite now) fun _ => rfl
  refine ⟨?_, ?_, ?_, ?_, ?_⟩
  · intro worker' id hphase
    dsimp only at hphase ⊢
    rw [hfind]
    by_cases hworker : worker' = worker
    · subst hworker
      rw [Function.update_self] at hphase
      cases hphase
      exact ⟨job.claimWrite now row, by simp [hrow], rfl⟩
    · rw [Function.update_of_ne hworker] at hphase
      have hid : job.id ≠ id := fun hid => hnotHeld worker' (hid ▸ hphase)
      rw [if_neg hid]
      exact h.running worker' id hphase
  · intro worker₁ worker₂ id h₁ h₂
    dsimp only at h₁ h₂
    by_cases hworker₁ : worker₁ = worker <;> by_cases hworker₂ : worker₂ = worker
    · rw [hworker₁, hworker₂]
    · rw [hworker₁, Function.update_self] at h₁
      rw [Function.update_of_ne hworker₂] at h₂
      cases h₁
      exact absurd h₂ (hnotHeld worker₂)
    · rw [hworker₂, Function.update_self] at h₂
      rw [Function.update_of_ne hworker₁] at h₁
      cases h₂
      exact absurd h₁ (hnotHeld worker₁)
    · rw [Function.update_of_ne hworker₁] at h₁
      rw [Function.update_of_ne hworker₂] at h₂
      exact h.apart worker₁ worker₂ id h₁ h₂
  · intro id row' hrow' hrunning
    dsimp only at hrow' ⊢
    rw [hfind] at hrow'
    by_cases hid : job.id = id
    · exact ⟨worker, by rw [Function.update_self, hid]⟩
    · rw [if_neg hid] at hrow'
      obtain ⟨worker', hphase⟩ := h.held id row' hrow' hrunning
      have hworker : worker' ≠ worker := by
        rintro rfl
        rw [hselected] at hphase
        cases hphase
      exact ⟨worker', by rw [Function.update_of_ne hworker, hphase]⟩
  · intro worker' job' now' hphase
    dsimp only at hphase ⊢
    by_cases hworker : worker' = worker
    · subst hworker
      rw [Function.update_self] at hphase
      cases hphase
    · rw [Function.update_of_ne hworker] at hphase
      rw [hfind]
      have hknown := h.known worker' job' now' hphase
      split <;> simp [hknown]
  · intro id
    dsimp only
    have hcount := h.count id
    by_cases hid : job.id = id
    · subst hid
      rw [hopen] at hcount
      rw [Function.update_self]
      have hclosed : openId (s.jobs.modify job.id (job.claimWrite now) fun _ => rfl) job.id
          = false := by
        unfold openId
        rw [hfind, if_pos rfl, hrow]
        rfl
      simpa [hclosed] using hcount
    · rw [Function.update_of_ne (Ne.symm hid)]
      unfold openId at hcount ⊢
      rwa [hfind, if_neg hid]

/-- A worker that is done with its job writes the row off, and puts it up again if it may be
    claimed once more. -/
theorem Kept.release {s : QueueSystem ω} (h : s.Kept) {worker : ω} {id : String}
    (hhandling : s.phases worker = .handling id) (f : StageJob → StageJob) (hf : ∀ r, (f r).id = r.id)
    (hdone : ∀ row, (f row).status ≠ .running) :
    Kept { s with
      jobs := s.jobs.modify id f hf
      phases := Function.update s.phases worker .idle
      offered := Function.update s.offered id
        (s.offered id + if openId (s.jobs.modify id f hf) id then 1 else 0) } := by
  have hfind := Table.find?_modify s.jobs id f hf
  refine ⟨?_, ?_, ?_, ?_, ?_⟩
  · intro worker' id' hphase
    dsimp only at hphase ⊢
    have hworker : worker' ≠ worker := by
      rintro rfl
      rw [Function.update_self] at hphase
      cases hphase
    rw [Function.update_of_ne hworker] at hphase
    have hid : id ≠ id' := fun hid => hworker (h.apart _ _ id (hid ▸ hphase) hhandling)
    rw [hfind, if_neg hid]
    exact h.running worker' id' hphase
  · intro worker₁ worker₂ id' h₁ h₂
    dsimp only at h₁ h₂
    have hkept : ∀ worker', Function.update s.phases worker .idle worker' = .handling id' →
        s.phases worker' = .handling id' := by
      intro worker' hphase
      by_cases hworker : worker' = worker
      · rw [hworker, Function.update_self] at hphase
        cases hphase
      · rwa [Function.update_of_ne hworker] at hphase
    exact h.apart worker₁ worker₂ id' (hkept _ h₁) (hkept _ h₂)
  · intro id' row hrow hrunning
    dsimp only at hrow ⊢
    rw [hfind] at hrow
    by_cases hid : id = id'
    · rw [if_pos hid] at hrow
      obtain ⟨old, -, rfl⟩ := Option.map_eq_some_iff.mp hrow
      exact absurd hrunning (hdone old)
    · rw [if_neg hid] at hrow
      obtain ⟨worker', hphase⟩ := h.held id' row hrow hrunning
      have hworker : worker' ≠ worker := by
        rintro rfl
        rw [hhandling] at hphase
        cases hphase
        exact hid rfl
      exact ⟨worker', by rw [Function.update_of_ne hworker, hphase]⟩
  · intro worker' job now hphase
    dsimp only at hphase ⊢
    by_cases hworker : worker' = worker
    · rw [hworker, Function.update_self] at hphase
      cases hphase
    · rw [Function.update_of_ne hworker] at hphase
      have hknown := h.known worker' job now hphase
      rw [hfind]
      split <;> simp [hknown]
  · intro id'
    dsimp only
    have hcount := h.count id'
    by_cases hid : id = id'
    · subst hid
      obtain ⟨row, hrow, hrunning⟩ := h.running worker id hhandling
      have hclosed : openId s.jobs id = false := by
        unfold openId
        rw [hrow]
        simp [StageJob.isOpen, hrunning]
      rw [Function.update_self, ← hcount, hclosed]
      simp
    · rw [Function.update_of_ne (Ne.symm hid), ← hcount]
      unfold openId
      rw [hfind, if_neg hid]

theorem status_failed_ne (failure : QueueFailure) (now : Time) (row : StageJob) :
    (row.failed failure now).status ≠ .running := by
  unfold StageJob.failed
  dsimp only
  split <;> simp

/-- A step keeps the workers apart, if it is no write of a row that is not open any more. -/
theorem Kept.step {s s' : QueueSystem ω} (h : s.Kept) {action : WorkerAction ω}
    (hstep : s.step action = some s')
    (hwrite : ∀ worker job now, action = .write worker → s.phases worker = .selected job now →
      openId s.jobs job.id = true) : s'.Kept := by
  cases action with
  | enqueue item id now => exact h.enqueue hstep
  | read worker jobType now => exact h.read hstep
  | write worker =>
    simp only [QueueSystem.step] at hstep
    split at hstep
    · next job now hselected =>
      cases hstep
      exact h.write hselected (hwrite worker job now rfl hselected)
    · cases hstep
  | complete worker now =>
    simp only [QueueSystem.step] at hstep
    split at hstep
    · next id hhandling =>
      cases hstep
      have hreleased := h.release hhandling (StageJob.completed now) (StageJob.id_completed now)
        fun _ => by simp [StageJob.completed]
      have hfind : (Bisakerja.complete s.jobs id now).find? id =
          (s.jobs.find? id).map (StageJob.completed now) :=
        Table.find?_modify_self s.jobs id _ (StageJob.id_completed now)
      have hclosed : openId (Bisakerja.complete s.jobs id now) id = false := by
        unfold openId
        rw [hfind]
        cases s.jobs.find? id <;> rfl
      change Kept { s with
        jobs := Bisakerja.complete s.jobs id now
        phases := Function.update s.phases worker .idle
        offered := Function.update s.offered id
          (s.offered id + if openId (Bisakerja.complete s.jobs id now) id then 1 else 0) }
        at hreleased
      rw [hclosed] at hreleased
      simpa using hreleased
    · cases hstep
  | fail worker failure now =>
    simp only [QueueSystem.step] at hstep
    split at hstep
    · next id hhandling =>
      cases hstep
      exact h.release hhandling (StageJob.failed failure now)
        (fun job => job.id_failed failure now) (status_failed_ne failure now)
    · cases hstep

/-- A write of a row that is not open any more puts two workers on a job, or handles a row a second
    time that was put up once. -/
theorem Kept.not_exclusive {s s' : QueueSystem ω} (h : s.Kept) {worker : ω} {job : StageJob}
    {now : Time} (hselected : s.phases worker = .selected job now)
    (hclosed : openId s.jobs job.id = false) (hstep : s.step (.write worker) = some s') :
    ¬ s'.Exclusive := by
  simp only [QueueSystem.step, hselected] at hstep
  cases hstep
  rintro ⟨hapart, honce⟩
  obtain ⟨row, hrow⟩ := Option.isSome_iff_exists.mp (h.known worker job now hselected)
  by_cases hrunning : row.status = .running
  · obtain ⟨other, hother⟩ := h.held job.id row hrow hrunning
    have hne : other ≠ worker := by
      rintro rfl
      rw [hselected] at hother
      cases hother
    refine hne (hapart other worker job.id ?_ (Function.update_self ..))
    dsimp only
    rw [Function.update_of_ne hne, hother]
  · have hcount := h.count job.id
    have honce := honce job.id
    rw [hclosed] at hcount
    dsimp only at honce
    rw [Function.update_self] at honce
    simp at hcount
    omega

/-! ### Runs -/

theorem after_append (before : List (WorkerAction ω)) (action : WorkerAction ω) :
    after (before ++ [action]) = (after before).bind fun s => s.step action := by
  unfold after
  rw [List.foldlM_append]
  cases before.foldlM step init with
  | none => rfl
  | some s => simp

/-- The writes of a longer sequence are those of the shorter one and its last step. -/
theorem writesFindOpen_append_iff {before : List (WorkerAction ω)} {action : WorkerAction ω} :
    WritesFindOpen (before ++ [action]) ↔ WritesFindOpen before ∧
      ∀ worker s job now, action = .write worker → after before = some s →
        s.phases worker = .selected job now → openId s.jobs job.id = true := by
  constructor
  · refine fun h => ⟨fun before' worker rest s job now heq => ?_, ?_⟩
    · exact h before' worker (rest ++ [action]) s job now (by simp [heq])
    · rintro worker s job now rfl hafter
      exact h before worker [] s job now rfl hafter
  · rintro ⟨hbefore, hlast⟩ before' worker rest s job now heq hafter hselected
    rcases List.eq_nil_or_concat rest with rfl | ⟨rest', last, rfl⟩
    · obtain ⟨rfl, hsame⟩ := List.append_inj' heq rfl
      exact hlast worker s job now (List.singleton_inj.mp hsame) hafter hselected
    · have hsplit : before ++ [action] = (before' ++ .write worker :: rest') ++ [last] := by
        simpa using heq
      obtain ⟨rfl, -⟩ := List.append_inj' hsplit rfl
      exact hbefore before' worker rest' s job now rfl hafter hselected

/-- Steps whose writes find their rows open keep the workers apart. -/
theorem kept_of_writesFindOpen {actions : List (WorkerAction ω)} (h : WritesFindOpen actions)
    {s : QueueSystem ω} (hafter : after actions = some s) : s.Kept := by
  induction actions using List.reverseRecOn generalizing s with
  | nil =>
    cases hafter
    exact kept_init
  | append_singleton before action ih =>
    obtain ⟨hbefore, hlast⟩ := writesFindOpen_append_iff.mp h
    rw [after_append] at hafter
    obtain ⟨s₀, hs₀, hstep⟩ := Option.bind_eq_some_iff.mp hafter
    refine (ih hbefore hs₀).step hstep fun worker job now haction hselected => ?_
    exact hlast worker s₀ job now haction hs₀ hselected

/-- The workers stay apart, and handle a row once each time it is put up, exactly when every write
    of a claim finds its row still open. -/
theorem alwaysExclusive_iff (actions : List (WorkerAction ω)) :
    AlwaysExclusive actions ↔ WritesFindOpen actions := by
  constructor
  · intro hexclusive
    have hfront : ∀ before, before <+: actions → WritesFindOpen before := by
      intro before
      induction before using List.reverseRecOn with
      | nil =>
        rintro - before' worker rest s job now heq
        simp at heq
      | append_singleton before action ih =>
        intro hpre
        have hbefore := ih ((List.prefix_append before [action]).trans hpre)
        refine writesFindOpen_append_iff.mpr ⟨hbefore, ?_⟩
        rintro worker s job now rfl hafter hselected
        by_contra hclosed
        -- the write can be taken, and what it leaves is not exclusive
        obtain ⟨s', hstep⟩ : ∃ s', s.step (.write worker) = some s' := by
          simp only [step, hselected]
          exact ⟨_, rfl⟩
        refine (kept_of_writesFindOpen hbefore hafter).not_exclusive hselected
          (Bool.eq_false_iff.mpr hclosed) hstep (hexclusive _ s' hpre ?_)
        rw [after_append, hafter]
        exact hstep
    exact hfront actions (List.prefix_refl _)
  · intro hwrites before s hpre hafter
    obtain ⟨rest, rfl⟩ := hpre
    refine (kept_of_writesFindOpen ?_ hafter).exclusive
    intro before' worker rest' s' job now heq
    exact hwrites before' worker (rest' ++ rest) s' job now (by simp [heq])

/-- Two workers that both read the one pending row before either of them writes. -/
def doubleClaim : List (WorkerAction ℕ) :=
  [.enqueue { jobType := .syncBatch } "s1" 0, .read 1 .syncBatch 5, .read 2 .syncBatch 5, .write 1,
    .write 2]

theorem not_alwaysExclusive_doubleClaim : ¬ AlwaysExclusive doubleClaim := by
  intro h
  have hexclusive := h doubleClaim _ (List.prefix_refl _) rfl
  exact absurd (hexclusive.apart 1 2 "s1" rfl rfl) (by decide)

end QueueSystem

end Bisakerja
