import Mathlib.Data.List.Dedup
import Mathlib.Data.Nat.Log
import BisakerjaScraper.Sync.Lifecycle

/-! What a sync worker asks of the backend.

    A run makes a post for a chunk that it settles and one more whenever it halves a chunk. Chunks
    only get smaller in the course of a run, so they are halved at most five times in all. What is
    cut off keeps its turn, and what stays is posted again, dead or not; so a payload can be posted
    five times more than the budget allows, but no more often over all runs there will ever be. -/

namespace Bisakerja
open Schemes Schemes.Delivery

/-- Things that each have one of some keys, and of each key only so many, are not many. -/
theorem length_le_of_countP {α κ : Type} [DecidableEq κ] {keysOf : α → List κ} {bound : ℕ}
    {keys : List κ} {xs : List α} (hsome : ∀ x ∈ xs, ∃ key ∈ keys, key ∈ keysOf x)
    (hbound : ∀ key ∈ keys, (xs.countP fun x => key ∈ keysOf x) ≤ bound) :
    xs.length ≤ keys.length * bound := by
  induction keys generalizing xs with
  | nil =>
    have hnil : xs = [] := List.eq_nil_iff_forall_not_mem.mpr fun x hx => by
      obtain ⟨key, hkey, -⟩ := hsome x hx
      cases hkey
    rw [hnil, List.length_nil]
    exact Nat.zero_le _
  | cons key keys ih =>
    have hrest : (xs.filter fun x => key ∉ keysOf x).length ≤ keys.length * bound := by
      refine ih (fun x hx => ?_) fun other hother => ?_
      · obtain ⟨hx, hnot⟩ := List.mem_filter.mp hx
        obtain ⟨other, hother, hmem⟩ := hsome x hx
        rcases List.mem_cons.mp hother with rfl | hother
        · exact absurd hmem (of_decide_eq_true hnot)
        · exact ⟨other, hother, hmem⟩
      · exact (List.filter_sublist.countP_le).trans (hbound other (List.mem_cons_of_mem _ hother))
    have hfirst := hbound key List.mem_cons_self
    have hsplit : xs.length = (xs.countP fun x => key ∈ keysOf x)
        + (xs.filter fun x => key ∉ keysOf x).length := by
      rw [← List.countP_eq_length_filter]
      simpa using List.length_eq_countP_add_countP (l := xs) fun x => decide (key ∈ keysOf x)
    rw [List.length_cons, Nat.succ_mul]
    omega

/-! ### Halvings -/

/-- How often a chunk of a size can be halved before it is down to the least size. -/
def halvings (least size : ℕ) : ℕ := Nat.clog 2 ((size + least - 1) / least)

theorem halvings_mono (least : ℕ) {size size' : ℕ} (h : size ≤ size') :
    halvings least size ≤ halvings least size' := by
  refine Nat.clog_mono_right 2 (Nat.div_le_div_right ?_)
  omega

/-- A halving uses up one of them. -/
theorem halvings_half {least size : ℕ} (hleast : 0 < least) (h : least < size) :
    halvings least (max least ((size + 1) / 2)) + 1 ≤ halvings least size := by
  unfold halvings
  set quotas := (size + least - 1) / least with hquotas
  have hcover : size ≤ least * quotas := by
    have hmod := Nat.div_add_mod (size + least - 1) least
    have hlt := Nat.mod_lt (size + least - 1) hleast
    rw [← hquotas] at hmod
    omega
  have htwo : 2 ≤ quotas := (Nat.le_div_iff_mul_le hleast).mpr (by omega)
  rw [Nat.clog_of_two_le one_lt_two htwo]
  refine Nat.add_le_add_right (Nat.clog_mono_right 2 ?_) 1
  have hhalf : least * quotas ≤ 2 * (least * ((quotas + 2 - 1) / 2)) := by
    have htwice : quotas ≤ 2 * ((quotas + 2 - 1) / 2) := by omega
    calc least * quotas ≤ least * (2 * ((quotas + 2 - 1) / 2)) := Nat.mul_le_mul_left _ htwice
      _ = 2 * (least * ((quotas + 2 - 1) / 2)) := by ring
  have hone : least ≤ least * ((quotas + 2 - 1) / 2) := Nat.le_mul_of_pos_right _ (by omega)
  refine Nat.le_of_lt_succ ((Nat.div_lt_iff_lt_mul hleast).mpr ?_)
  rw [Nat.succ_mul, Nat.mul_comm]
  omega

theorem halvings_le (least : ℕ) {size : ℕ} (h : size ≤ 25) : halvings least size ≤ 5 := by
  unfold halvings
  rcases least.eq_zero_or_pos with rfl | hleast
  · simp
  · refine Nat.clog_le_of_le_pow ((Nat.div_le_of_le_mul ?_ : _ ≤ 25).trans (by decide))
    omega

/-- A retry uses up one of the halvings left. -/
theorem SyncParams.halvings_nextSize {p : SyncParams} {chunkJobs : List NormalizedJob}
    {result : ChunkSyncResult} (hmin : 0 < p.minBatchSize)
    (h : p.shouldRetry chunkJobs result = true) {size : ℕ} (hsize : chunkJobs.length ≤ size) :
    halvings p.minBatchSize.toNat (p.nextSize chunkJobs) + 1 ≤ halvings p.minBatchSize.toNat size := by
  simp only [SyncParams.shouldRetry, Bool.and_eq_true, decide_eq_true_eq] at h
  have hless : p.minBatchSize.toNat < chunkJobs.length := by omega
  exact (halvings_half (by omega) hless).trans (halvings_mono _ hsize)

namespace BackendSyncWorker

/-! ### The posts of a run -/

/-- The posts made and those still to come. -/
structure Paced (p : SyncParams) (bound : ℕ) (rest : List NormalizedJob) (g : Progress)
    (s : SyncState) : Prop where
  nodup : (rest.map NormalizedJob.id).Nodup
  total : (posts s.journal).length + rest.length + halvings p.minBatchSize.toNat g.chunkSize ≤ bound

variable {w : BackendSyncWorker} {db : JobTables} {jobs : List NormalizedJob} {s s' : SyncState}
  {answer : Except BackendSyncError BackendSyncResult} {r : ChunkSyncResult}

/-- An attempt makes at most one post. -/
theorem ChunkOutcome.length_posts_le (h : w.ChunkOutcome db jobs s answer r s') :
    (posts s'.journal).length ≤ (posts s.journal).length + 1 := by
  rw [h.posts_eq, List.length_append]
  split <;> simp

theorem posts_settled (chunk : List NormalizedJob) (s : SyncState) :
    posts (s.log (.settled chunk r)).journal = posts s.journal := by
  simp [SyncState.log, posts]

theorem posts_listed (candidates : List NormalizedJob) (s : SyncState) :
    posts (s.log (.listed candidates)).journal = posts s.journal := by
  simp [SyncState.log, posts]

theorem paced_loop {p : SyncParams} (hmin : 0 < p.minBatchSize) (bound : ℕ) :
    w.LoopInvariant db p (Paced p bound) where
  retry rest g g' s chunkIndex hrest hpos _ hinv hretry _ _ hsize := by
    have hne : rest.take g.chunkSize ≠ [] := fun h =>
      (List.take_eq_nil_iff.mp h).elim (by omega) hrest
    obtain ⟨tick, hout⟩ := w.attemptOnce_outcome db p chunkIndex s hne
      (hinv.nodup.sublist ((List.take_sublist _ _).map _))
    have hposts := hout.length_posts_le
    have hhalved := SyncParams.halvings_nextSize hmin hretry (List.length_take_le _ _)
    have htotal := hinv.total
    rw [← hsize] at hhalved
    exact ⟨hinv.nodup, by omega⟩
  settle rest g g' s chunkIndex r hrest hpos _ hinv _ _ _ _ hsize := by
    have hne : rest.take g.chunkSize ≠ [] := fun h =>
      (List.take_eq_nil_iff.mp h).elim (by omega) hrest
    obtain ⟨tick, hout⟩ := w.attemptOnce_outcome db p chunkIndex s hne
      (hinv.nodup.sublist ((List.take_sublist _ _).map _))
    have hposts := hout.length_posts_le
    have htotal := hinv.total
    have hlength := List.length_pos_iff.mpr hrest
    refine ⟨hinv.nodup.sublist ((List.drop_sublist _ _).map _), ?_⟩
    rw [posts_settled, List.length_drop, hsize]
    omega

/-- A call that refuses its `min_batch_size` lists the candidates and does no more. -/
theorem runOnce_of_refused (w : BackendSyncWorker) (s : SyncState) {run : SyncRun}
    (h : run.params.minBatchSize ≤ 0) :
    w.runOnce s run
      = s.log (.listed (w.listBackendPayloadCandidates run.db run.params s.events)) := by
  unfold runOnce syncEligibleJobs
  dsimp only
  rw [if_pos h]

/-- How often the payload of an event has been posted. -/
def timesPosted (key : EventKey) (journal : List Effect) : ℕ :=
  (posts journal).countP fun post => key ∈ post.1.map Prod.fst

/-- The payloads that have been posted, each once. -/
def postedKeys (journal : List Effect) : List EventKey :=
  ((posts journal).flatMap fun post => post.1.map Prod.fst).dedup

/-- What holds at any time: posts are counted as attempts, what has been attempted is not pending,
    and no payload has been posted more often than the budget and five. -/
structure Spared (w : BackendSyncWorker) (s : SyncState) : Prop where
  attempts : ∀ key, timesPosted key s.journal ≤ (ledger s.events key).elim 0 Mark.attempts
  pending : ∀ key m, ledger s.events key = some m → m.status = .pending → m.attempts = 0
  limit : ∀ key, timesPosted key s.journal ≤ w.budget + 5
  nonempty : ∀ post ∈ posts s.journal, post.1 ≠ []

/-- What holds between the chunks of a run: a payload still to come has been posted so seldom that
    the halvings left cannot carry it past the limit. -/
structure WithinLimit (w : BackendSyncWorker) (db : JobTables) (p : SyncParams)
    (rest : List NormalizedJob) (g : Progress) (s : SyncState) : Prop where
  nodup : (rest.map NormalizedJob.id).Nodup
  spared : w.Spared s
  room : ∀ job ∈ rest, w.contractValid db job = true →
    timesPosted (w.keyOf db job) s.journal + halvings p.minBatchSize.toNat g.chunkSize
      < w.budget + 5

theorem timesPosted_log {effect : Effect} (h : posts (s.log effect).journal = posts s.journal)
    (key : EventKey) : timesPosted key (s.log effect).journal = timesPosted key s.journal := by
  unfold timesPosted
  rw [h]

theorem Spared.log {effect : Effect} (hs : w.Spared s)
    (h : posts (s.log effect).journal = posts s.journal) : w.Spared (s.log effect) where
  attempts key := by
    rw [timesPosted_log h]
    exact hs.attempts key
  pending := hs.pending
  limit key := by
    rw [timesPosted_log h]
    exact hs.limit key
  nonempty := by
    rw [h]
    exact hs.nonempty

theorem spared_initial (w : BackendSyncWorker) (ticks : ℕ) : w.Spared (.initial ticks) where
  attempts _ := Nat.zero_le _
  pending key m hm _ := by simp [SyncState.initial, ledger] at hm
  limit _ := Nat.zero_le _
  nonempty := by simp [SyncState.initial, posts]

/-! ### One attempt -/

theorem ChunkOutcome.timesPosted_eq (h : w.ChunkOutcome db jobs s answer r s') (key : EventKey) :
    timesPosted key s'.journal = timesPosted key s.journal
      + if key ∈ (jobs.filter (w.contractValid db)).map (w.keyOf db) then 1 else 0 := by
  unfold timesPosted
  rw [h.posts_eq, List.countP_append, ← w.map_fst_rowOf]
  split
  · next hempty => simp [List.isEmpty_iff.mp hempty]
  · simp only [List.countP_singleton, decide_eq_true_eq]

theorem attempts_chunkMark (w : BackendSyncWorker) (db : JobTables)
    (answer : Except BackendSyncError BackendSyncResult) (job : NormalizedJob) (o : Option Mark) :
    (w.chunkMark db answer job o).elim 0 Mark.attempts = o.elim 0 Mark.attempts + 1 := by
  have hfresh : (o.getD Mark.fresh).attempts = o.elim 0 Mark.attempts := by cases o <;> rfl
  unfold chunkMark
  rw [Option.elim_some, ← hfresh]
  split
  · rcases answer with (exc | exc) | result <;> rfl
  · rfl

theorem not_pending_chunkMark {m : Mark} {o : Option Mark} {job : NormalizedJob}
    (h : w.chunkMark db answer job o = some m) : m.status ≠ .pending := by
  have hfail : ∀ (budget : ℕ) (m : Mark), (m.fail budget).status ≠ .pending := by
    intro budget m
    unfold Mark.fail
    dsimp only
    split <;> simp
  cases h
  split
  · rcases answer with (exc | exc) | result
    · exact hfail _ _
    · exact hfail _ _
    · simp [answerMark, Mark.succeed]
  · exact hfail _ _

/-- An attempt on jobs that have room for it. -/
theorem ChunkOutcome.spared (h : w.ChunkOutcome db jobs s answer r s') (hs : w.Spared s)
    (hroom : ∀ job ∈ jobs, w.contractValid db job = true →
      timesPosted (w.keyOf db job) s.journal < w.budget + 5) : w.Spared s' where
  attempts key := by
    have hold := hs.attempts key
    rw [h.timesPosted_eq key]
    by_cases hmem : key ∈ jobs.map (w.keyOf db)
    · obtain ⟨job, hjob, rfl⟩ := List.mem_map.mp hmem
      rw [h.marks job hjob, w.attempts_chunkMark]
      split <;> omega
    · have hvalid : key ∉ (jobs.filter (w.contractValid db)).map (w.keyOf db) :=
        fun hin => hmem (List.map_subset _ (List.filter_subset_self _) hin)
      rwa [h.frame key hmem, if_neg hvalid]
  pending key m hm hpending := by
    by_cases hmem : key ∈ jobs.map (w.keyOf db)
    · obtain ⟨job, hjob, rfl⟩ := List.mem_map.mp hmem
      rw [h.marks job hjob] at hm
      exact absurd hpending (not_pending_chunkMark hm)
    · rw [h.frame key hmem] at hm
      exact hs.pending key m hm hpending
  limit key := by
    have hlimit := hs.limit key
    rw [h.timesPosted_eq]
    split
    · next hmem =>
      obtain ⟨job, hjob, rfl⟩ := List.mem_map.mp hmem
      obtain ⟨hjob, hvalid⟩ := List.mem_filter.mp hjob
      have hless := hroom job hjob hvalid
      omega
    · exact hlimit
  nonempty post hpost := by
    rw [h.posts_eq] at hpost
    rcases List.mem_append.mp hpost with hold | hnew
    · exact hs.nonempty post hold
    · split at hnew
      · cases hnew
      · next hrows =>
        rw [List.mem_singleton.mp hnew]
        exact fun hnil => hrows (List.isEmpty_iff.mpr hnil)

/-! ### The runs -/

theorem withinLimit_loop {p : SyncParams} (hmin : 0 < p.minBatchSize) :
    w.LoopInvariant db p (w.WithinLimit db p) where
  retry rest g g' s chunkIndex hrest hpos _ hinv hretry _ _ hsize := by
    have hne : rest.take g.chunkSize ≠ [] := fun h =>
      (List.take_eq_nil_iff.mp h).elim (by omega) hrest
    obtain ⟨tick, hout⟩ := w.attemptOnce_outcome db p chunkIndex s hne
      (hinv.nodup.sublist ((List.take_sublist _ _).map _))
    have hhalved := SyncParams.halvings_nextSize hmin hretry (List.length_take_le _ _)
    rw [← hsize] at hhalved
    refine ⟨hinv.nodup, hout.spared hinv.spared fun job hjob hvalid => ?_, fun job hjob hvalid => ?_⟩
    · have hroom := hinv.room job (List.mem_of_mem_take hjob) hvalid
      omega
    · have hroom := hinv.room job hjob hvalid
      rw [hout.timesPosted_eq]
      split <;> omega
  settle rest g g' s chunkIndex r hrest hpos _ hinv _ _ _ _ hsize := by
    have hne : rest.take g.chunkSize ≠ [] := fun h =>
      (List.take_eq_nil_iff.mp h).elim (by omega) hrest
    obtain ⟨tick, hout⟩ := w.attemptOnce_outcome db p chunkIndex s hne
      (hinv.nodup.sublist ((List.take_sublist _ _).map _))
    have hposts := posts_settled (r := r) (rest.take g.chunkSize)
      (w.attemptOnce db p chunkIndex (rest.take g.chunkSize) s).2
    have hspared := hout.spared hinv.spared fun job hjob hvalid => by
      have hroom := hinv.room job (List.mem_of_mem_take hjob) hvalid
      omega
    refine ⟨hinv.nodup.sublist ((List.drop_sublist _ _).map _), hspared.log hposts,
      fun job hjob hvalid => ?_⟩
    -- what is still to come was not in the chunk
    have hroom := hinv.room job (List.mem_of_mem_drop hjob) hvalid
    have hother : w.keyOf db job
        ∉ ((rest.take g.chunkSize).filter (w.contractValid db)).map (w.keyOf db) := by
      intro hmem
      obtain ⟨job', hjob', hkey⟩ := List.mem_map.mp hmem
      have hnodup := hinv.nodup
      rw [← List.take_append_drop g.chunkSize rest, List.map_append, List.nodup_append] at hnodup
      exact hnodup.2.2 _ (List.mem_map_of_mem (List.mem_filter.mp hjob').1) _
        (List.mem_map_of_mem hjob) (congrArg EventKey.normalizedJobId hkey)
    rw [timesPosted_log hposts, hout.timesPosted_eq, if_neg hother, hsize]
    exact hroom

/-- A candidate has an attempt of its budget left. -/
theorem timesPosted_candidate {p : SyncParams} {job : NormalizedJob} (h : w.Spared s)
    (hjob : job ∈ w.listBackendPayloadCandidates db p s.events)
    (hvalid : w.contractValid db job = true) :
    timesPosted (w.keyOf db job) s.journal < w.budget := by
  have hpos : 1 ≤ w.budget := le_max_right _ _
  have hattempts := h.attempts (w.keyOf db job)
  cases hm : ledger s.events (w.keyOf db job) with
  | none =>
    rw [hm, Option.elim_none] at hattempts
    omega
  | some m =>
    rw [hm, Option.elim_some] at hattempts
    rcases due_of_candidate hjob hvalid m hm with hpending | ⟨-, hless⟩
    · have hzero := h.pending _ m hm hpending
      omega
    · omega

theorem spared_runOnce (run : SyncRun) (h : w.Spared s) : w.Spared (w.runOnce s run) := by
  set candidates := w.listBackendPayloadCandidates run.db run.params s.events with hcandidates
  have hposts := posts_listed candidates s
  rcases lt_or_ge 0 run.params.minBatchSize with hmin | hmin
  · have hstart : ∀ g : Progress, g.sent = 0 → g.failed = 0 → g.chunkSize = run.params.chunkSize →
        w.WithinLimit run.db run.params candidates g (s.log (.listed candidates)) := by
      intro g _ _ hsize
      refine ⟨w.nodup_candidates run.db run.params s.events, h.log hposts, fun job hjob hvalid => ?_⟩
      have hbudget := timesPosted_candidate h hjob hvalid
      have hhalvings := halvings_le run.params.minBatchSize.toNat run.params.chunkSize_bounds.2
      rw [timesPosted_log hposts, hsize]
      omega
    rcases w.runOnce_cases s run (withinLimit_loop hmin) hstart with heq | ⟨g, hend⟩
    · exact heq ▸ h.log hposts
    · exact hend.spared
  · rw [w.runOnce_of_refused s hmin]
    exact h.log hposts

theorem spared_runHistory : ∀ (runs : List SyncRun) (s : SyncState), w.Spared s →
    w.Spared (w.runHistory runs s)
  | [], _, h => h
  | run :: runs, s, h => spared_runHistory runs (w.runOnce s run) (spared_runOnce run h)

/-- Over any sequence of calls, with any job tables, parameters and answers, a payload is posted at
    most five times more than the budget says, and there are at most as many posts as that makes
    for all payloads. -/
theorem posts_within_limit (w : BackendSyncWorker) (runs : List SyncRun) (ticks : ℕ) :
    let journal := (w.runHistory runs (.initial ticks)).journal
    (∀ key, timesPosted key journal ≤ w.budget + 5) ∧
      (posts journal).length ≤ (postedKeys journal).length * (w.budget + 5) := by
  have hspared := spared_runHistory runs _ (w.spared_initial ticks)
  refine ⟨hspared.limit, length_le_of_countP (fun post hpost => ?_) fun key _ => hspared.limit key⟩
  obtain ⟨row, hrow⟩ := List.exists_mem_of_ne_nil _ (hspared.nonempty post hpost)
  have hkey : row.1 ∈ post.1.map Prod.fst := List.mem_map_of_mem hrow
  exact ⟨row.1, List.mem_dedup.mpr (List.mem_flatMap.mpr ⟨post, hpost, hkey⟩), by simpa using hkey⟩

end BackendSyncWorker

end Bisakerja
