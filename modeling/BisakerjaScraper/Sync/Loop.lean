import BisakerjaScraper.Sync.Chunk

/-! The rule for the two loops of a sync run.

    An invariant relates the jobs from the cursor on, the counters and the session. It has to
    survive a retried attempt, which leaves the cursor where it is and shrinks the chunk, and a
    settled one, which moves the cursor past the chunk. The chunk on hand is always the first
    `chunk_size` jobs from the cursor, halved or not. A run then ends with the invariant at the
    end of the candidates; the fuel of both loops is shown to suffice on the way. -/

namespace Bisakerja
open Schemes Schemes.Delivery

/-- `chunk_size` starts between 1 and 25. -/
theorem SyncParams.chunkSize_bounds (p : SyncParams) : 1 ≤ p.chunkSize ∧ p.chunkSize ≤ 25 := by
  unfold SyncParams.chunkSize backendSyncMaxBatchSize
  dsimp only
  omega

/-- Halving makes a retried chunk strictly smaller and never empty. -/
theorem SyncParams.nextSize_bounds {p : SyncParams} {chunkJobs : List NormalizedJob}
    {result : ChunkSyncResult} (hmin : 0 < p.minBatchSize)
    (h : p.shouldRetry chunkJobs result = true) :
    1 ≤ p.nextSize chunkJobs ∧ p.nextSize chunkJobs < chunkJobs.length := by
  simp only [SyncParams.shouldRetry, Bool.and_eq_true, decide_eq_true_eq] at h
  have hlen := h.2
  unfold SyncParams.nextSize
  omega

namespace BackendSyncWorker

variable (w : BackendSyncWorker)

/-- What an invariant of the loops has to survive. -/
structure LoopInvariant (db : JobTables) (p : SyncParams)
    (I : List NormalizedJob → Progress → SyncState → Prop) : Prop where
  retry : ∀ (rest : List NormalizedJob) (g g' : Progress) (s : SyncState) (chunkIndex : ℕ),
    rest ≠ [] → 1 ≤ g.chunkSize → g.chunkSize ≤ 25 → I rest g s →
    p.shouldRetry (rest.take g.chunkSize)
      (w.attemptOnce db p chunkIndex (rest.take g.chunkSize) s).1 = true →
    g'.sent = g.sent → g'.failed = g.failed →
    g'.chunkSize = p.nextSize (rest.take g.chunkSize) →
    I rest g' (w.attemptOnce db p chunkIndex (rest.take g.chunkSize) s).2
  settle : ∀ (rest : List NormalizedJob) (g g' : Progress) (s : SyncState) (chunkIndex : ℕ)
    (r : ChunkSyncResult), rest ≠ [] → 1 ≤ g.chunkSize → g.chunkSize ≤ 25 → I rest g s →
    r = (w.attemptOnce db p chunkIndex (rest.take g.chunkSize) s).1 →
    p.shouldRetry (rest.take g.chunkSize) r = false →
    g'.sent = g.sent + r.sent → g'.failed = g.failed + r.failed → g'.chunkSize = g.chunkSize →
    I (rest.drop g.chunkSize) g'
      ((w.attemptOnce db p chunkIndex (rest.take g.chunkSize) s).2.log
        (.settled (rest.take g.chunkSize) r))

variable {w} {db : JobTables} {p : SyncParams}
  {I : List NormalizedJob → Progress → SyncState → Prop}

/-- The inner loop ends and moves the cursor past a nonempty chunk. -/
theorem LoopInvariant.attemptChunk (hI : w.LoopInvariant db p I) (hmin : 0 < p.minBatchSize)
    {rest : List NormalizedJob} (hrest : rest ≠ []) :
    ∀ (fuel : ℕ) (g : Progress) (s : SyncState), 1 ≤ g.chunkSize → g.chunkSize ≤ 25 →
      (rest.take g.chunkSize).length ≤ fuel → I rest g s →
      ∃ n g' s', 1 ≤ n ∧ 1 ≤ g'.chunkSize ∧ g'.chunkSize ≤ 25 ∧ I (rest.drop n) g' s' ∧
        w.attemptChunk db p fuel (rest.take g.chunkSize) g s = some (rest.take n, g', s')
  | 0, g, s, hpos, _, hfuel, _ => by
    have hlen := List.length_pos_iff.mpr hrest
    rw [List.length_take] at hfuel
    omega
  | fuel + 1, g, s, hpos, hle, hfuel, hinv => by
    cases hretry : p.shouldRetry (rest.take g.chunkSize)
        (w.attemptOnce db p (g.chunkIndex + 1) (rest.take g.chunkSize) s).1 with
    | true =>
      obtain ⟨hone, hlt⟩ := SyncParams.nextSize_bounds hmin hretry
      have hmax : max (p.nextSize (rest.take g.chunkSize)) p.minBatchSize.toNat
          = p.nextSize (rest.take g.chunkSize) := by
        unfold SyncParams.nextSize
        omega
      have hcut : p.nextSize (rest.take g.chunkSize) < g.chunkSize := by
        rw [List.length_take] at hlt
        omega
      simp only [BackendSyncWorker.attemptChunk, hretry, if_true, hlt.ne, if_false, hmax]
      rw [List.take_take, min_eq_left hcut.le]
      refine hI.attemptChunk hmin hrest fuel (Progress.reduce _ _) _ hone (hcut.le.trans hle) ?_
        (hI.retry rest g _ s _ hrest hpos hle hinv hretry rfl rfl rfl)
      change (rest.take (p.nextSize (rest.take g.chunkSize))).length ≤ fuel
      rw [List.length_take] at hfuel hlt ⊢
      omega
    | false =>
      simp only [BackendSyncWorker.attemptChunk, hretry, Bool.false_eq_true, if_false]
      exact ⟨g.chunkSize, (g.addAttempt _).settle _, _, hpos, hpos, hle,
        hI.settle rest g _ s _ _ hrest hpos hle hinv rfl hretry rfl rfl rfl, rfl⟩

/-- The outer loop ends at the end of the jobs. -/
theorem LoopInvariant.syncChunks (hI : w.LoopInvariant db p I) (hmin : 0 < p.minBatchSize) :
    ∀ (fuel : ℕ) (rest : List NormalizedJob) (g : Progress) (s : SyncState), 1 ≤ g.chunkSize →
      g.chunkSize ≤ 25 → rest.length ≤ fuel → I rest g s →
      ∃ g' s', w.syncChunks db p fuel rest g s = some (g', s') ∧ I [] g' s'
  | _, [], g, s, _, _, _, hinv => ⟨g, s, by rw [BackendSyncWorker.syncChunks], hinv⟩
  | fuel + 1, job :: jobs, g, s, hpos, hle, hfuel, hinv => by
    obtain ⟨n, g', s', hn, hpos', hle', hinv', heq⟩ := hI.attemptChunk hmin
      (List.cons_ne_nil job jobs) ((job :: jobs).take g.chunkSize).length g s hpos hle le_rfl hinv
    have hdrop : (job :: jobs).drop ((job :: jobs).take n).length = (job :: jobs).drop n := by
      rw [List.length_take]
      rcases le_total n (job :: jobs).length with h | h
      · rw [min_eq_left h]
      · rw [min_eq_right h, List.drop_length, List.drop_eq_nil_of_le h]
    rw [BackendSyncWorker.syncChunks]
    simp only [heq, hdrop]
    refine hI.syncChunks hmin fuel _ g' s' hpos' hle' ?_ hinv'
    rw [List.length_drop]
    omega

/-- The run rule: an invariant that holds of the candidates when they are listed holds at the end
    of the run, and the run ends with a result. -/
theorem LoopInvariant.syncEligibleJobs (hI : w.LoopInvariant db p I) (hmin : 0 < p.minBatchSize)
    (s : SyncState)
    (hstart : ∀ g : Progress, g.sent = 0 → g.failed = 0 → g.chunkSize = p.chunkSize →
      I (w.listBackendPayloadCandidates db p s.events) g
        (s.log (.listed (w.listBackendPayloadCandidates db p s.events)))) :
    ∃ g s', w.syncEligibleJobs db p s
        = some (.ok (resultOf (w.listBackendPayloadCandidates db p s.events) g), s') ∧
      I [] g s' := by
  obtain ⟨hpos, hle⟩ := p.chunkSize_bounds
  obtain ⟨g, s', heq, hinv⟩ := hI.syncChunks hmin _
    (w.listBackendPayloadCandidates db p s.events) { chunkSize := p.chunkSize } _ hpos hle le_rfl
    (hstart _ rfl rfl rfl)
  refine ⟨g, s', ?_, hinv⟩
  unfold BackendSyncWorker.syncEligibleJobs
  dsimp only
  rw [if_neg (by omega), heq]

/-! ### Histories -/

variable (w)

/-- One call of `sync_eligible_jobs`: the job tables it finds and its arguments. -/
structure SyncRun where
  db : JobTables
  params : SyncParams

/-- The session after one call. -/
def runOnce (s : SyncState) (run : SyncRun) : SyncState :=
  match w.syncEligibleJobs run.db run.params s with
  | some (_, s') => s'
  | none => s

/-- The session after a sequence of calls; between them the job tables may change at will. -/
def runHistory (runs : List SyncRun) (s : SyncState) : SyncState := runs.foldl w.runOnce s

/-- A call either refuses its `min_batch_size` after listing, or runs its loops to the end. -/
theorem runOnce_cases (s : SyncState) (run : SyncRun)
    (hI : w.LoopInvariant run.db run.params I)
    (hstart : ∀ g : Progress, g.sent = 0 → g.failed = 0 → g.chunkSize = run.params.chunkSize →
      I (w.listBackendPayloadCandidates run.db run.params s.events) g
        (s.log (.listed (w.listBackendPayloadCandidates run.db run.params s.events)))) :
    w.runOnce s run = s.log (.listed (w.listBackendPayloadCandidates run.db run.params s.events)) ∨
      ∃ g, I [] g (w.runOnce s run) := by
  by_cases hmin : 0 < run.params.minBatchSize
  · obtain ⟨g, s', heq, hinv⟩ := hI.syncEligibleJobs hmin s hstart
    right
    refine ⟨g, ?_⟩
    unfold runOnce
    rw [heq]
    exact hinv
  · left
    unfold runOnce BackendSyncWorker.syncEligibleJobs
    dsimp only
    rw [if_pos (by omega)]

end BackendSyncWorker

end Bisakerja
