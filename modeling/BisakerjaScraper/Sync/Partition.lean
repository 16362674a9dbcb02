import BisakerjaScraper.Sync.Loop

/-! Every candidate of a run is settled exactly once.

    The settled chunks of a run, laid end to end, are the candidates in their order, however often
    chunks were halved on the way; a settled chunk counts each of its jobs as sent or as failed,
    and no post carries more than 25 payloads. -/

namespace Bisakerja
open Schemes Schemes.Delivery

namespace BackendSyncWorker

variable (w : BackendSyncWorker)

/-- The candidates of a run have distinct ids. -/
theorem nodup_candidates (db : JobTables) (p : SyncParams) (events : SyncEvents) :
    ((w.listBackendPayloadCandidates db p events).map NormalizedJob.id).Nodup := by
  have hsub := collectUpTo_sublist (w.isCandidate db events) p.limit
    (listEligibleJobs db syncEligibleStatuses p.sourcePlatforms p.scrapeRunId)
  exact (nodup_listEligibleJobs db syncEligibleStatuses p.sourcePlatforms p.scrapeRunId).sublist
    ((hsub.trans List.filter_sublist).map _)

/-! ### Counting one attempt -/

theorem length_filterMap_rowOf (db : JobTables) (jobs : List NormalizedJob) :
    (jobs.filterMap (w.rowOf db)).length = jobs.countP (w.contractValid db) := by
  have hlen := congrArg List.length (w.map_fst_rowOf db jobs)
  rwa [List.length_map, List.length_map, ← List.countP_eq_length_filter] at hlen

variable {w} {db : JobTables} {jobs : List NormalizedJob} {s s' : SyncState}
  {answer : Except BackendSyncError BackendSyncResult} {r : ChunkSyncResult}

/-- A job counts as sent when its payload was valid and the post acknowledged. -/
theorem ChunkOutcome.sent_eq (h : w.ChunkOutcome db jobs s answer r s') :
    r.sent = jobs.countP fun job => acknowledged answer && w.contractValid db job := by
  rw [h.sent, w.length_filterMap_rowOf]
  cases acknowledged answer <;> simp

/-- Every other job of the chunk counts as failed. -/
theorem ChunkOutcome.failed_eq (h : w.ChunkOutcome db jobs s answer r s') :
    r.failed = jobs.countP fun job => !(acknowledged answer && w.contractValid db job) := by
  have hsent := h.sent_eq
  have hcount := h.counted
  have hlen := List.length_eq_countP_add_countP (l := jobs)
    (fun job => acknowledged answer && w.contractValid db job)
  simp only [Bool.not_eq_true, Bool.decide_eq_false] at hlen
  omega

variable (w db)

/-- What a settled chunk counts: each job once, as sent or as failed. -/
def CountsEachJob (chunk : List NormalizedJob × ChunkSyncResult) : Prop :=
  ∃ acked : Bool, chunk.2.sent = (chunk.1.countP fun job => acked && w.contractValid db job) ∧
    chunk.2.failed = chunk.1.countP fun job => !(acked && w.contractValid db job)

theorem CountsEachJob.add_eq {chunk : List NormalizedJob × ChunkSyncResult}
    (h : w.CountsEachJob db chunk) : chunk.2.sent + chunk.2.failed = chunk.1.length := by
  obtain ⟨acked, hsent, hfailed⟩ := h
  have hlen := List.length_eq_countP_add_countP (l := chunk.1)
    (fun job => acked && w.contractValid db job)
  simp only [Bool.not_eq_true, Bool.decide_eq_false] at hlen
  omega

/-! ### The invariant -/

/-- The part of a run that lies before the cursor: `S` are the chunks settled and `P` the posts
    made since the run began. -/
structure Partitioned (jobs : List NormalizedJob) (s₀ : SyncState) (rest : List NormalizedJob)
    (g : Progress) (s : SyncState) (P : List (List (EventKey × Json) ×
      Except BackendSyncError BackendSyncResult)) (S : List (List NormalizedJob × ChunkSyncResult)) :
    Prop where
  posts_eq : posts s.journal = posts s₀.journal ++ P
  settlements_eq : settlements s.journal = settlements s₀.journal ++ S
  sizes : ∀ post ∈ P, 1 ≤ post.1.length ∧ post.1.length ≤ 25
  partition : S.flatMap Prod.fst ++ rest = jobs
  counts : ∀ chunk ∈ S, w.CountsEachJob db chunk
  sent : g.sent = (S.map fun chunk => chunk.2.sent).sum
  failed : g.failed = (S.map fun chunk => chunk.2.failed).sum

variable {w db}

/-- The rows of a post: at most 25, and at least one. -/
theorem ChunkOutcome.post_sizes (h : w.ChunkOutcome db jobs s answer r s')
    (hle : jobs.length ≤ 25) : ∃ P, posts s'.journal = posts s.journal ++ P ∧
      ∀ post ∈ P, 1 ≤ post.1.length ∧ post.1.length ≤ 25 := by
  refine ⟨_, h.posts_eq, fun post hpost => ?_⟩
  split at hpost
  · cases hpost
  · next hne =>
    rw [List.mem_singleton] at hpost
    subst hpost
    have hpos : (jobs.filterMap (w.rowOf db)).length ≠ 0 := by
      rw [Ne, List.length_eq_zero_iff, ← List.isEmpty_iff]
      exact hne
    have hlen := List.length_filterMap_le (w.rowOf db) jobs
    dsimp only
    omega

theorem partitioned_invariant (p : SyncParams) (s₀ : SyncState)
    (hnodup : (jobs.map NormalizedJob.id).Nodup) :
    w.LoopInvariant db p fun rest g s => ∃ P S, w.Partitioned db jobs s₀ rest g s P S where
  retry rest g g' s chunkIndex hrest hpos hle hinv _ hsent hfailed _ := by
    obtain ⟨P, S, hinv⟩ := hinv
    have hne : rest.take g.chunkSize ≠ [] := by
      rw [Ne, List.take_eq_nil_iff]
      exact fun h => h.elim (by omega) hrest
    have hsub : (rest.take g.chunkSize).Sublist jobs := by
      rw [← hinv.partition]
      exact (List.take_sublist _ _).trans (List.sublist_append_right _ _)
    obtain ⟨tick, hout⟩ := w.attemptOnce_outcome db p chunkIndex s hne (hnodup.sublist (hsub.map _))
    obtain ⟨P', hP', hsizes⟩ := hout.post_sizes ((List.length_take_le _ _).trans hle)
    refine ⟨P ++ P', S, ?_, ?_, ?_, hinv.partition, hinv.counts, hsent.trans hinv.sent,
      hfailed.trans hinv.failed⟩
    · rw [hP', hinv.posts_eq, List.append_assoc]
    · rw [hout.settlements_eq, hinv.settlements_eq]
    · exact fun post hpost => (List.mem_append.mp hpost).elim (hinv.sizes post) (hsizes post)
  settle rest g g' s chunkIndex r hrest hpos hle hinv hr _ hsent hfailed _ := by
    obtain ⟨P, S, hinv⟩ := hinv
    have hne : rest.take g.chunkSize ≠ [] := by
      rw [Ne, List.take_eq_nil_iff]
      exact fun h => h.elim (by omega) hrest
    have hsub : (rest.take g.chunkSize).Sublist jobs := by
      rw [← hinv.partition]
      exact (List.take_sublist _ _).trans (List.sublist_append_right _ _)
    obtain ⟨tick, hout⟩ := w.attemptOnce_outcome db p chunkIndex s hne (hnodup.sublist (hsub.map _))
    obtain ⟨P', hP', hsizes⟩ := hout.post_sizes ((List.length_take_le _ _).trans hle)
    rw [← hr] at hout
    refine ⟨P ++ P', S ++ [(rest.take g.chunkSize, r)], ?_, ?_, ?_, ?_, ?_, ?_, ?_⟩
    · rw [SyncState.log, posts_append, hP', hinv.posts_eq, List.append_assoc, List.append_assoc]
      simp [posts]
    · rw [SyncState.log, settlements_append, hout.settlements_eq, hinv.settlements_eq,
        List.append_assoc]
      rfl
    · exact fun post hpost => (List.mem_append.mp hpost).elim (hinv.sizes post) (hsizes post)
    · rw [← hinv.partition, List.flatMap_append, List.append_assoc]
      simp
    · intro chunk hchunk
      rcases List.mem_append.mp hchunk with hchunk | hchunk
      · exact hinv.counts chunk hchunk
      · rw [List.mem_singleton] at hchunk
        subst hchunk
        exact ⟨_, hout.sent_eq, hout.failed_eq⟩
    · rw [hsent, hinv.sent]
      simp
    · rw [hfailed, hinv.failed]
      simp

/-- CORRECT: a run ends with a result whatever the backend answers; its posts carry between 1 and
    25 payloads; the settled chunks partition the candidates in their order, and each candidate is
    counted once, so that sent and failed add up to the candidates attempted. -/
theorem syncEligibleJobs_partition (w : BackendSyncWorker) (db : JobTables) (p : SyncParams)
    (s : SyncState) (hmin : 1 ≤ p.minBatchSize) :
    ∃ result s' P S, w.syncEligibleJobs db p s = some (.ok result, s') ∧
      posts s'.journal = posts s.journal ++ P ∧
      settlements s'.journal = settlements s.journal ++ S ∧
      (∀ post ∈ P, 1 ≤ post.1.length ∧ post.1.length ≤ 25) ∧
      S.flatMap Prod.fst = w.listBackendPayloadCandidates db p s.events ∧
      (∀ chunk ∈ S, w.CountsEachJob db chunk) ∧
      result.sent = (S.map fun chunk => chunk.2.sent).sum ∧
      result.failed = (S.map fun chunk => chunk.2.failed).sum ∧
      result.sent + result.failed = result.attempted ∧
      result.attempted = (w.listBackendPayloadCandidates db p s.events).length := by
  have hnodup := w.nodup_candidates db p s.events
  obtain ⟨g, s', hrun, P, S, hinv⟩ := (partitioned_invariant p s hnodup).syncEligibleJobs
    (by omega) s fun g hsent hfailed _ => ⟨[], [], by simp [SyncState.log, posts],
      by simp [SyncState.log, settlements], by simp, rfl, by simp, hsent, hfailed⟩
  have hpart := hinv.partition
  rw [List.append_nil] at hpart
  refine ⟨_, s', P, S, hrun, hinv.posts_eq, hinv.settlements_eq, hinv.sizes, hpart, hinv.counts,
    hinv.sent, hinv.failed, ?_, rfl⟩
  have hadd : ∀ S : List (List NormalizedJob × ChunkSyncResult),
      (∀ chunk ∈ S, w.CountsEachJob db chunk) →
        (S.map fun chunk => chunk.2.sent).sum + (S.map fun chunk => chunk.2.failed).sum
          = (S.flatMap Prod.fst).length := by
    intro S
    induction S with
    | nil => simp
    | cons chunk S ih =>
      intro hcounts
      have hchunk := (hcounts chunk List.mem_cons_self).add_eq
      have hrest := ih fun c hc => hcounts c (List.mem_cons_of_mem chunk hc)
      simp only [List.map_cons, List.sum_cons, List.flatMap_cons, List.length_append]
      omega
  change g.sent + g.failed = (w.listBackendPayloadCandidates db p s.events).length
  rw [hinv.sent, hinv.failed, hadd S hinv.counts, hpart]

end BackendSyncWorker

/-! ### A concrete worker -/

/-- A job whose payload builds unless the company name is a placeholder. -/
def plainJob (id companyName : String) (lastSeenAt : Time) : NormalizedJob where
  id := id
  rawJobId := none
  sourcePlatform := "dealls"
  externalId := id
  title := "Lead"
  companyName := companyName
  sourceUrl := "d.id"
  applyUrl := none
  status := .active
  normalizedPayload := [("description", .str "Go")]
  lastSeenAt := lastSeenAt
  postedAt := none

/-- A 503 that `_post` gave up on. -/
def unavailable : Except BackendSyncError BackendSyncResult :=
  .error (.server ⟨"backend sync retryable failure", some 503, []⟩)

/-- A 202. -/
def accepted : Except BackendSyncError BackendSyncResult := .ok ⟨202, []⟩

/-- A worker over `plainText` and `plainHash` with a given budget and backend. -/
def plainWorker (maxAttempts : ℕ)
    (client : ℕ → List Json → Except BackendSyncError BackendSyncResult) : BackendSyncWorker where
  host := ⟨fun t => t, fun t => toString t, fun _ => 0⟩
  hash := plainHash
  build := dumpedJobPayload plainText
  client := client
  maxAttempts := maxAttempts

/-- Job tables without raw rows. -/
def jobTables (jobs : List NormalizedJob) (h : (jobs.map NormalizedJob.id).Nodup) : JobTables :=
  ⟨Table.empty _, ⟨jobs, h⟩⟩

/-- A session over an empty event table. -/
def SyncState.initial (ticks : ℕ) : SyncState := { events := Table.empty _, ticks }

/-- Two jobs that build. -/
def twoJobs : JobTables := jobTables [plainJob "a" "Ac" 0, plainJob "b" "Ac" 0] (by decide)

/-- A backend that is down for posts of more than one job. -/
def downForMany (_ : ℕ) (jobs : List Json) : Except BackendSyncError BackendSyncResult :=
  if 1 < jobs.length then unavailable else accepted

theorem syncEligibleJobs_partition_twoJobs :
    let w := plainWorker 3 downForMany
    let p : SyncParams := { scrapeRunId := none, limit := 10 }
    ∃ result s' P S, w.syncEligibleJobs twoJobs p (.initial 0) = some (.ok result, s') ∧
      posts s'.journal = [] ++ P ∧ settlements s'.journal = [] ++ S ∧
      (∀ post ∈ P, 1 ≤ post.1.length ∧ post.1.length ≤ 25) ∧
      S.flatMap Prod.fst = w.listBackendPayloadCandidates twoJobs p (Table.empty _) ∧
      (∀ chunk ∈ S, w.CountsEachJob twoJobs chunk) ∧
      result.sent = (S.map fun chunk => chunk.2.sent).sum ∧
      result.failed = (S.map fun chunk => chunk.2.failed).sum ∧
      result.sent + result.failed = result.attempted ∧
      result.attempted = (w.listBackendPayloadCandidates twoJobs p (Table.empty _)).length :=
  (plainWorker 3 downForMany).syncEligibleJobs_partition twoJobs
    { scrapeRunId := none, limit := 10 } (.initial 0) (by decide)

end Bisakerja
