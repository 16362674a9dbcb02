import BisakerjaScraper.Sync.AtMostOnce

/-! What the result of a sync call says of its run.

    The counters of the two loops are written in passing: an attempt is counted when its post has
    been answered, and once more when it is repeated or settled. The journal of the session keeps
    the attempts, the posts and the settled chunks. So the counters can be held against it: each
    attempt is counted once, under the class of its answer, and each failed one as failed. -/

namespace Bisakerja
open Schemes Schemes.Delivery

/-! ### Percentiles -/

/-- The least of some values that as many per cent of them do not exceed. -/
structure NearestRank (percentile : ℕ) (values : List ℤ) (value : ℤ) : Prop where
  mem : value ∈ values
  enough : percentile * values.length ≤ 100 * values.countP (· ≤ value)
  least : ∀ other ∈ values, other < value →
    100 * values.countP (· ≤ other) < percentile * values.length

section Sorted

variable {ordered : List ℤ} (hsorted : ordered.Pairwise (· ≤ ·))
include hsorted

theorem getElem_le_of_le {i j : ℕ} (hij : i ≤ j) (hj : j < ordered.length) :
    ordered[i] ≤ ordered[j] := by
  rcases hij.eq_or_lt with rfl | hlt
  · exact le_rfl
  · exact List.pairwise_iff_getElem.mp hsorted i j (hlt.trans hj) hj hlt

/-- The values up to a place do not exceed the one there. -/
theorem lt_countP_le_getElem {i : ℕ} (hi : i < ordered.length) :
    i < ordered.countP (· ≤ ordered[i]) := by
  have hfront : (ordered.take (i + 1)).countP (· ≤ ordered[i]) = i + 1 := by
    rw [List.countP_eq_length.mpr fun value hvalue => ?_, List.length_take]
    · omega
    · obtain ⟨j, hj, rfl⟩ := List.mem_take_iff_getElem.mp hvalue
      simpa using getElem_le_of_le hsorted (by omega : j ≤ i) hi
  calc i < (ordered.take (i + 1)).countP (· ≤ ordered[i]) := by omega
    _ ≤ ordered.countP (· ≤ ordered[i]) := (List.take_sublist _ _).countP_le

/-- What lies below the value at a place exceeds only values before it. -/
theorem countP_le_of_lt_getElem {i : ℕ} (hi : i < ordered.length) {other : ℤ}
    (hlt : other < ordered[i]) : ordered.countP (· ≤ other) ≤ i := by
  have hback : (ordered.drop i).countP (· ≤ other) = 0 := by
    refine List.countP_eq_zero.mpr fun value hvalue => ?_
    obtain ⟨j, hj, rfl⟩ := List.mem_drop_iff_getElem.mp hvalue
    have hle := getElem_le_of_le hsorted (Nat.le_add_right i j) (by omega)
    simpa using hlt.trans_le hle
  rw [← List.take_append_drop i ordered, List.countP_append, hback, Nat.add_zero]
  exact List.countP_le_length.trans (List.length_take_le _ _)

end Sorted

theorem percentileNearestRank_eq_some {values : List ℤ} {percentile : ℕ} {value : ℤ}
    (hpos : 1 ≤ percentile) (hle : percentile ≤ 100)
    (h : percentileNearestRank values percentile = some value) :
    NearestRank percentile values value := by
  have hperm := values.perm_insertionSort (· ≤ ·)
  have hsorted : (values.insertionSort (· ≤ ·)).Pairwise (· ≤ ·) := List.pairwise_insertionSort _ _
  have hcount : ∀ bound : ℤ, values.countP (· ≤ bound)
      = (values.insertionSort (· ≤ ·)).countP (· ≤ bound) := fun bound => (hperm.countP_eq _).symm
  have hlen := hperm.length_eq
  unfold percentileNearestRank at h
  dsimp only at h
  generalize values.insertionSort (· ≤ ·) = ordered at *
  obtain ⟨hi, rfl⟩ := List.getElem?_eq_some_iff.mp h
  have hrank := lt_countP_le_getElem hsorted hi
  refine ⟨hperm.mem_iff.mp (List.getElem_mem hi), ?_, fun other hother hlt => ?_⟩
  · rw [hcount, ← hlen]
    have hall : percentile * ordered.length ≤ 100 * ordered.length := Nat.mul_le_mul_right _ hle
    omega
  · rw [hcount, ← hlen]
    have hbelow := countP_le_of_lt_getElem hsorted hi hlt
    have hsome : 1 ≤ percentile * ordered.length := Nat.mul_pos hpos (by omega)
    omega

/-! ### Counting by class -/

/-- `counts.get(key, 0)`. -/
def countOf (counts : List (String × ℕ)) (key : String) : ℕ := (counts.lookup key).getD 0

theorem lookup_cons_of_ne {c other : String} (h : c ≠ other) (n : ℕ) (counts : List (String × ℕ)) :
    ((other, n) :: counts).lookup c = counts.lookup c := by
  rw [List.lookup_cons, beq_false_of_ne h]

theorem lookup_map_bump (key c : String) : ∀ counts : List (String × ℕ),
    (counts.map fun entry => if entry.1 = key then (key, entry.2 + 1) else entry).lookup c
      = (counts.lookup c).map fun n => if c = key then n + 1 else n
  | [] => rfl
  | (other, n) :: counts => by
    have ih := lookup_map_bump key c counts
    rw [List.map_cons]
    by_cases hother : other = key
    · subst hother
      rw [if_pos rfl]
      by_cases hc : c = other
      · subst hc
        simp
      · rw [lookup_cons_of_ne hc, lookup_cons_of_ne hc, ih]
    · rw [if_neg hother]
      by_cases hc : c = other
      · subst hc
        simp [hother]
      · rw [lookup_cons_of_ne hc, lookup_cons_of_ne hc, ih]

/-- A class is counted once more, and no other class is. -/
theorem countOf_bumpCount (counts : List (String × ℕ)) (key c : String) :
    countOf (bumpCount counts key) c = countOf counts c + if c = key then 1 else 0 := by
  unfold bumpCount countOf
  split
  · next hsome =>
    rw [lookup_map_bump]
    by_cases hc : c = key
    · obtain ⟨n, hn⟩ := Option.isSome_iff_exists.mp hsome
      simp [hc, hn]
    · simp [hc]
  · next hnone =>
    rw [Bool.not_eq_true, Option.isSome_eq_false_iff, Option.isNone_iff_eq_none] at hnone
    rw [List.lookup_append]
    by_cases hc : c = key
    · simp [hc, hnone]
    · simp [lookup_cons_of_ne hc, hc]

namespace BackendSyncWorker

/-! ### The journal's side -/

/-- The attempts of a journal. -/
def attempts (journal : List Effect) : ℕ :=
  journal.countP fun
    | .attempted .. => true
    | _ => false

/-- The class an answered post is counted under. -/
def postClass (post : Post) : String :=
  match post.2 with
  | .error (.client _) => "4xx"
  | .error (.server exc) => serverStatusClass exc
  | .ok result => statusClassOf result.statusCode

/-- The report so far against the journal since the session `s₀`: `P` are the posts made and `S` the
    chunks settled. -/
structure Tallied (s₀ : SyncState) (g : Progress) (s : SyncState) (P : List Post)
    (S : List (List NormalizedJob × ChunkSyncResult)) : Prop where
  posts_eq : posts s.journal = posts s₀.journal ++ P
  settlements_eq : settlements s.journal = settlements s₀.journal ++ S
  attempts_eq : attempts s.journal = attempts s₀.journal + g.chunksAttempted
  latencies : g.chunkLatencies.length = g.chunksAttempted
  posted : P.length ≤ g.chunksAttempted
  classes : ∀ c, countOf g.statusClassCounts c = P.countP (postClass · = c)
    + if c = "contract" then g.chunksAttempted - P.length else 0

/-- Between two turns each attempt has been repeated or settled. -/
structure Reported (s₀ : SyncState) (g : Progress) (s : SyncState) (P : List Post)
    (S : List (List NormalizedJob × ChunkSyncResult)) : Prop extends Tallied s₀ g s P S where
  reductions : g.adaptiveBatchReductions + S.length = g.chunksAttempted
  failures : g.chunksFailed = g.adaptiveBatchReductions + S.countP fun chunk => chunk.2.failed ≠ 0

/-! ### One attempt -/

/-- What one turn adds to the journal, and under which class it is counted. -/
structure AttemptTally (s : SyncState) (r : ChunkSyncResult) (s' : SyncState) (made : List Post) :
    Prop where
  posts_eq : posts s'.journal = posts s.journal ++ made
  settlements_eq : settlements s'.journal = settlements s.journal
  attempts_eq : attempts s'.journal = attempts s.journal + 1
  statusClass : made = [] ∧ r.statusClass = "contract" ∨
    ∃ post, made = [post] ∧ r.statusClass = postClass post

theorem attempts_append (j j' : List Effect) : attempts (j ++ j') = attempts j + attempts j' :=
  List.countP_append

variable (w : BackendSyncWorker) (db : JobTables)

theorem attempts_record (s : SyncState) (key : EventKey) (f : SyncEvent → SyncEvent)
    (hf : ∀ event, (f event).key = event.key) (ticks : ℕ) :
    attempts (s.record key f hf ticks).journal = attempts s.journal := by
  unfold SyncState.record
  split
  · exact attempts_append _ _
  · rfl

theorem attempts_prepareJob (runId : Option String) (s : SyncState) (job : NormalizedJob) :
    attempts (w.prepareJob db runId job s).2.journal = attempts s.journal := by
  have hprepare : ∀ payloadHash : Option String,
      attempts (prepareEvent w.host w.hash job runId payloadHash s).2.journal
        = attempts s.journal := by
    intro payloadHash
    unfold prepareEvent
    dsimp only
    split
    · rfl
    · exact attempts_append _ _
  unfold prepareJob
  split
  · exact (attempts_record ..).trans (hprepare none)
  · exact hprepare _

theorem attempts_recordOne (answer : Except BackendSyncError BackendSyncResult) (s : SyncState)
    (key : EventKey) : attempts (w.recordOne answer s key).journal = attempts s.journal := by
  rcases answer with (exc | exc) | result <;> exact attempts_record ..

theorem attempts_preparedState (runId : Option String) (jobs : List NormalizedJob) (s : SyncState) :
    attempts (w.preparedState db runId jobs s).journal = attempts s.journal + 1 := by
  unfold preparedState
  rw [foldl_unchanged (f := fun s : SyncState => attempts s.journal) (w.attempts_prepareJob db runId)]
  exact attempts_append _ _

theorem attempts_postedState (chunkId : String) (rows : List (EventKey × Json)) (s : SyncState) :
    attempts (w.postedState chunkId rows s).journal = attempts s.journal := by
  have hpost : (w.postState chunkId rows s).journal = s.journal :=
    foldl_unchanged (f := SyncState.journal)
      (fun s key => journal_attachChunkMetadata s _ _ _ key) _ _
  unfold postedState
  rw [SyncState.log, attempts_append, hpost]
  rfl

/-- A turn is one attempt, with a post where a payload builds. -/
theorem attemptOnce_tally (p : SyncParams) (chunkIndex : ℕ) {jobs : List NormalizedJob}
    (s : SyncState) (hne : jobs ≠ []) : ∃ made, AttemptTally s
      (w.attemptOnce db p chunkIndex jobs s).1 (w.attemptOnce db p chunkIndex jobs s).2 made := by
  have hout := w.preparedState_outline db p.scrapeRunId jobs s
  have hattempts := w.attempts_preparedState db p.scrapeRunId jobs s
  unfold attemptOnce
  rw [w.syncChunk_eq db _ _ s hne]
  split
  · exact ⟨[], (congrArg Prod.fst hout).trans (List.append_nil _).symm, congrArg Prod.snd hout,
      hattempts, .inl ⟨rfl, rfl⟩⟩
  · generalize w.preparedState db p.scrapeRunId jobs s = s₁ at hout hattempts
    set rows := jobs.filterMap (w.rowOf db)
    set answer := w.chunkAnswer (p.chunkId chunkIndex) rows s₁ with hanswer
    have hposted := w.postedState_outline (p.chunkId chunkIndex) rows s₁
    rw [hout] at hposted
    dsimp only
    rw [recordAnswer_snd]
    have hrecorded := foldl_unchanged (f := SyncState.outline) (w.outline_recordOne answer)
      (rows.map Prod.fst) (w.postedState (p.chunkId chunkIndex) rows s₁)
    rw [hposted] at hrecorded
    refine ⟨[(rows, answer)], congrArg Prod.fst hrecorded, congrArg Prod.snd hrecorded, ?_,
      .inr ⟨_, rfl, ?_⟩⟩
    · rw [foldl_unchanged (f := fun s : SyncState => attempts s.journal) (w.attempts_recordOne answer),
        w.attempts_postedState, hattempts]
    · rcases answer with (exc | exc) | result <;> rfl

variable {w db} {s₀ s s' : SyncState} {g : Progress} {r : ChunkSyncResult} {P made : List Post}
  {S : List (List NormalizedJob × ChunkSyncResult)}

theorem Tallied.addAttempt (h : Tallied s₀ g s P S) (ha : AttemptTally s r s' made) :
    Tallied s₀ (g.addAttempt r) s' (P ++ made) S := by
  have hposted := h.posted
  have hclasses : ∀ c, countOf (g.addAttempt r).statusClassCounts c
      = countOf g.statusClassCounts c + if c = r.statusClass then 1 else 0 :=
    countOf_bumpCount _ _
  refine ⟨?_, ?_, ?_, ?_, ?_, fun c => ?_⟩
  · rw [ha.posts_eq, h.posts_eq, List.append_assoc]
  · rw [ha.settlements_eq, h.settlements_eq]
  · rw [ha.attempts_eq, h.attempts_eq]
    rfl
  · exact (List.length_append ..).trans (congrArg (· + 1) h.latencies)
  · change (P ++ made).length ≤ g.chunksAttempted + 1
    rcases ha.statusClass with ⟨rfl, -⟩ | ⟨post, rfl, -⟩
    · simpa using Nat.le_succ_of_le hposted
    · simpa using hposted
  · rw [hclasses, h.classes]
    change _ = _ + if c = "contract" then g.chunksAttempted + 1 - _ else 0
    rcases ha.statusClass with ⟨rfl, hclass⟩ | ⟨post, rfl, hclass⟩
    · rw [hclass, List.append_nil]
      split <;> omega
    · rw [hclass, List.countP_append, List.countP_singleton, List.length_append,
        List.length_singleton]
      simp only [decide_eq_true_eq, eq_comm (a := postClass post)]
      split <;> split <;> omega

/-- An attempt that is to be repeated. -/
theorem Reported.retried (h : Reported s₀ g s P S) (ha : AttemptTally s r s' made) (size : ℕ) :
    Reported s₀ ((g.addAttempt r).addFailedChunk.reduce size) s' (P ++ made) S where
  toTallied := ⟨(h.addAttempt ha).posts_eq, (h.addAttempt ha).settlements_eq,
    (h.addAttempt ha).attempts_eq, (h.addAttempt ha).latencies, (h.addAttempt ha).posted,
    (h.addAttempt ha).classes⟩
  reductions := by
    have hreductions := h.reductions
    change g.adaptiveBatchReductions + 1 + S.length = g.chunksAttempted + 1
    omega
  failures := by
    have hfailures := h.failures
    change g.chunksFailed + 1 = g.adaptiveBatchReductions + 1 + _
    omega

/-- An attempt that settles its chunk. -/
theorem Reported.settled (h : Reported s₀ g s P S) (ha : AttemptTally s r s' made)
    (chunk : List NormalizedJob) :
    Reported s₀ ((g.addAttempt r).settle r) (s'.log (.settled chunk r)) (P ++ made)
      (S ++ [(chunk, r)]) where
  posts_eq := by
    rw [SyncState.log, posts_append, (h.addAttempt ha).posts_eq]
    exact List.append_nil _
  settlements_eq := by
    rw [SyncState.log, settlements_append, (h.addAttempt ha).settlements_eq, List.append_assoc]
    rfl
  attempts_eq := by
    rw [SyncState.log, attempts_append, (h.addAttempt ha).attempts_eq]
    rfl
  latencies := (h.addAttempt ha).latencies
  posted := (h.addAttempt ha).posted
  classes := (h.addAttempt ha).classes
  reductions := by
    have hreductions := h.reductions
    change g.adaptiveBatchReductions + (S ++ [(chunk, r)]).length = g.chunksAttempted + 1
    rw [List.length_append, List.length_singleton]
    omega
  failures := by
    have hfailures := h.failures
    change (if r.failed ≠ 0 then g.chunksFailed + 1 else g.chunksFailed)
      = g.adaptiveBatchReductions + _
    rw [List.countP_append, List.countP_singleton]
    simp only [decide_eq_true_eq]
    split <;> omega

/-! ### The loops -/

variable {p : SyncParams} (hmin : 0 < p.minBatchSize)
include hmin

theorem Reported.attemptChunk : ∀ {fuel : ℕ} {chunkJobs : List NormalizedJob} {g : Progress}
    {s : SyncState} {P : List Post} {out : List NormalizedJob × Progress × SyncState},
    chunkJobs ≠ [] → 1 ≤ g.chunkSize → Reported s₀ g s P S →
      w.attemptChunk db p fuel chunkJobs g s = some out →
        1 ≤ out.2.1.chunkSize ∧ ∃ P' S', Reported s₀ out.2.1 out.2.2 P' S'
  | 0, _, _, _, _, _, _, _, _, hrun => by cases hrun
  | fuel + 1, chunkJobs, g, s, P, out, hne, hsize, h, hrun => by
    obtain ⟨made, ha⟩ := w.attemptOnce_tally db p (g.chunkIndex + 1) s hne
    simp only [BackendSyncWorker.attemptChunk] at hrun
    split at hrun
    · next hretry =>
      obtain ⟨hone, hlt⟩ := SyncParams.nextSize_bounds hmin hretry
      rw [if_neg hlt.ne] at hrun
      have hpos : 1 ≤ max (p.nextSize chunkJobs) p.minBatchSize.toNat := hone.trans (le_max_left _ _)
      refine Reported.attemptChunk (fun hnil => ?_) hpos (h.retried ha _) hrun
      exact (List.take_eq_nil_iff.mp hnil).elim (by omega) hne
    · cases hrun
      exact ⟨hsize, _, _, h.settled ha chunkJobs⟩

theorem Reported.syncChunks : ∀ {fuel : ℕ} {jobs : List NormalizedJob} {g : Progress}
    {s : SyncState} {P : List Post} {S : List (List NormalizedJob × ChunkSyncResult)}
    {out : Progress × SyncState}, 1 ≤ g.chunkSize → Reported s₀ g s P S →
      w.syncChunks db p fuel jobs g s = some out → ∃ P' S', Reported s₀ out.1 out.2 P' S'
  | _, [], g, s, P, S, out, _, h, hrun => by
    rw [BackendSyncWorker.syncChunks] at hrun
    cases hrun
    exact ⟨P, S, h⟩
  | 0, _ :: _, _, _, _, _, _, _, _, hrun => by cases hrun
  | fuel + 1, job :: jobs, g, s, P, S, out, hsize, h, hrun => by
    rw [BackendSyncWorker.syncChunks] at hrun
    split at hrun
    · cases hrun
    · next chunkJobs g' s' heq =>
      have hne : (job :: jobs).take g.chunkSize ≠ [] := fun hnil =>
        (List.take_eq_nil_iff.mp hnil).elim (by omega) (List.cons_ne_nil _ _)
      obtain ⟨hsize', P', S', h'⟩ := Reported.attemptChunk hmin hne hsize h heq
      exact Reported.syncChunks hsize' h' hrun

/-! ### The report -/

end BackendSyncWorker

/-- A report against what its call did: so many attempts were made, these posts, and these chunks
    were settled. -/
structure BackendSyncWorkerResult.Tells (result : BackendSyncWorkerResult) (attempts : ℕ)
    (made : List BackendSyncWorker.Post) (settled : List (List NormalizedJob × ChunkSyncResult)) :
    Prop where
  chunksAttempted : result.chunksAttempted = attempts
  adaptiveBatchReductions : result.adaptiveBatchReductions + settled.length = attempts
  chunksFailed : result.chunksFailed + settled.countP (fun chunk => chunk.2.failed = 0) = attempts
  statusClassCounts : ∀ c, countOf result.statusClassCounts c
    = made.countP (BackendSyncWorker.postClass · = c)
      + if c = "contract" then attempts - made.length else 0
  latencies : ∃ latencies : List ℤ, latencies.length = attempts ∧
    (∀ value, result.chunkLatencyMsP50 = some value → NearestRank 50 latencies value) ∧
    ∀ value, result.chunkLatencyMsP95 = some value → NearestRank 95 latencies value

namespace BackendSyncWorker

variable {s₀ s : SyncState} {g : Progress} {P : List Post}
  {S : List (List NormalizedJob × ChunkSyncResult)}

theorem Reported.tells (h : Reported s₀ g s P S) (jobs : List NormalizedJob) :
    (resultOf jobs g).Tells g.chunksAttempted P S where
  chunksAttempted := rfl
  adaptiveBatchReductions := h.reductions
  chunksFailed := by
    have hreductions := h.reductions
    have hfailures := h.failures
    have hsplit : S.length = S.countP (fun chunk => chunk.2.failed = 0)
        + S.countP fun chunk => chunk.2.failed ≠ 0 := by
      simpa using List.length_eq_countP_add_countP (l := S) fun chunk => decide (chunk.2.failed = 0)
    change g.chunksFailed + _ = _
    omega
  statusClassCounts := h.classes
  latencies := ⟨g.chunkLatencies, h.latencies,
    fun _ => percentileNearestRank_eq_some (by decide) (by decide),
    fun _ => percentileNearestRank_eq_some (by decide) (by decide)⟩

end BackendSyncWorker

end Bisakerja
