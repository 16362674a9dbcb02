import BisakerjaScraper.Sync.Lifecycle

/-! An acknowledged payload is never posted again.

    A post that is acknowledged ends its attempt, so the cursor passes its jobs before anything
    else is posted; in a later run the event of the payload is found sent, or given up, and the
    job is not listed with that payload. Neither step needs the digest to be injective. -/

namespace Bisakerja
open Schemes Schemes.Delivery

namespace BackendSyncWorker

variable {w : BackendSyncWorker}

/-- A post and the answer it got. -/
abbrev Post := List (EventKey × Json) × Except BackendSyncError BackendSyncResult

/-- The later post has none of the rows the earlier one got acknowledged. -/
def NotRepeated (earlier later : Post) : Prop :=
  acknowledged earlier.2 = true → ∀ row ∈ earlier.1, ∀ row' ∈ later.1, row'.1 ≠ row.1

/-- What acknowledged posts leave behind: terminal events, no repetition, and rows keyed by the
    digest of their payload. -/
structure Delivered (w : BackendSyncWorker) (s : SyncState) : Prop where
  terminal : ∀ post ∈ posts s.journal, acknowledged post.2 = true →
    ∀ row ∈ post.1, ∃ m, ledger s.events row.1 = some m ∧ m.Terminal
  notRepeated : (posts s.journal).Pairwise NotRepeated
  keyed : ∀ post ∈ posts s.journal, ∀ row ∈ post.1,
    row.1 = ⟨"backend", row.1.normalizedJobId, w.hash.digest row.2⟩

/-- The jobs still to come are not acknowledged with the payload they have now. -/
def NotYet (w : BackendSyncWorker) (db : JobTables) (rest : List NormalizedJob) (s : SyncState) :
    Prop :=
  ∀ post ∈ posts s.journal, acknowledged post.2 = true → ∀ row ∈ post.1,
    ∀ job ∈ rest, w.contractValid db job = true → w.keyOf db job ≠ row.1

variable {db : JobTables} {jobs : List NormalizedJob} {s s' : SyncState}
  {answer : Except BackendSyncError BackendSyncResult} {r : ChunkSyncResult}

theorem Delivered.log {e : Effect} (h : w.Delivered s) (he : posts (s.log e).journal = posts s.journal) :
    w.Delivered (s.log e) :=
  ⟨he ▸ h.terminal, he ▸ h.notRepeated, he ▸ h.keyed⟩

/-- A row of a chunk belongs to one of its valid jobs. -/
theorem job_of_row {row : EventKey × Json} (h : row ∈ jobs.filterMap (w.rowOf db)) :
    ∃ job ∈ jobs, w.contractValid db job = true ∧ row.1 = w.keyOf db job ∧
      row.1 = ⟨"backend", row.1.normalizedJobId, w.hash.digest row.2⟩ := by
  obtain ⟨job, hjob, hrow⟩ := List.mem_filterMap.mp h
  cases hp : w.payloadOf db job with
  | error exc => simp [rowOf, hp] at hrow
  | ok payload =>
    have hkey : w.keyOf db job = ⟨"backend", job.id, w.hash.digest payload⟩ := by
      simp only [keyOf, payloadHash, hp]
      exact eventKey_digest w.hash job payload
    simp only [rowOf, hp, Option.some.injEq] at hrow
    subst hrow
    exact ⟨job, hjob, by simp [contractValid, hp], rfl, hkey⟩

/-- An acknowledged answer is not a retryable failure. -/
theorem retryableAnswer_of_acknowledged (h : acknowledged answer = true) :
    retryableAnswer answer = false := by
  cases answer with
  | ok _ => rfl
  | error _ => cases h

/-- An attempt on jobs that are not yet acknowledged keeps what acknowledged posts leave behind. -/
theorem ChunkOutcome.delivered (hout : w.ChunkOutcome db jobs s answer r s')
    (h : w.Delivered s) (hnot : w.NotYet db jobs s) : w.Delivered s' := by
  have hposts := hout.posts_eq
  refine ⟨fun post hpost hack row hrow => ?_, ?_, fun post hpost row hrow => ?_⟩
  · rw [hposts] at hpost
    rcases List.mem_append.mp hpost with hold | hnew
    · -- an old row: its event is outside the chunk, or that of a job whose payload fails to build
      obtain ⟨m, hm, hterm⟩ := h.terminal post hold hack row hrow
      by_cases hmem : row.1 ∈ jobs.map (w.keyOf db)
      · obtain ⟨job, hjob, hkey⟩ := List.mem_map.mp hmem
        have hinvalid : ¬ w.contractValid db job = true := fun hvalid =>
          hnot post hold hack row hrow job hjob hvalid hkey
        refine ⟨_, by rw [← hkey, hout.marks job hjob]; rfl, ?_⟩
        rw [if_neg hinvalid]
        exact Mark.fail_terminal_of_le (Nat.le_add_left 1 _)
      · exact ⟨m, by rw [hout.frame _ hmem, hm], hterm⟩
    · split at hnew
      · cases hnew
      · rw [List.mem_singleton] at hnew
        subst hnew
        obtain ⟨job, hjob, hvalid, hkey, -⟩ := job_of_row hrow
        refine ⟨_, by rw [hkey, hout.marks job hjob]; rfl, ?_⟩
        rw [if_pos hvalid]
        cases answer with
        | ok result => exact Mark.succeed_terminal _
        | error exc => cases hack
  · rw [hposts, List.pairwise_append]
    refine ⟨h.notRepeated, ?_, fun post hold post' hnew hack row hrow row' hrow' => ?_⟩
    · split
      · exact List.Pairwise.nil
      · exact List.pairwise_singleton _ _
    · split at hnew
      · cases hnew
      · rw [List.mem_singleton] at hnew
        subst hnew
        obtain ⟨job, hjob, hvalid, hkey, -⟩ := job_of_row hrow'
        rw [hkey]
        exact hnot post hold hack row hrow job hjob hvalid
  · rw [hposts] at hpost
    rcases List.mem_append.mp hpost with hold | hnew
    · exact h.keyed post hold row hrow
    · split at hnew
      · cases hnew
      · rw [List.mem_singleton] at hnew
        subst hnew
        obtain ⟨-, -, -, -, hkey⟩ := job_of_row hrow
        exact hkey

/-- Jobs with other ids stay unacknowledged; so does every job when the post was not. -/
theorem ChunkOutcome.notYet (hout : w.ChunkOutcome db jobs s answer r s')
    {rest : List NormalizedJob} (hnot : w.NotYet db rest s)
    (hnew : acknowledged answer = true → ∀ job ∈ jobs, ∀ job' ∈ rest, job.id ≠ job'.id) :
    w.NotYet db rest s' := by
  intro post hpost hack row hrow job' hjob' hvalid'
  rw [hout.posts_eq] at hpost
  rcases List.mem_append.mp hpost with hold | hpost
  · exact hnot post hold hack row hrow job' hjob' hvalid'
  · split at hpost
    · cases hpost
    · rw [List.mem_singleton] at hpost
      subst hpost
      obtain ⟨job, hjob, -, hkey, -⟩ := job_of_row hrow
      rw [hkey]
      exact fun heq => hnew hack job hjob job' hjob' (congrArg EventKey.normalizedJobId heq).symm

theorem delivered_loop (p : SyncParams) : w.LoopInvariant db p fun rest _ s =>
    (rest.map NormalizedJob.id).Nodup ∧ w.Delivered s ∧ w.NotYet db rest s where
  retry rest g g' s chunkIndex hrest hpos _ hinv hretry _ _ _ := by
    obtain ⟨hnodup, hdel, hnot⟩ := hinv
    have hne : rest.take g.chunkSize ≠ [] := fun h =>
      (List.take_eq_nil_iff.mp h).elim (by omega) hrest
    obtain ⟨tick, hout⟩ := w.attemptOnce_outcome db p chunkIndex s hne
      (hnodup.sublist ((List.take_sublist _ _).map _))
    refine ⟨hnodup, hout.delivered hdel fun post hpost hack row hrow job hjob =>
      hnot post hpost hack row hrow job (List.mem_of_mem_take hjob), hout.notYet hnot fun hack => ?_⟩
    -- a retried post was not acknowledged
    simp only [SyncParams.shouldRetry, Bool.and_eq_true] at hretry
    have hfail := hretry.1.1.2
    rw [hout.retryable, retryableAnswer_of_acknowledged hack, Bool.and_false] at hfail
    cases hfail
  settle rest g g' s chunkIndex r hrest hpos _ hinv _ _ _ _ _ := by
    obtain ⟨hnodup, hdel, hnot⟩ := hinv
    have hne : rest.take g.chunkSize ≠ [] := fun h =>
      (List.take_eq_nil_iff.mp h).elim (by omega) hrest
    obtain ⟨tick, hout⟩ := w.attemptOnce_outcome db p chunkIndex s hne
      (hnodup.sublist ((List.take_sublist _ _).map _))
    have hdel' := hout.delivered hdel fun post hpost hack row hrow job hjob =>
      hnot post hpost hack row hrow job (List.mem_of_mem_take hjob)
    have hlog : ∀ s' : SyncState, posts (s'.log (.settled (rest.take g.chunkSize) r)).journal
        = posts s'.journal := fun s' => by simp [SyncState.log, posts]
    refine ⟨hnodup.sublist ((List.drop_sublist _ _).map _), hdel'.log (hlog _), ?_⟩
    have hdisjoint : ∀ job ∈ rest.take g.chunkSize, ∀ job' ∈ rest.drop g.chunkSize,
        job.id ≠ job'.id := by
      rw [← List.take_append_drop g.chunkSize rest, List.map_append, List.nodup_append] at hnodup
      exact fun job hjob job' hjob' => hnodup.2.2 _ (List.mem_map_of_mem hjob) _
        (List.mem_map_of_mem hjob')
    have hnotDrop : w.NotYet db (rest.drop g.chunkSize) s := fun post hpost hack row hrow job hjob =>
      hnot post hpost hack row hrow job (List.mem_of_mem_drop hjob)
    have hnot' := hout.notYet hnotDrop fun _ => hdisjoint
    unfold NotYet
    rw [hlog]
    exact hnot'

/-- A listed job's payload has not been acknowledged: its event would be terminal. -/
theorem notYet_candidates {p : SyncParams} (h : w.Delivered s) :
    w.NotYet db (w.listBackendPayloadCandidates db p s.events) s := by
  intro post hpost hack row hrow job hjob hvalid hkey
  obtain ⟨m, hm, hterm⟩ := h.terminal post hpost hack row hrow
  have hdue := due_of_candidate hjob hvalid
  rw [hkey] at hdue
  exact Mark.not_terminal_of_retryable (hdue m hm) hterm

theorem delivered_runOnce (run : SyncRun) (h : w.Delivered s) : w.Delivered (w.runOnce s run) := by
  set candidates := w.listBackendPayloadCandidates run.db run.params s.events with hcandidates
  have hposts : posts (s.log (.listed candidates)).journal = posts s.journal := by
    simp [SyncState.log, posts]
  have hstart := h.log hposts
  have hnot : w.NotYet run.db candidates (s.log (.listed candidates)) := by
    unfold NotYet
    rw [hposts]
    exact notYet_candidates h
  rcases w.runOnce_cases s run (delivered_loop run.params) fun _ _ _ _ =>
    ⟨w.nodup_candidates run.db run.params s.events, hstart, hnot⟩ with heq | ⟨g, hend⟩
  · rw [heq]
    exact hstart
  · exact hend.2.1

theorem delivered_runHistory : ∀ (runs : List SyncRun) (s : SyncState), w.Delivered s →
    w.Delivered (w.runHistory runs s)
  | [], _, h => h
  | run :: runs, s, h => delivered_runHistory runs (w.runOnce s run) (delivered_runOnce run h)

theorem delivered_initial (ticks : ℕ) : w.Delivered (SyncState.initial ticks) :=
  ⟨by simp [SyncState.initial, posts], by simp [SyncState.initial, posts],
    by simp [SyncState.initial, posts]⟩

/-- CORRECT: over any sequence of runs, with any job tables, parameters and answers, a post made
    after an acknowledged one carries no payload of a job with a digest that the job got
    acknowledged there. -/
theorem acknowledged_never_posted_again (w : BackendSyncWorker) (runs : List SyncRun) (ticks : ℕ) :
    (posts (w.runHistory runs (.initial ticks)).journal).Pairwise fun earlier later =>
      acknowledged earlier.2 = true → ∀ row ∈ earlier.1, ∀ row' ∈ later.1,
        row'.1.normalizedJobId = row.1.normalizedJobId →
          w.hash.digest row'.2 ≠ w.hash.digest row.2 := by
  have h := delivered_runHistory runs _ (delivered_initial (w := w) ticks)
  refine h.notRepeated.imp_of_mem fun {earlier later} hearlier hlater hnot hack row hrow row' hrow'
    hid hdigest => hnot hack row hrow row' hrow' ?_
  rw [h.keyed earlier hearlier row hrow, h.keyed later hlater row' hrow', hid, hdigest]

end BackendSyncWorker

end Bisakerja
