import BisakerjaScraper.Sync.AtMostOnce

/-! What one rejected payload does to the jobs it is posted with.

    A 4xx answer is final for the whole post: every row is recorded with `max_attempts=1`, and the
    chunk is not halved, which only a 404 or a retryable failure leads to. So the verdict on a job
    is the verdict on its block, the `chunk_size` candidates it is posted with, and a job is judged
    on its own payload alone only when the blocks are single jobs. -/

namespace Bisakerja
open Schemes Schemes.Delivery

/-- A backend that takes a post when every payload in it is acceptable and answers `rejection`
    otherwise. -/
structure JudgesPosts (client : BackendSyncClient) (acceptable : Json → Bool) (rejection : ℕ) :
    Prop where
  accepts : ∀ call attempt jobs, jobs.all acceptable = true → ∃ code body,
    200 ≤ code ∧ code < 300 ∧
      client.http call attempt (.dict [("jobs", .list jobs)]) = .response code body
  rejects : ∀ call attempt jobs, jobs.all acceptable = false → ∃ body,
    client.http call attempt (.dict [("jobs", .list jobs)]) = .response rejection body

/-- A 4xx that the client raises as a client error and the worker does not retry. -/
structure FinalRejection (rejection : ℕ) : Prop where
  is4xx : 400 ≤ rejection ∧ rejection < 500
  ne_404 : rejection ≠ 404
  ne_429 : rejection ≠ 429

theorem classifyOutcome_final (path : String) (body : Option Json) {rejection : ℕ}
    (h : FinalRejection rejection) : ∃ info, info.statusCode = some rejection ∧
      classifyOutcome path (.response rejection body) = .error (.client info) := by
  obtain ⟨⟨hlow, hhigh⟩, -, h429⟩ := h
  have hretry : rejection ∉ retryableStatusCodes := by
    simp only [retryableStatusCodes, List.mem_cons, List.not_mem_nil, or_false, not_or]
    omega
  refine ⟨_, ?_, by rw [classifyOutcome, if_neg (by omega), if_neg hretry]⟩
  rfl

/-- The call as a whole judges like the backend. -/
theorem JudgesPosts.syncJobs {client : BackendSyncClient} {acceptable : Json → Bool} {rejection : ℕ}
    (h : JudgesPosts client acceptable rejection) (hfinal : FinalRejection rejection)
    (call : ℕ) (jobs : List Json) :
    (jobs.all acceptable = true → ∃ result, client.syncJobs call jobs = .ok result) ∧
    (jobs.all acceptable = false → ∃ info, info.statusCode = some rejection ∧
      client.syncJobs call jobs = .error (.client info)) := by
  refine ⟨fun hall => ?_, fun hall => ?_⟩
  · obtain ⟨code, body, hlow, hhigh, hhttp⟩ := h.accepts call 0 jobs hall
    have hpost : client.post call 0 (.dict [("jobs", .list jobs)])
        = classifyOutcome client.path (.response code body) := by
      rw [BackendSyncClient.post, hhttp]
    rw [classifyOutcome, if_pos ⟨hlow, hhigh⟩] at hpost
    exact ⟨_, by rw [client.syncJobs_eq_post call jobs (by simp [hpost]), hpost]⟩
  · obtain ⟨body, hhttp⟩ := h.rejects call 0 jobs hall
    obtain ⟨info, hstatus, hclass⟩ :=
      classifyOutcome_final client.path body hfinal
    have hpost : client.post call 0 (.dict [("jobs", .list jobs)]) = .error (.client info) := by
      rw [BackendSyncClient.post, hhttp, hclass]
    exact ⟨info, hstatus, by rw [client.syncJobs_eq_post call jobs (by simp [hpost]), hpost]⟩

/-- The `i`-th block of `n` elements. -/
def block {α : Type} (xs : List α) (n i : ℕ) : List α := (xs.drop (i * n)).take n

theorem block_subset_take {α : Type} {xs : List α} {n i j : ℕ} (h : i < j) {x : α}
    (hx : x ∈ block xs n i) : x ∈ xs.take (j * n) := by
  have hle : i * n + n ≤ j * n := by
    have := Nat.mul_le_mul_right n (Nat.succ_le_of_lt h)
    rwa [Nat.succ_mul] at this
  have hmem : x ∈ xs.take (i * n + n) := by
    rw [List.take_add]
    exact List.mem_append_right _ hx
  exact List.take_subset_take_left xs hle hmem

namespace BackendSyncWorker

variable (w : BackendSyncWorker) (db : JobTables) (acceptable : Json → Bool)

/-- Every payload the jobs are posted with is acceptable. -/
def allAcceptable (jobs : List NormalizedJob) : Bool :=
  (jobs.filterMap (w.rowOf db)).all fun row => acceptable row.2

/-- The status the verdict on a block leaves. -/
def verdict (jobs : List NormalizedJob) : SyncEventStatus :=
  if w.allAcceptable db acceptable jobs then .sent else .deadLetter

variable {w} {db} {acceptable} {client : BackendSyncClient} {rejection : ℕ}

/-- What an attempt on a block does when the backend judges posts. -/
theorem ChunkOutcome.judged {jobs : List NormalizedJob} {s s' : SyncState} {r : ChunkSyncResult}
    {tick : ℕ} (hclient : w.client = client.syncJobs)
    (hjudge : JudgesPosts client acceptable rejection) (hfinal : FinalRejection rejection)
    (hout : w.ChunkOutcome db jobs s (w.client tick ((jobs.filterMap (w.rowOf db)).map Prod.snd)) r
      s') : r.retryableFailure = false ∧ ∀ job ∈ jobs, w.contractValid db job = true →
      ∃ event, s'.events.find? (w.keyOf db job) = some event ∧
        event.status = w.verdict db acceptable jobs := by
  set payloads := (jobs.filterMap (w.rowOf db)).map Prod.snd with hpayloads
  have hall : payloads.all acceptable = w.allAcceptable db acceptable jobs := by
    rw [hpayloads, List.all_map]
    rfl
  obtain ⟨haccept, hreject⟩ := hjudge.syncJobs hfinal tick payloads
  have hmark : ∀ job ∈ jobs, w.contractValid db job = true → ∃ event,
      s'.events.find? (w.keyOf db job) = some event ∧
        event.mark = w.answerMark (w.client tick payloads)
          ((ledger s.events (w.keyOf db job)).getD Mark.fresh) := by
    intro job hjob hvalid
    have h := hout.marks job hjob
    rw [chunkMark, if_pos hvalid] at h
    exact ledger_eq_some.mp h
  cases hverdict : w.allAcceptable db acceptable jobs with
  | true =>
    obtain ⟨result, hanswer⟩ := haccept (hall.trans hverdict)
    rw [← hclient] at hanswer
    refine ⟨by rw [hout.retryable, hanswer]; simp [retryableAnswer], fun job hjob hvalid => ?_⟩
    obtain ⟨event, hfind, hevent⟩ := hmark job hjob hvalid
    refine ⟨event, hfind, ?_⟩
    rw [hanswer] at hevent
    have hstatus := congrArg Mark.status hevent
    simp only [SyncEvent.mark, answerMark, Mark.succeed] at hstatus
    rw [verdict, hverdict, if_pos rfl]
    cases h : event.status <;> simp [SyncEventStatus.delivery, h] at hstatus ⊢
  | false =>
    obtain ⟨info, hcode, hanswer⟩ := hreject (hall.trans hverdict)
    have hne : ¬ info.statusCode = some 404 := by
      rw [hcode, Option.some.injEq]
      exact hfinal.ne_404
    rw [← hclient] at hanswer
    refine ⟨by rw [hout.retryable, hanswer]; simp [retryableAnswer, hne],
      fun job hjob hvalid => ?_⟩
    obtain ⟨event, hfind, hevent⟩ := hmark job hjob hvalid
    refine ⟨event, hfind, ?_⟩
    rw [hanswer] at hevent
    have hstatus := congrArg Mark.status hevent
    simp only [SyncEvent.mark, answerMark, failureMaxAttempts, if_neg hne, Mark.fail] at hstatus
    rw [if_pos (Nat.le_add_left 1 _)] at hstatus
    rw [verdict, hverdict, if_neg (by simp)]
    cases h : event.status <;> simp [SyncEventStatus.delivery, h] at hstatus ⊢

/-- The blocks before the cursor have their verdicts. -/
structure Judged (w : BackendSyncWorker) (db : JobTables) (acceptable : Json → Bool)
    (jobs : List NormalizedJob) (n i : ℕ) (s : SyncState) : Prop where
  verdicts : ∀ i', i' < i → ∀ job ∈ block jobs n i', w.contractValid db job = true →
    ∃ event, s.events.find? (w.keyOf db job) = some event ∧
      event.status = w.verdict db acceptable (block jobs n i')

theorem judged_loop {p : SyncParams} (hclient : w.client = client.syncJobs)
    (hjudge : JudgesPosts client acceptable rejection) (hfinal : FinalRejection rejection)
    {jobs : List NormalizedJob} (hnodup : (jobs.map NormalizedJob.id).Nodup) (n : ℕ) :
    w.LoopInvariant db p fun rest g s => g.chunkSize = n ∧
      ∃ i, rest = jobs.drop (i * n) ∧ w.Judged db acceptable jobs n i s where
  retry rest g g' s chunkIndex hrest hpos _ hinv hretry _ _ _ := by
    obtain ⟨hn, i, rfl, -⟩ := hinv
    have hne : (jobs.drop (i * n)).take g.chunkSize ≠ [] := fun h =>
      (List.take_eq_nil_iff.mp h).elim (by omega) hrest
    obtain ⟨tick, hout⟩ := w.attemptOnce_outcome db p chunkIndex s hne
      (hnodup.sublist (((List.take_sublist _ _).trans (List.drop_sublist _ _)).map _))
    have hfail := (hout.judged hclient hjudge hfinal).1
    simp only [SyncParams.shouldRetry, hfail, Bool.and_false, Bool.false_and] at hretry
    cases hretry
  settle rest g g' s chunkIndex r hrest hpos _ hinv hr _ _ _ hsize := by
    obtain ⟨hn, i, rfl, hjudged⟩ := hinv
    have hne : (jobs.drop (i * n)).take g.chunkSize ≠ [] := fun h =>
      (List.take_eq_nil_iff.mp h).elim (by omega) hrest
    obtain ⟨tick, hout⟩ := w.attemptOnce_outcome db p chunkIndex s hne
      (hnodup.sublist (((List.take_sublist _ _).trans (List.drop_sublist _ _)).map _))
    have hnow := (hout.judged hclient hjudge hfinal).2
    have hdisjoint : ∀ job ∈ jobs.take (i * n), ∀ job' ∈ jobs.drop (i * n), job.id ≠ job'.id := by
      rw [← List.take_append_drop (i * n) jobs, List.map_append, List.nodup_append] at hnodup
      exact fun job hjob job' hjob' => hnodup.2.2 _ (List.mem_map_of_mem hjob) _
        (List.mem_map_of_mem hjob')
    subst hn
    refine ⟨hsize, i + 1, ?_, ⟨fun i' hi' job hjob hvalid => ?_⟩⟩
    · rw [List.drop_drop, Nat.succ_mul]
    · rcases Nat.lt_succ_iff_lt_or_eq.mp hi' with hlt | rfl
      · obtain ⟨event, hfind, hstatus⟩ := hjudged.verdicts i' hlt job hjob hvalid
        have hkey : w.keyOf db job
            ∉ ((jobs.drop (i * g.chunkSize)).take g.chunkSize).map (w.keyOf db) := by
          intro hmem
          obtain ⟨job', hjob', hkey⟩ := List.mem_map.mp hmem
          exact hdisjoint job (block_subset_take hlt hjob) job' (List.mem_of_mem_take hjob')
            (congrArg EventKey.normalizedJobId hkey).symm
        have hframe := hout.frame _ hkey
        have hmark : ledger s.events (w.keyOf db job) = some event.mark :=
          ledger_eq_some.mpr ⟨event, hfind, rfl⟩
        obtain ⟨event', hfind', hmark'⟩ := ledger_eq_some.mp (hframe.trans hmark)
        refine ⟨event', hfind', ?_⟩
        have hstat := congrArg Mark.status hmark'
        rw [← hstatus]
        simp only [SyncEvent.mark] at hstat
        cases h : event.status <;> cases h' : event'.status <;>
          simp [SyncEventStatus.delivery, h, h'] at hstat ⊢
      · exact hnow job hjob hvalid

/-- CORRECT: against a backend that judges posts, with a rejection that is final, a run ends with
    every valid candidate sent or dead-lettered by the verdict on its block of `chunk_size`
    candidates; with single-job blocks that is the verdict on its own payload. -/
theorem verdict_of_block (w : BackendSyncWorker) (db : JobTables) (p : SyncParams) (s : SyncState)
    (client : BackendSyncClient) (acceptable : Json → Bool) (rejection : ℕ)
    (hmin : 1 ≤ p.minBatchSize) (hclient : w.client = client.syncJobs)
    (hjudge : JudgesPosts client acceptable rejection) (hfinal : FinalRejection rejection) :
    ∃ result s', w.syncEligibleJobs db p s = some (.ok result, s') ∧
      (∀ i, ∀ job ∈ block (w.listBackendPayloadCandidates db p s.events) p.chunkSize i,
        w.contractValid db job = true →
        ∃ event, s'.events.find? (w.keyOf db job) = some event ∧
          event.status = w.verdict db acceptable
            (block (w.listBackendPayloadCandidates db p s.events) p.chunkSize i)) ∧
      (p.chunkSize = 1 → ∀ job ∈ w.listBackendPayloadCandidates db p s.events,
        ∀ payload, w.payloadOf db job = .ok payload →
        ∃ event, s'.events.find? (w.keyOf db job) = some event ∧
          event.status = if acceptable payload then .sent else .deadLetter) := by
  set jobs := w.listBackendPayloadCandidates db p s.events with hjobs
  have hloop : w.LoopInvariant db p fun rest g s => g.chunkSize = p.chunkSize ∧
      ∃ i, rest = jobs.drop (i * p.chunkSize) ∧ w.Judged db acceptable jobs p.chunkSize i s :=
    judged_loop hclient hjudge hfinal (w.nodup_candidates db p s.events) p.chunkSize
  obtain ⟨g, s', hrun, -, i, hrest, hjudged⟩ := hloop.syncEligibleJobs (by omega) s
    fun g _ _ hsize => ⟨hsize, 0, by rw [Nat.zero_mul, List.drop_zero],
      ⟨fun i' hi' => absurd hi' (Nat.not_lt_zero i')⟩⟩
  have hpos := p.chunkSize_bounds.1
  have hend : jobs.length ≤ i * p.chunkSize := List.drop_eq_nil_iff.mp hrest.symm
  have hblocks : ∀ i', ∀ job ∈ block jobs p.chunkSize i', w.contractValid db job = true →
      ∃ event, s'.events.find? (w.keyOf db job) = some event ∧
        event.status = w.verdict db acceptable (block jobs p.chunkSize i') := by
    intro i' job hjob
    refine hjudged.verdicts i' ?_ job hjob
    have hne : jobs.drop (i' * p.chunkSize) ≠ [] :=
      List.ne_nil_of_mem (List.mem_of_mem_take hjob)
    have hlt : i' * p.chunkSize < jobs.length := by
      rw [Ne, List.drop_eq_nil_iff] at hne
      omega
    exact lt_of_mul_lt_mul_right (hlt.trans_le hend) (Nat.zero_le _)
  refine ⟨_, s', hrun, hblocks, fun hone job hjob payload hpayload => ?_⟩
  obtain ⟨i', hi', hget⟩ := List.mem_iff_getElem.mp hjob
  have hblock : block jobs p.chunkSize i' = [job] := by
    unfold block
    rw [hone, Nat.mul_one, List.take_one, List.head?_drop, List.getElem?_eq_getElem hi', hget]
    rfl
  have hvalid : w.contractValid db job = true := by simp [contractValid, hpayload]
  have hverdict : w.verdict db acceptable [job]
      = if acceptable payload then .sent else .deadLetter := by
    simp [verdict, allAcceptable, rowOf, hpayload]
  have h := hblocks i' job (by rw [hblock]; exact List.mem_singleton_self _) hvalid
  rw [hblock, hverdict] at h
  exact h

/-- A backend that refuses the payload of job `b` with a 422. -/
def refusesB : BackendSyncClient where
  maxRetries := 0
  http _ _ body := match body.get "jobs" with
    | .list jobs =>
      if jobs.all fun payload => textAt payload "jobListing" "externalJobId" ≠ "b" then
        .response 202 none
      else .response 422 none
    | _ => .response 422 none

theorem judges_refusesB : JudgesPosts refusesB
    (fun payload => textAt payload "jobListing" "externalJobId" ≠ "b") 422 where
  accepts call attempt jobs h := by
    refine ⟨202, none, by decide, by decide, ?_⟩
    change (if (jobs.all fun payload => textAt payload "jobListing" "externalJobId" ≠ "b") = true
      then HttpOutcome.response 202 none else .response 422 none) = _
    rw [if_pos h]
  rejects call attempt jobs h := by
    refine ⟨none, ?_⟩
    change (if (jobs.all fun payload => textAt payload "jobListing" "externalJobId" ≠ "b") = true
      then HttpOutcome.response 202 none else .response 422 none) = _
    rw [if_neg (by simp only [h]; decide)]

theorem verdict_of_block_refusesB :
    let w := plainWorker 3 refusesB.syncJobs
    let p : SyncParams := { scrapeRunId := none, limit := 10, batchSize := some 1 }
    let jobs := w.listBackendPayloadCandidates twoJobs p (Table.empty _)
    let acceptable := fun payload => decide (textAt payload "jobListing" "externalJobId" ≠ "b")
    ∃ result s', w.syncEligibleJobs twoJobs p (.initial 0) = some (.ok result, s') ∧
      (∀ i, ∀ job ∈ block jobs p.chunkSize i, w.contractValid twoJobs job = true →
        ∃ event, s'.events.find? (w.keyOf twoJobs job) = some event ∧
          event.status = w.verdict twoJobs acceptable (block jobs p.chunkSize i)) ∧
      (p.chunkSize = 1 → ∀ job ∈ jobs, ∀ payload, w.payloadOf twoJobs job = .ok payload →
        ∃ event, s'.events.find? (w.keyOf twoJobs job) = some event ∧
          event.status = if acceptable payload then .sent else .deadLetter) :=
  verdict_of_block (plainWorker 3 refusesB.syncJobs) twoJobs
    { scrapeRunId := none, limit := 10, batchSize := some 1 } (.initial 0) refusesB _ 422
    (by decide) rfl judges_refusesB ⟨by decide, by decide, by decide⟩

/-- The status job `a` ends with when `a` and `b` are synced with a given batch size. -/
def statusOfA (batchSize : ℤ) : Option SyncEventStatus :=
  let w := plainWorker 3 refusesB.syncJobs
  let p : SyncParams := { scrapeRunId := none, limit := 10, batchSize := some batchSize }
  let s := w.runHistory [⟨twoJobs, p⟩] (.initial 0)
  (s.events.find? (w.keyOf twoJobs (plainJob "a" "Ac" 0))).map SyncEvent.status

/-- Posted together with `b`, job `a` is dead-lettered; posted on its own, it is sent. -/
theorem neighbour_dead_letters :
    statusOfA 2 = some .deadLetter ∧ statusOfA 1 = some .sent := by
  decide +kernel

end BackendSyncWorker

end Bisakerja
