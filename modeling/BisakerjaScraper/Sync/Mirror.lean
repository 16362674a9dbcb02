import BisakerjaScraper.Sync.Listing
import BisakerjaScraper.Sync.Rescrape

/-! What the backend holds of a job.

    The backend keeps the payload it accepted last. A worker posts a payload once and never again,
    also when the job has had another payload since; so a backend that accepts everything accepts
    each payload of a job when it is offered first, and holds the last of them that was new. -/

namespace Bisakerja
open Schemes Schemes.Delivery

namespace BackendSyncWorker

/-! ### The backend's side -/

/-- The payloads of a job among some posts. -/
def payloadsOf (id : String) (made : List Post) : List Json :=
  made.flatMap fun post => (post.1.filter fun row => row.1.normalizedJobId = id).map Prod.snd

/-- The payloads of a job that the backend has accepted, in order. -/
def acceptedPayloads (id : String) (journal : List Effect) : List Json :=
  payloadsOf id ((posts journal).filter fun post => acknowledged post.2)

/-- What the backend holds of a job. -/
def backendCopy (id : String) (journal : List Effect) : Option Json :=
  (acceptedPayloads id journal).getLast?

/-! ### The worker's side -/

variable (w : BackendSyncWorker) (id : String)

/-- The row of a job, if a call lists it. -/
def listedJob (run : SyncRun) : Option NormalizedJob :=
  (eligible run.db run.params).find? fun job => job.id = id

/-- The payload a call has for a job. -/
def offered (run : SyncRun) : Option Json :=
  (listedJob id run).bind fun job => (w.payloadOf run.db job).toOption

/-- The call has room for all it lists. -/
structure Ample (run : SyncRun) : Prop where
  minBatchSize : 0 < run.params.minBatchSize
  limit : 1 ≤ run.params.limit
  room : (eligible run.db run.params).length ≤ run.params.limit.toNat

/-- The backend accepts every post. -/
def Accepts : Prop := ∀ tick jobs, acknowledged (w.client tick jobs) = true

/-- Whenever the call lists the job, its payload builds. -/
def Builds (run : SyncRun) : Prop :=
  ∀ job ∈ eligible run.db run.params, job.id = id → w.contractValid run.db job = true

/-- The payloads offered so far: each accepted when it was new, and its event sent. -/
structure Mirrored (offers : List Json) (s : SyncState) : Prop where
  accepted : acceptedPayloads id s.journal
    = firstsFrom w.hash.digest (fun _ => false) [] offers
  sent : ∀ payload ∈ offers, ∃ m, ledger s.events ⟨"backend", id, w.hash.digest payload⟩ = some m ∧
    m.status = .sent
  missing : ∀ digest, digest ∉ offers.map w.hash.digest →
    ledger s.events ⟨"backend", id, digest⟩ = none

/-- The job's payload has been accepted since a session, and only its event has changed. -/
structure Posted (payload : Json) (s₀ s : SyncState) : Prop where
  accepted : acceptedPayloads id s.journal = acceptedPayloads id s₀.journal ++ [payload]
  sent : ∃ m, ledger s.events ⟨"backend", id, w.hash.digest payload⟩ = some m ∧ m.status = .sent
  other : ∀ digest, digest ≠ w.hash.digest payload →
    ledger s.events ⟨"backend", id, digest⟩ = ledger s₀.events ⟨"backend", id, digest⟩

/-! ### One attempt -/

theorem payloadsOf_append (id : String) (made more : List Post) :
    payloadsOf id (made ++ more) = payloadsOf id made ++ payloadsOf id more :=
  List.flatMap_append

theorem payloadsOf_eq_nil {id : String} {made : List Post}
    (h : ∀ post ∈ made, ∀ row ∈ post.1, row.1.normalizedJobId ≠ id) : payloadsOf id made = [] := by
  refine List.flatMap_eq_nil_iff.mpr fun post hpost => ?_
  rw [List.map_eq_nil_iff, List.filter_eq_nil_iff]
  simpa using h post hpost

variable {w id} {db : JobTables} {jobs rest : List NormalizedJob} {s₀ s s' : SyncState}
  {answer : Except BackendSyncError BackendSyncResult} {r : ChunkSyncResult} {payload : Json}

theorem Untouched.refl (id : String) (s : SyncState) : Untouched id s s :=
  ⟨fun _ _ => rfl, [], (List.append_nil _).symm, by simp⟩

theorem Untouched.trans {id : String} {s₀ s s' : SyncState} (h : Untouched id s₀ s)
    (h' : Untouched id s s') : Untouched id s₀ s' := by
  obtain ⟨P, hP, hrows⟩ := h.posted
  obtain ⟨P', hP', hrows'⟩ := h'.posted
  refine ⟨fun key hkey => (h'.events key hkey).trans (h.events key hkey), P ++ P', ?_, ?_⟩
  · rw [hP', hP, List.append_assoc]
  · exact fun post hpost => (List.mem_append.mp hpost).elim (hrows post) (hrows' post)

theorem Untouched.accepted (h : Untouched id s₀ s) :
    acceptedPayloads id s.journal = acceptedPayloads id s₀.journal := by
  obtain ⟨P, hposts, hrows⟩ := h.posted
  have hnone : payloadsOf id (P.filter fun post => acknowledged post.2) = [] :=
    payloadsOf_eq_nil fun post hpost => hrows post (List.mem_of_mem_filter hpost)
  unfold acceptedPayloads
  rw [hposts, List.filter_append, payloadsOf_append, hnone, List.append_nil]

/-- The rows of a job in the post of a chunk. -/
theorem filter_rowOf (w : BackendSyncWorker) (db : JobTables) (id : String) :
    ∀ jobs : List NormalizedJob,
      (jobs.filterMap (w.rowOf db)).filter (fun row => row.1.normalizedJobId = id)
        = (jobs.filter fun job => job.id = id).filterMap (w.rowOf db)
  | [] => rfl
  | job :: jobs => by
    have ih := filter_rowOf w db id jobs
    cases hrow : w.rowOf db job with
    | none =>
      rw [List.filterMap_cons_none hrow, ih, List.filter_cons]
      split
      · rw [List.filterMap_cons_none hrow]
      · rfl
    | some row =>
      have hid : row.1.normalizedJobId = job.id := by
        unfold rowOf at hrow
        split at hrow
        · cases hrow
          exact w.keyOf_normalizedJobId db job
        · cases hrow
      rw [List.filterMap_cons_some hrow, List.filter_cons, List.filter_cons, ih, hid]
      split
      · rw [List.filterMap_cons_some hrow]
      · rfl

/-- Ids that differ belong to one job each. -/
theorem filter_id_eq {job : NormalizedJob} (hjob : job ∈ jobs)
    (hnodup : (jobs.map NormalizedJob.id).Nodup) :
    jobs.filter (fun other => other.id = job.id) = [job] := by
  obtain ⟨front, back, rfl⟩ := List.append_of_mem hjob
  rw [List.map_append, List.map_cons, List.nodup_append, List.nodup_cons] at hnodup
  obtain ⟨-, ⟨hback, -⟩, hfront⟩ := hnodup
  have hnone : ∀ (others : List NormalizedJob), (∀ other ∈ others, other.id ≠ job.id) →
      others.filter (fun other => other.id = job.id) = [] := by
    intro others hothers
    rw [List.filter_eq_nil_iff]
    simpa using hothers
  rw [List.filter_append, List.filter_cons_of_pos (by simp),
    hnone front fun other hother => hfront _ (List.mem_map_of_mem hother) _ List.mem_cons_self,
    hnone back fun other hother heq => hback (heq ▸ List.mem_map_of_mem hother), List.nil_append]

/-- An accepted chunk delivers the payload of each job it has. -/
theorem ChunkOutcome.posted {job : NormalizedJob} (h : w.ChunkOutcome db jobs s answer r s')
    (hack : acknowledged answer = true) (hjob : job ∈ jobs)
    (hnodup : (jobs.map NormalizedJob.id).Nodup) (hp : w.payloadOf db job = .ok payload) :
    w.Posted job.id payload s s' := by
  have hkey := keyOf_of_ok hp
  have hrow : w.rowOf db job = some (w.keyOf db job, payload) := by simp [rowOf, hp]
  have hvalid : w.contractValid db job = true := by simp [contractValid, hp]
  refine ⟨?_, ?_, fun digest hne => ?_⟩
  · have hmem : (w.keyOf db job, payload) ∈ jobs.filterMap (w.rowOf db) :=
      List.mem_filterMap.mpr ⟨job, hjob, hrow⟩
    have hsome : ¬ (jobs.filterMap (w.rowOf db)).isEmpty = true := fun hempty => by
      rw [List.isEmpty_iff.mp hempty] at hmem
      cases hmem
    have hrows : payloadsOf job.id [(jobs.filterMap (w.rowOf db), answer)] = [payload] := by
      unfold payloadsOf
      rw [List.flatMap_singleton, filter_rowOf, filter_id_eq hjob hnodup,
        List.filterMap_cons_some hrow]
      rfl
    unfold acceptedPayloads
    rw [h.posts_eq, if_neg hsome, List.filter_append, payloadsOf_append,
      List.filter_cons_of_pos (by simpa using hack), List.filter_nil, hrows]
  · rw [← hkey, h.marks job hjob]
    refine ⟨_, rfl, ?_⟩
    rw [if_pos hvalid]
    cases answer with
    | ok result => rfl
    | error exc => cases hack
  · refine h.frame _ fun hmem => ?_
    obtain ⟨job', hjob', heq⟩ := List.mem_map.mp hmem
    have hid : job'.id = job.id := congrArg EventKey.normalizedJobId heq
    rw [List.inj_on_of_nodup_map hnodup hjob' hjob hid, hkey] at heq
    exact hne (congrArg EventKey.payloadHash heq).symm

theorem Posted.after {s₁ : SyncState} (h : w.Posted id payload s₁ s) (h' : Untouched id s₀ s₁) :
    w.Posted id payload s₀ s :=
  ⟨h'.accepted ▸ h.accepted, h.sent, fun digest hne => (h.other digest hne).trans (h'.events _ rfl)⟩

theorem Posted.before {s₁ : SyncState} (h : w.Posted id payload s₀ s₁) (h' : Untouched id s₁ s) :
    w.Posted id payload s₀ s := by
  refine ⟨h'.accepted.trans h.accepted, ?_, fun digest hne =>
    (h'.events _ rfl).trans (h.other digest hne)⟩
  rw [h'.events _ rfl]
  exact h.sent

theorem untouched_settled (id : String) (chunk : List NormalizedJob) (s : SyncState) :
    Untouched id s (s.log (.settled chunk r)) :=
  ⟨fun _ _ => rfl, [], by simp [SyncState.log, posts], by simp⟩

theorem untouched_listed (id : String) (candidates : List NormalizedJob) (s : SyncState) :
    Untouched id s (s.log (.listed candidates)) :=
  ⟨fun _ _ => rfl, [], by simp [SyncState.log, posts], by simp⟩

/-! ### A call -/

/-- With every post accepted, the job waits in the rest until its payload is delivered. -/
theorem posted_loop (p : SyncParams) (haccepts : w.Accepts) {job : NormalizedJob}
    (hp : w.payloadOf db job = .ok payload) (s₀ : SyncState) :
    w.LoopInvariant db p fun rest _ s => (rest.map NormalizedJob.id).Nodup ∧
      (job ∈ rest ∧ Untouched job.id s₀ s ∨
        (∀ other ∈ rest, other.id ≠ job.id) ∧ w.Posted job.id payload s₀ s) where
  retry rest g g' s chunkIndex hrest hpos _ hinv hretry _ _ _ := by
    have hne : rest.take g.chunkSize ≠ [] := fun h =>
      (List.take_eq_nil_iff.mp h).elim (by omega) hrest
    obtain ⟨tick, hout⟩ := w.attemptOnce_outcome db p chunkIndex s hne
      (hinv.1.sublist ((List.take_sublist _ _).map _))
    -- an accepted post is not retried
    simp only [SyncParams.shouldRetry, Bool.and_eq_true] at hretry
    have hfail := hretry.1.1.2
    rw [hout.retryable, retryableAnswer_of_acknowledged (haccepts _ _), Bool.and_false] at hfail
    cases hfail
  settle rest g g' s chunkIndex r hrest hpos _ hinv _ _ _ _ _ := by
    obtain ⟨hnodup, hjob⟩ := hinv
    have hne : rest.take g.chunkSize ≠ [] := fun h =>
      (List.take_eq_nil_iff.mp h).elim (by omega) hrest
    have hchunk := hnodup.sublist ((List.take_sublist g.chunkSize rest).map _)
    obtain ⟨tick, hout⟩ := w.attemptOnce_outcome db p chunkIndex s hne hchunk
    have hsettled := untouched_settled (r := r) job.id (rest.take g.chunkSize)
      (w.attemptOnce db p chunkIndex (rest.take g.chunkSize) s).2
    refine ⟨hnodup.sublist ((List.drop_sublist _ _).map _), ?_⟩
    rcases hjob with ⟨hmem, hsame⟩ | ⟨hgone, hposted⟩
    · by_cases hin : job ∈ rest.take g.chunkSize
      · right
        refine ⟨fun other hother => ?_,
          ((hout.posted (haccepts _ _) hin hchunk hp).after hsame).before hsettled⟩
        rw [← List.take_append_drop g.chunkSize rest, List.map_append, List.nodup_append] at hnodup
        exact (hnodup.2.2 _ (List.mem_map_of_mem hin) _ (List.mem_map_of_mem hother)).symm
      · left
        have hother : ∀ other ∈ rest.take g.chunkSize, other.id ≠ job.id := by
          intro other hother hid
          exact hin (List.inj_on_of_nodup_map hnodup (List.mem_of_mem_take hother) hmem hid ▸ hother)
        have hdrop : job ∈ rest.drop g.chunkSize := by
          rw [← List.take_append_drop g.chunkSize rest] at hmem
          exact (List.mem_append.mp hmem).resolve_left hin
        exact ⟨hdrop, (hout.untouched hother hsame).trans hsettled⟩
    · right
      have hother : ∀ other ∈ rest.take g.chunkSize, other.id ≠ job.id :=
        fun other hother => hgone other (List.mem_of_mem_take hother)
      exact ⟨fun other hother => hgone other (List.mem_of_mem_drop hother),
        (hposted.before (hout.untouched hother (.refl _ _))).before hsettled⟩

/-- A call that lists the job delivers its payload. -/
theorem posted_runOnce {run : SyncRun} (haccepts : w.Accepts) (hmin : 0 < run.params.minBatchSize)
    {job : NormalizedJob} (hp : w.payloadOf run.db job = .ok payload)
    (hjob : job ∈ w.listBackendPayloadCandidates run.db run.params s.events) :
    w.Posted job.id payload s (w.runOnce s run) := by
  obtain ⟨g, s', heq, -, hend⟩ := (posted_loop run.params haccepts hp s).syncEligibleJobs hmin s
    fun g _ _ _ => ⟨w.nodup_candidates run.db run.params s.events,
      .inl ⟨hjob, untouched_listed job.id _ s⟩⟩
  have hrun : w.runOnce s run = s' := by
    unfold runOnce
    rw [heq]
  rw [hrun]
  rcases hend with ⟨hmem, -⟩ | ⟨-, hposted⟩
  · cases hmem
  · exact hposted

theorem mem_eligible_of_candidate {p : SyncParams} {events : SyncEvents} {job : NormalizedJob}
    (h : job ∈ w.listBackendPayloadCandidates db p events) : job ∈ eligible db p :=
  (List.mem_filter.mp ((collectUpTo_sublist (w.isCandidate db events) p.limit _).subset h)).1

theorem Mirrored.of_untouched {offers : List Json} (h : w.Mirrored id offers s)
    (h' : Untouched id s s') : w.Mirrored id offers s' := by
  refine ⟨h'.accepted.trans h.accepted, fun payload hpayload => ?_, fun digest hdigest => ?_⟩
  · rw [h'.events _ rfl]
    exact h.sent payload hpayload
  · rw [h'.events _ rfl]
    exact h.missing digest hdigest

/-- A payload that has been offered before. -/
theorem Mirrored.again {offers : List Json} (h : w.Mirrored id offers s)
    (hseen : w.hash.digest payload ∈ offers.map w.hash.digest) :
    w.Mirrored id (offers ++ [payload]) s := by
  refine ⟨?_, fun other hother => ?_, fun digest hdigest => h.missing digest fun hmem => ?_⟩
  · rw [firstsFrom_concat, if_pos hseen, List.append_nil]
    exact h.accepted
  · rcases List.mem_append.mp hother with hother | hother
    · exact h.sent other hother
    · obtain ⟨same, hsame, heq⟩ := List.mem_map.mp hseen
      rw [List.mem_singleton.mp hother, ← heq]
      exact h.sent same hsame
  · rw [List.map_append] at hdigest
    exact hdigest (List.mem_append_left _ hmem)

/-- A new payload, delivered. -/
theorem Mirrored.posted {offers : List Json} (h : w.Mirrored id offers s)
    (hnew : w.hash.digest payload ∉ offers.map w.hash.digest) (h' : w.Posted id payload s s') :
    w.Mirrored id (offers ++ [payload]) s' := by
  refine ⟨?_, fun other hother => ?_, fun digest hdigest => ?_⟩
  · rw [firstsFrom_concat, if_neg hnew, h'.accepted, h.accepted]
  · rcases List.mem_append.mp hother with hother | hother
    · have hne : w.hash.digest other ≠ w.hash.digest payload :=
        fun heq => hnew (heq ▸ List.mem_map_of_mem hother)
      rw [h'.other _ hne]
      exact h.sent other hother
    · rw [List.mem_singleton.mp hother]
      exact h'.sent
  · rw [List.map_append, List.mem_append, not_or] at hdigest
    rw [h'.other _ fun heq => hdigest.2 (by simp [heq])]
    exact h.missing digest hdigest.1

/-- A call offers the job's payload; the backend gets it if it is new. -/
theorem Mirrored.runOnce {run : SyncRun} {offers : List Json} (h : w.Mirrored id offers s)
    (haccepts : w.Accepts) (hample : Ample run) (hbuilds : w.Builds id run) :
    w.Mirrored id (offers ++ (w.offered id run).toList) (w.runOnce s run) := by
  unfold offered
  cases hlisted : listedJob id run with
  | none =>
    have hother : ∀ job ∈ eligible run.db run.params, job.id ≠ id := by
      simpa [listedJob] using hlisted
    rw [Option.bind_none, Option.toList_none, List.append_nil]
    exact h.of_untouched (untouched_runOnce fun job hjob => hother job (mem_eligible_of_candidate hjob))
  | some job =>
    have hmem : job ∈ eligible run.db run.params := List.mem_of_find?_eq_some hlisted
    obtain rfl : job.id = id := by simpa using List.find?_some hlisted
    have hvalid := hbuilds job hmem rfl
    cases hp : w.payloadOf run.db job with
    | error exc => simp [contractValid, hp] at hvalid
    | ok payload =>
      rw [Option.bind_some, hp]
      change w.Mirrored job.id (offers ++ [payload]) _
      have hkey := keyOf_of_ok hp
      by_cases hseen : w.hash.digest payload ∈ offers.map w.hash.digest
      · obtain ⟨same, hsame, heq⟩ := List.mem_map.mp hseen
        obtain ⟨m, hm, hsent⟩ := h.sent same hsame
        rw [heq, ← hkey] at hm
        obtain ⟨event, hfind, rfl⟩ := ledger_eq_some.mp hm
        have hrow : job ∈ run.db.normalizedJobs.rows := (mem_listEligibleJobs.mp hmem).1
        exact (h.of_untouched (untouched_runOnce (not_candidate_of_terminal hrow hvalid hfind
          (SyncEvent.terminal_mark.mp (.inl hsent))))).again hseen
      · have hmissing := h.missing _ hseen
        rw [← hkey] at hmissing
        have hdue : w.isDue run.db s.events job = true := by
          unfold ledger at hmissing
          rw [Option.map_eq_none_iff] at hmissing
          simp [isDue, hmissing]
        have hcandidate : job ∈ w.listBackendPayloadCandidates run.db run.params s.events := by
          rw [candidates_eq hample.limit, List.take_of_length_le
            ((List.length_filter_le _ _).trans hample.room), List.mem_filter, isCandidate_eq, hdue,
            Bool.or_true]
          exact ⟨hmem, rfl⟩
        exact h.posted hseen (posted_runOnce haccepts hample.minBatchSize hp hcandidate)

/-! ### Any sequence of calls -/

theorem mirrored_initial (w : BackendSyncWorker) (id : String) (ticks : ℕ) :
    w.Mirrored id [] (.initial ticks) :=
  ⟨rfl, by simp, fun _ _ => rfl⟩

theorem Mirrored.runHistory (haccepts : w.Accepts) : ∀ {runs : List SyncRun} {offers : List Json}
    {s : SyncState}, w.Mirrored id offers s → (∀ run ∈ runs, Ample run ∧ w.Builds id run) →
      w.Mirrored id (offers ++ runs.filterMap (w.offered id)) (w.runHistory runs s)
  | [], offers, s, h, _ => by
    rw [List.filterMap_nil, List.append_nil]
    exact h
  | run :: runs, offers, s, h, hruns => by
    obtain ⟨hample, hbuilds⟩ := hruns run List.mem_cons_self
    have hnext := Mirrored.runHistory haccepts (h.runOnce haccepts hample hbuilds)
      fun run' hrun' => hruns run' (List.mem_cons_of_mem run hrun')
    have hcons : (run :: runs).filterMap (w.offered id)
        = (w.offered id run).toList ++ runs.filterMap (w.offered id) := by
      cases hoffered : w.offered id run <;> simp [hoffered]
    rw [List.append_assoc, ← hcons] at hnext
    exact hnext

/-- Over any sequence of calls that have room for all they list, with a backend that accepts every
    post and a job that builds whenever it is listed, the backend accepts each payload of the job
    when it is offered first, and no other time. So it holds the payload of an offer exactly when
    every offer since the first of that payload was one of it again, or of one that came before. -/
theorem backend_mirrors (w : BackendSyncWorker) {id : String} {runs : List SyncRun} (ticks : ℕ)
    (haccepts : w.Accepts) (hruns : ∀ run ∈ runs, Ample run ∧ w.Builds id run) :
    let journal := (w.runHistory runs (.initial ticks)).journal
    let offers := runs.filterMap (w.offered id)
    let digest := w.hash.digest
    acceptedPayloads id journal = firstsFrom digest (fun _ => false) [] offers ∧
      ∀ payload ∈ offers, (backendCopy id journal).map digest = some (digest payload) ↔
        ∀ later ∈ offers.dropWhile (digest · ≠ digest payload), digest later = digest payload ∨
          digest later ∈ (offers.takeWhile (digest · ≠ digest payload)).map digest := by
  have h := (w.mirrored_initial id ticks).runHistory haccepts hruns
  rw [List.nil_append] at h
  refine ⟨h.accepted, fun payload hpayload => ?_⟩
  unfold backendCopy
  rw [h.accepted]
  exact getLast?_firstsFrom_iff hpayload

end BackendSyncWorker

/-! ### A payload that comes back -/

theorem nodup_plainRaw (runId : String) : ([plainRaw runId].map RawJob.id).Nodup :=
  List.nodup_singleton _

theorem nodup_scrapedJob : ([scrapedJob].map NormalizedJob.id).Nodup := List.nodup_singleton _

/-- The tables with job `a` from a scrape. -/
def scrapedUnder (runId : String) : JobTables :=
  ⟨⟨[plainRaw runId], nodup_plainRaw runId⟩, ⟨[scrapedJob], nodup_scrapedJob⟩⟩

/-- A sync of what a scrape left. -/
def syncOf (runId : String) : BackendSyncWorker.SyncRun :=
  ⟨scrapedUnder runId, { scrapeRunId := none, limit := 10 }⟩

/-- A sync after the scrape of day one, after that of day two, and after day one's run again. -/
def revisitedDay : List BackendSyncWorker.SyncRun :=
  [syncOf "1-scrape", syncOf "2-scrape", syncOf "1-scrape"]

namespace BackendSyncWorker

theorem ample_syncOf (runId : String) : Ample (syncOf runId) := by
  have hlisted : eligible (scrapedUnder runId) (syncOf runId).params = [scrapedJob] := rfl
  refine ⟨Int.one_pos, (by decide : (1 : ℤ) ≤ 10), ?_⟩
  change (eligible (scrapedUnder runId) (syncOf runId).params).length ≤ 10
  rw [hlisted]
  decide

theorem builds_syncOf {runId : String}
    (h : acceptingWorker.contractValid (scrapedUnder runId) scrapedJob = true) :
    acceptingWorker.Builds "a" (syncOf runId) := by
  have hlisted : eligible (scrapedUnder runId) (syncOf runId).params = [scrapedJob] := rfl
  intro job hjob _
  change job ∈ eligible (scrapedUnder runId) (syncOf runId).params at hjob
  rw [hlisted, List.mem_singleton] at hjob
  rw [hjob]
  exact h

theorem backend_mirrors_revisitedDay :
    let journal := (acceptingWorker.runHistory revisitedDay (.initial 0)).journal
    let offers := revisitedDay.filterMap (acceptingWorker.offered "a")
    let digest := acceptingWorker.hash.digest
    acceptedPayloads "a" journal = firstsFrom digest (fun _ => false) [] offers ∧
      ∀ payload ∈ offers, (backendCopy "a" journal).map digest = some (digest payload) ↔
        ∀ later ∈ offers.dropWhile (digest · ≠ digest payload), digest later = digest payload ∨
          digest later ∈ (offers.takeWhile (digest · ≠ digest payload)).map digest := by
  have hfirst : acceptingWorker.contractValid (scrapedUnder "1-scrape") scrapedJob = true := by
    decide +kernel
  have hsecond : acceptingWorker.contractValid (scrapedUnder "2-scrape") scrapedJob = true := by
    decide +kernel
  refine backend_mirrors acceptingWorker 0 (fun _ _ => rfl) fun run hrun => ?_
  simp only [revisitedDay, List.mem_cons, List.not_mem_nil, or_false] at hrun
  rcases hrun with rfl | rfl | rfl
  · exact ⟨ample_syncOf _, builds_syncOf hfirst⟩
  · exact ⟨ample_syncOf _, builds_syncOf hsecond⟩
  · exact ⟨ample_syncOf _, builds_syncOf hfirst⟩

/-- The payload of day one comes back and is not posted; the backend keeps that of day two. -/
example : (backendCopy "a" (acceptingWorker.runHistory revisitedDay (.initial 0)).journal).map
    acceptingWorker.hash.digest = some "sha256:a@2-scrape" := by
  decide +kernel

end BackendSyncWorker

end Bisakerja
