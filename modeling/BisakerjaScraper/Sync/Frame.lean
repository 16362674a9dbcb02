import BisakerjaScraper.Sync.AtMostOnce

/-! What a sync run leaves alone.

    A run touches the events of its candidates and posts payloads of its candidates. Every other
    job has the same marks under all of its keys after the run, and is in none of its posts.

    Preparing an event stamps it with the run; nothing else a run does touches the stamp. So after a
    run an event belongs to that run, or to the run it belonged to before. -/

namespace Bisakerja
open Schemes Schemes.Delivery

namespace BackendSyncWorker

variable {w : BackendSyncWorker} {db : JobTables}

/-- Since the session `s₀`, nothing has happened to the events of the job `id`, and no payload of
    it has been posted. -/
structure Untouched (id : String) (s₀ s : SyncState) : Prop where
  events : ∀ key, key.normalizedJobId = id → ledger s.events key = ledger s₀.events key
  posted : ∃ P, posts s.journal = posts s₀.journal ++ P ∧
    ∀ post ∈ P, ∀ row ∈ post.1, row.1.normalizedJobId ≠ id

theorem ChunkOutcome.untouched {jobs : List NormalizedJob} {s₀ s s' : SyncState}
    {answer : Except BackendSyncError BackendSyncResult} {r : ChunkSyncResult} {id : String}
    (hout : w.ChunkOutcome db jobs s answer r s') (hid : ∀ job ∈ jobs, job.id ≠ id)
    (h : Untouched id s₀ s) : Untouched id s₀ s' := by
  obtain ⟨P, hposts, hrows⟩ := h.posted
  refine ⟨fun key hkey => ?_, P ++ _, by rw [hout.posts_eq, hposts, List.append_assoc],
    fun post hpost row hrow => ?_⟩
  · rw [hout.frame key, h.events key hkey]
    intro hmem
    obtain ⟨job, hjob, rfl⟩ := List.mem_map.mp hmem
    exact hid job hjob hkey
  · rcases List.mem_append.mp hpost with hpost | hpost
    · exact hrows post hpost row hrow
    · split at hpost
      · cases hpost
      · rw [List.mem_singleton] at hpost
        subst hpost
        obtain ⟨job, hjob, -, hkey, -⟩ := job_of_row hrow
        rw [hkey]
        exact hid job hjob

theorem untouched_loop (p : SyncParams) (id : String) (s₀ : SyncState) :
    w.LoopInvariant db p fun rest _ s => (rest.map NormalizedJob.id).Nodup ∧
      (∀ job ∈ rest, job.id ≠ id) ∧ Untouched id s₀ s where
  retry rest g g' s chunkIndex hrest hpos _ hinv _ _ _ _ := by
    obtain ⟨hnodup, hid, hsame⟩ := hinv
    have hne : rest.take g.chunkSize ≠ [] := fun h =>
      (List.take_eq_nil_iff.mp h).elim (by omega) hrest
    obtain ⟨tick, hout⟩ := w.attemptOnce_outcome db p chunkIndex s hne
      (hnodup.sublist ((List.take_sublist _ _).map _))
    exact ⟨hnodup, hid, hout.untouched (fun job hjob => hid job (List.mem_of_mem_take hjob)) hsame⟩
  settle rest g g' s chunkIndex r hrest hpos _ hinv _ _ _ _ _ := by
    obtain ⟨hnodup, hid, hsame⟩ := hinv
    have hne : rest.take g.chunkSize ≠ [] := fun h =>
      (List.take_eq_nil_iff.mp h).elim (by omega) hrest
    obtain ⟨tick, hout⟩ := w.attemptOnce_outcome db p chunkIndex s hne
      (hnodup.sublist ((List.take_sublist _ _).map _))
    have hafter := hout.untouched (fun job hjob => hid job (List.mem_of_mem_take hjob)) hsame
    obtain ⟨P, hposts, hrows⟩ := hafter.posted
    refine ⟨hnodup.sublist ((List.drop_sublist _ _).map _),
      fun job hjob => hid job (List.mem_of_mem_drop hjob), hafter.events, P, ?_, hrows⟩
    rw [← hposts]
    simp [SyncState.log, posts]

/-- A run leaves a job that is not among its candidates untouched. -/
theorem untouched_runOnce {run : SyncRun} {s : SyncState} {id : String}
    (hid : ∀ job ∈ w.listBackendPayloadCandidates run.db run.params s.events, job.id ≠ id) :
    Untouched id s (w.runOnce s run) := by
  have hlisted : Untouched id s
      (s.log (.listed (w.listBackendPayloadCandidates run.db run.params s.events))) :=
    ⟨fun _ _ => rfl, [], by simp [SyncState.log, posts], by simp⟩
  rcases w.runOnce_cases s run (untouched_loop run.params id s) fun _ _ _ _ =>
    ⟨w.nodup_candidates run.db run.params s.events, hid, hlisted⟩ with heq | ⟨g, hend⟩
  · rw [heq]
    exact hlisted
  · exact hend.2.2

/-- A job whose event is sent or dead-lettered is not listed. -/
theorem not_candidate_of_terminal {p : SyncParams} {events : SyncEvents} {job : NormalizedJob}
    (hjob : job ∈ db.normalizedJobs.rows) (hvalid : w.contractValid db job = true)
    {event : SyncEvent} (hfind : events.find? (w.keyOf db job) = some event)
    (hterm : event.status = .sent ∨ event.status = .deadLetter) :
    ∀ job' ∈ w.listBackendPayloadCandidates db p events, job'.id ≠ job.id := by
  intro job' hjob' hid
  have hmem := (collectUpTo_sublist (w.isCandidate db events) p.limit _).subset hjob'
  have hrow := (mem_listEligibleJobs.mp (List.mem_filter.mp hmem).1).1
  have heq := List.inj_on_of_nodup_map db.normalizedJobs.unique hrow hjob hid
  subst heq
  have hdue := due_of_candidate hjob' hvalid
  exact Mark.not_terminal_of_retryable (hdue _ (ledger_eq_some.mpr ⟨event, hfind, rfl⟩))
    (SyncEvent.terminal_mark.mpr hterm)

end BackendSyncWorker

/-! ### The run an event belongs to -/

/-- Every event belongs to the run, or to a run that an event belonged to before. -/
structure StampedBy (runId : Option String) (s s' : SyncState) : Prop where
  of_mem : ∀ event ∈ s'.events.rows, event.scrapeRunId = runId ∨
    ∃ old ∈ s.events.rows, old.scrapeRunId = event.scrapeRunId

namespace StampedBy

variable {runId : Option String} {s s' s'' : SyncState}

theorem of_eq (h : s'.events = s.events) : StampedBy runId s s' := by
  refine ⟨fun event hevent => ?_⟩
  rw [h] at hevent
  exact .inr ⟨event, hevent, rfl⟩

theorem refl (s : SyncState) : StampedBy runId s s := of_eq rfl

theorem trans (h : StampedBy runId s s') (h' : StampedBy runId s' s'') :
    StampedBy runId s s'' := by
  refine ⟨fun event hevent => ?_⟩
  rcases h'.of_mem event hevent with hrun | ⟨middle, hmiddle, heq⟩
  · exact .inl hrun
  · rcases h.of_mem middle hmiddle with hrun | ⟨old, hold, heq'⟩
    · exact .inl (heq.symm.trans hrun)
    · exact .inr ⟨old, hold, heq'.trans heq⟩

/-- Rewriting a row keeps its stamp, or sets it to the run. -/
theorem modify (key : EventKey) (f : SyncEvent → SyncEvent)
    (hf : ∀ event, (f event).key = event.key) (h : s'.events = s.events.modify key f hf)
    (hstamp : ∀ event, (f event).scrapeRunId = runId ∨ (f event).scrapeRunId = event.scrapeRunId) :
    StampedBy runId s s' := by
  refine ⟨fun event hevent => ?_⟩
  rw [h, Table.mem_modify] at hevent
  obtain ⟨old, hold, heq⟩ := hevent
  split at heq
  · subst heq
    rcases hstamp old with hrun | hsame
    · exact .inl hrun
    · exact .inr ⟨old, hold, hsame.symm⟩
  · subst heq
    exact .inr ⟨old, hold, rfl⟩

end StampedBy

variable {runId : Option String}

theorem stampedBy_prepareEvent (host : Host) (hash : StableHash) (job : NormalizedJob)
    (runId payloadHash : Option String) (s : SyncState) :
    StampedBy runId s (prepareEvent host hash job runId payloadHash s).2 := by
  unfold prepareEvent
  cases hfind : s.events.find? (eventKey hash job payloadHash) with
  | some event =>
    simp only [hfind]
    exact .modify _ _ (SyncEvent.rescope_key runId (host.utcNow s.ticks)) rfl fun event => .inl rfl
  | none =>
    simp only [hfind]
    refine ⟨fun event hevent => ?_⟩
    change event ∈ (s.events.insert (newEvent host s.ticks (eventKey hash job payloadHash) job
      runId)).rows at hevent
    rw [s.events.rows_insert (by rw [newEvent_key]; exact hfind), List.mem_append,
      List.mem_singleton] at hevent
    rcases hevent with hold | rfl
    · exact .inr ⟨event, hold, rfl⟩
    · exact .inl rfl

theorem stampedBy_record (s : SyncState) (key : EventKey) (f : SyncEvent → SyncEvent)
    (hf : ∀ event, (f event).key = event.key) (ticks : ℕ)
    (hstamp : ∀ event, (f event).scrapeRunId = event.scrapeRunId) :
    StampedBy runId s (s.record key f hf ticks) := by
  unfold SyncState.record
  split
  · exact .modify key f hf rfl fun event => .inr (hstamp event)
  · exact .refl s

theorem stampedBy_recordFailure (host : Host) (failure : SyncFailure) (maxAttempts : ℕ)
    (s : SyncState) (key : EventKey) :
    StampedBy runId s (recordFailure host failure maxAttempts s key) :=
  stampedBy_record _ _ _ _ _ fun _ => rfl

namespace BackendSyncWorker

variable {w : BackendSyncWorker} {db : JobTables} {p : SyncParams}

theorem stampedBy_recordOne (w : BackendSyncWorker)
    (answer : Except BackendSyncError BackendSyncResult) (s : SyncState) (key : EventKey) :
    StampedBy runId s (w.recordOne answer s key) := by
  rcases answer with (exc | exc) | result
  · exact stampedBy_recordFailure ..
  · exact stampedBy_recordFailure ..
  · exact stampedBy_record _ _ _ _ _ fun _ => rfl

theorem stampedBy_prepareJob (w : BackendSyncWorker) (db : JobTables) (runId : Option String)
    (s : SyncState) (job : NormalizedJob) : StampedBy runId s (w.prepareJob db runId job s).2 := by
  unfold prepareJob
  split
  · exact (stampedBy_prepareEvent ..).trans (stampedBy_recordFailure ..)
  · exact stampedBy_prepareEvent ..

theorem stampedBy_attemptOnce (w : BackendSyncWorker) (db : JobTables) (p : SyncParams)
    (chunkIndex : ℕ) {jobs : List NormalizedJob} (s : SyncState) (hne : jobs ≠ []) :
    StampedBy p.scrapeRunId s (w.attemptOnce db p chunkIndex jobs s).2 := by
  have hlogged : StampedBy p.scrapeRunId s (s.log (.attempted db jobs s.events)) := .of_eq rfl
  have hprepared : StampedBy p.scrapeRunId s (w.preparedState db p.scrapeRunId jobs s) :=
    hlogged.trans (foldl_rel (R := StampedBy p.scrapeRunId) .refl (fun _ _ _ => .trans)
      (w.stampedBy_prepareJob db p.scrapeRunId) jobs _)
  rw [w.attemptOnce_snd db p chunkIndex hne]
  split
  · exact hprepared.trans (.of_eq rfl)
  · refine hprepared.trans ?_
    generalize w.preparedState db p.scrapeRunId jobs s = s₁
    set rows := jobs.filterMap (w.rowOf db)
    have hattached : StampedBy p.scrapeRunId s₁ (w.postState (p.chunkId chunkIndex) rows s₁) :=
      foldl_rel (R := StampedBy p.scrapeRunId) .refl (fun _ _ _ => .trans)
        (fun s key => .modify key _ (SyncEvent.attach_key _ _ _) rfl fun event => .inr rfl) _ s₁
    have hposted : StampedBy p.scrapeRunId s₁ (w.postedState (p.chunkId chunkIndex) rows s₁) :=
      hattached.trans (.of_eq rfl)
    have hrecorded := foldl_rel (R := StampedBy p.scrapeRunId) .refl (fun _ _ _ => .trans)
      (w.stampedBy_recordOne (w.chunkAnswer (p.chunkId chunkIndex) rows s₁)) (rows.map Prod.fst)
      (w.postedState (p.chunkId chunkIndex) rows s₁)
    exact (hposted.trans hrecorded).trans (.of_eq rfl)

theorem stampedBy_loop (p : SyncParams) (s₀ : SyncState) :
    w.LoopInvariant db p fun _ _ s => StampedBy p.scrapeRunId s₀ s where
  retry rest g g' s chunkIndex hrest hpos _ hinv _ _ _ _ := by
    have hne : rest.take g.chunkSize ≠ [] := fun h =>
      (List.take_eq_nil_iff.mp h).elim (by omega) hrest
    exact hinv.trans (w.stampedBy_attemptOnce db p chunkIndex s hne)
  settle rest g g' s chunkIndex r hrest hpos _ hinv _ _ _ _ _ := by
    have hne : rest.take g.chunkSize ≠ [] := fun h =>
      (List.take_eq_nil_iff.mp h).elim (by omega) hrest
    exact (hinv.trans (w.stampedBy_attemptOnce db p chunkIndex s hne)).trans (.of_eq rfl)

/-- After a run an event belongs to it, or to the run it belonged to before. -/
theorem stampedBy_runOnce (w : BackendSyncWorker) (s : SyncState) (run : SyncRun) :
    StampedBy run.params.scrapeRunId s (w.runOnce s run) := by
  rcases w.runOnce_cases s run (stampedBy_loop run.params s) fun _ _ _ _ => .of_eq rfl
    with heq | ⟨g, hend⟩
  · exact heq ▸ .of_eq rfl
  · exact hend

end BackendSyncWorker

end Bisakerja
