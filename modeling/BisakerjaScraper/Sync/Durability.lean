import BisakerjaScraper.Schemes.Checkpoint
import BisakerjaScraper.Sync.Partition

/-! The log of a sync run.

    A run posts its chunks and flushes their records; nothing is committed before the hook does it
    at the end. The journal holds the posts and the records in order, and replaying it gives the
    marks of the events at every point. -/

namespace Bisakerja
open Schemes Schemes.Delivery

/-- What an effect posts or writes. -/
def Effect.entry : Effect → Option (Entry EventKey)
  | .created event => some (.wrote event.key event.mark)
  | .posted rows _ _ => some (.posted (rows.map Prod.fst))
  | .recorded _ after => some (.wrote after.key after.mark)
  | _ => none

/-- The log of some effects. -/
def logOf (effects : List Effect) : List (Entry EventKey) := effects.filterMap Effect.entry

/-- From one session to a later one: what the journal gains leads from the marks of the one to the
    marks of the other. -/
abbrev Journaled (s s' : SyncState) : Prop :=
  Logged (fun s => logOf s.journal) (fun s => ledger s.events) s s'

/-- The answer for some events is recorded in the journal. -/
abbrev JournaledAnswer (keys : List EventKey) (s s' : SyncState) : Prop :=
  Records (fun s => logOf s.journal) (fun s => ledger s.events) keys s s'

theorem logOf_append (effects more : List Effect) :
    logOf (effects ++ more) = logOf effects ++ logOf more :=
  List.filterMap_append

/-- A note in the journal that neither posts nor writes. -/
theorem journaled_log (effect : Effect) (h : effect.entry = none) (s : SyncState) :
    Journaled s (s.log effect) := by
  refine .of_eq ?_ rfl
  change logOf (s.journal ++ [effect]) = logOf s.journal
  simp [logOf, h]

/-! ### One row -/

/-- `prepare_event` writes the mark of a new event, or no mark. -/
theorem journaled_prepareEvent (host : Host) (hash : StableHash) (job : NormalizedJob)
    (runId payloadHash : Option String) (s : SyncState) :
    Journaled s (prepareEvent host hash job runId payloadHash s).2 := by
  unfold prepareEvent
  cases hfind : s.events.find? (eventKey hash job payloadHash) with
  | some event =>
    simp only [hfind]
    exact .of_eq rfl (ledger_modify_same _ (SyncEvent.rescope_key _ _)
      (SyncEvent.rescope_mark _ _) s.events _)
  | none =>
    simp only [hfind]
    set event := newEvent host s.ticks (eventKey hash job payloadHash) job runId with hevent
    have hkey : event.key = eventKey hash job payloadHash := newEvent_key ..
    have hnone : s.events.find? event.key = none := by rw [hkey]; exact hfind
    have hmarks : ledger (s.events.insert event)
        = Function.update (ledger s.events) event.key (some event.mark) :=
      rowMarks_insert SyncEvent.mark hnone
    refine ⟨[.wrote event.key event.mark], logOf_append .., ?_⟩
    change Ran _ _ (ledger (s.events.insert event))
    rw [hmarks]
    refine .wrote fun m₀ hm₀ => ?_
    simp [ledger, hnone] at hm₀

/-- A record that raises the attempts is journaled as a write; of a missing event there is none. -/
theorem journaledAnswer_record {s : SyncState} {key : EventKey} {f : SyncEvent → SyncEvent}
    {hf : ∀ event, (f event).key = event.key} {ticks : ℕ}
    (hattempts : ∀ event, event.mark.attempts < (f event).mark.attempts) :
    JournaledAnswer [key] s (s.record key f hf ticks) := by
  unfold SyncState.record
  cases hfind : s.events.find? key with
  | none =>
    refine ⟨[], (List.append_nil _).symm, .refl _, nofun, fun k hk hsome => ?_⟩
    rw [List.mem_singleton.mp hk] at hsome
    simp [ledger, hfind] at hsome
  | some event =>
    have hkey : (f event).key = key := (hf event).trans (Table.key_of_find? hfind)
    have hmarks : ledger (s.events.modify key f hf)
        = Function.update (ledger s.events) key (some (f event).mark) :=
      rowMarks_modify SyncEvent.mark hfind f hf
    have hlog : logOf [.recorded event (f event)] = [.wrote key (f event).mark] := by
      simp [logOf, Effect.entry, hkey]
    refine ⟨[.wrote key (f event).mark], by rw [← hlog]; exact logOf_append .., ?_, ?_, ?_⟩
    · change Ran _ _ (ledger (s.events.modify key f hf))
      rw [hmarks]
      refine .wrote fun m₀ hm₀ => ?_
      obtain ⟨event', hevent', rfl⟩ := ledger_eq_some.mp hm₀
      rw [hfind] at hevent'
      cases hevent'
      exact hattempts event
    · intro entry hentry
      cases List.mem_singleton.mp hentry
      rfl
    · intro k hk _
      rw [List.mem_singleton.mp hk]
      exact ⟨_, List.mem_singleton_self _⟩

theorem journaledAnswer_recordFailure (host : Host) (failure : SyncFailure) (maxAttempts : ℕ)
    (s : SyncState) (key : EventKey) :
    JournaledAnswer [key] s (recordFailure host failure maxAttempts s key) :=
  journaledAnswer_record fun _ => Nat.lt_succ_self _

namespace BackendSyncWorker

variable {w : BackendSyncWorker} {db : JobTables} {p : SyncParams}

theorem journaledAnswer_recordOne (w : BackendSyncWorker)
    (answer : Except BackendSyncError BackendSyncResult) (s : SyncState) (key : EventKey) :
    JournaledAnswer [key] s (w.recordOne answer s key) := by
  rcases answer with (exc | exc) | result
  · exact journaledAnswer_recordFailure ..
  · exact journaledAnswer_recordFailure ..
  · exact journaledAnswer_record fun _ => Nat.lt_succ_self _

/-! ### One attempt -/

theorem journaled_prepareJob (w : BackendSyncWorker) (db : JobTables) (runId : Option String)
    (s : SyncState) (job : NormalizedJob) : Journaled s (w.prepareJob db runId job s).2 := by
  unfold prepareJob
  split
  · exact (journaled_prepareEvent w.host w.hash job runId none s).trans
      (journaledAnswer_recordFailure ..).logged
  · exact journaled_prepareEvent ..

theorem journaled_preparedState (w : BackendSyncWorker) (db : JobTables) (runId : Option String)
    (jobs : List NormalizedJob) (s : SyncState) :
    Journaled s (w.preparedState db runId jobs s) :=
  (journaled_log (.attempted db jobs s.events) rfl s).trans
    (foldl_rel (R := Journaled) .refl (fun _ _ _ => .trans) (w.journaled_prepareJob db runId) jobs _)

/-- The post of a chunk and its records. -/
theorem journaled_postedState (w : BackendSyncWorker) (chunkId : String)
    {rows : List (EventKey × Json)} (hrows : rows ≠ []) {s : SyncState}
    (hsome : ∀ row ∈ rows, (ledger s.events row.1).isSome = true) :
    Journaled s ((rows.map Prod.fst).foldl (w.recordOne (w.chunkAnswer chunkId rows s))
      (w.postedState chunkId rows s)) := by
  have hrecords := Records.foldl (w.journaledAnswer_recordOne (w.chunkAnswer chunkId rows s))
    (rows.map Prod.fst) (w.postedState chunkId rows s)
  have hjournal : (w.postState chunkId rows s).journal = s.journal :=
    foldl_unchanged (f := SyncState.journal) (fun s key => journal_attachChunkMetadata s _ _ _ key)
      _ s
  refine hrecords.posted (by simpa using hrows) (fun key hkey => ?_) ?_
    (w.postState_ledger chunkId rows s)
  · obtain ⟨row, hrow, rfl⟩ := List.mem_map.mp hkey
    exact hsome row hrow
  · rw [← hjournal]
    exact logOf_append ..

/-- One turn of the inner loop is journaled: a chunk that is posted is recorded at once. -/
theorem journaled_attemptOnce (w : BackendSyncWorker) (db : JobTables) (p : SyncParams)
    (chunkIndex : ℕ) {jobs : List NormalizedJob} (s : SyncState)
    (hne : jobs ≠ []) (hnodup : (jobs.map NormalizedJob.id).Nodup) :
    Journaled s (w.attemptOnce db p chunkIndex jobs s).2 := by
  have hprepared := w.journaled_preparedState db p.scrapeRunId jobs s
  rw [w.attemptOnce_snd db p chunkIndex hne]
  split
  · exact hprepared.trans (.of_eq rfl rfl)
  · next hrows =>
    have hsome : ∀ row ∈ jobs.filterMap (w.rowOf db),
        (ledger (w.preparedState db p.scrapeRunId jobs s).events row.1).isSome = true := by
      intro row hrow
      have hmem := List.mem_map_of_mem (f := Prod.fst) hrow
      rw [w.map_fst_rowOf] at hmem
      obtain ⟨job, hjob, hkey⟩ := List.mem_map.mp hmem
      rw [← hkey, w.preparedState_marks db p.scrapeRunId s hnodup (List.mem_filter.mp hjob).1]
      rfl
    have hposted := w.journaled_postedState (p.chunkId chunkIndex)
      (fun hnil => hrows (by rw [hnil]; rfl)) hsome
    exact (hprepared.trans hposted).trans (.of_eq rfl rfl)

/-! ### The run -/

theorem journaled_loop (p : SyncParams) (s₀ : SyncState) :
    w.LoopInvariant db p fun rest _ s => (rest.map NormalizedJob.id).Nodup ∧ Journaled s₀ s where
  retry rest g g' s chunkIndex hrest hpos _ hinv _ _ _ _ := by
    obtain ⟨hnodup, hjournaled⟩ := hinv
    have hne : rest.take g.chunkSize ≠ [] := fun h =>
      (List.take_eq_nil_iff.mp h).elim (by omega) hrest
    exact ⟨hnodup, hjournaled.trans (w.journaled_attemptOnce db p chunkIndex s hne
      (hnodup.sublist ((List.take_sublist _ _).map _)))⟩
  settle rest g g' s chunkIndex r hrest hpos _ hinv _ _ _ _ _ := by
    obtain ⟨hnodup, hjournaled⟩ := hinv
    have hne : rest.take g.chunkSize ≠ [] := fun h =>
      (List.take_eq_nil_iff.mp h).elim (by omega) hrest
    have hattempt := w.journaled_attemptOnce db p chunkIndex s hne
      (hnodup.sublist ((List.take_sublist _ _).map _))
    exact ⟨hnodup.sublist ((List.drop_sublist _ _).map _),
      (hjournaled.trans hattempt).trans (journaled_log _ rfl _)⟩

/-- A call of `sync_eligible_jobs` is journaled from its start to its end. -/
theorem journaled_runOnce (w : BackendSyncWorker) (s : SyncState) (run : SyncRun) :
    Journaled s (w.runOnce s run) := by
  have hlisted : Journaled s
      (s.log (.listed (w.listBackendPayloadCandidates run.db run.params s.events))) :=
    journaled_log _ rfl s
  rcases w.runOnce_cases s run (journaled_loop run.params s) fun _ _ _ _ =>
    ⟨w.nodup_candidates run.db run.params s.events, hlisted⟩ with heq | ⟨g, hend⟩
  · exact heq ▸ hlisted
  · exact hend.2

/-- `sync_hook`: the worker runs in one transaction, and one commit follows. -/
def syncHook (w : BackendSyncWorker) (s : SyncState) (run : SyncRun) : Delivery.Run EventKey :=
  .between s (w.runOnce s run) (w.journaled_runOnce s run)

end BackendSyncWorker

end Bisakerja
