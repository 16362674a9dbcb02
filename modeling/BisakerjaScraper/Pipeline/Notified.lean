import BisakerjaScraper.Pipeline.LastSeen
import BisakerjaScraper.Pipeline.Store
import BisakerjaScraper.Sync.AtMostOnce

/-! What is announced has been accepted.

    The handoff tells the notifications service of jobs and reads which from the sync events. One
    thing marks an event sent: the answer to a post that carried its payload. So over any sequence
    of stages, whatever fails in between, a job is announced only after the backend has accepted a
    payload of it, and the candidate names the event of that payload. -/

namespace Bisakerja
open Schemes Schemes.Delivery

namespace BackendSyncWorker

/-- In one of some posts the backend has accepted the payload of a row that goes by a key. -/
def AcceptedIn (w : BackendSyncWorker) (db : JobTables) (made : List Post) (key : EventKey) : Prop :=
  ∃ post ∈ made, acknowledged post.2 = true ∧ ∃ job ∈ db.normalizedJobs.rows,
    w.keyOf db job = key ∧ ∃ payload, w.payloadOf db job = .ok payload ∧ (key, payload) ∈ post.1

/-- Each sent event was sent when the session `s₀` began, or its payload has been accepted since. -/
def SentSince (w : BackendSyncWorker) (db : JobTables) (s₀ s : SyncState) : Prop :=
  ∀ key m, ledger s.events key = some m → m.status = .sent →
    (∃ m₀, ledger s₀.events key = some m₀ ∧ m₀.status = .sent) ∨
      w.AcceptedIn db (posts s.journal) key

variable {w : BackendSyncWorker} {db : JobTables} {jobs : List NormalizedJob} {s₀ s s' : SyncState}
  {answer : Except BackendSyncError BackendSyncResult} {r : ChunkSyncResult} {key : EventKey}

theorem AcceptedIn.mono {made made' : List Post} (h : w.AcceptedIn db made key)
    (hsub : made ⊆ made') : w.AcceptedIn db made' key := by
  obtain ⟨post, hpost, hrest⟩ := h
  exact ⟨post, hsub hpost, hrest⟩

theorem SentSince.log {e : Effect} (h : w.SentSince db s₀ s)
    (he : posts (s.log e).journal = posts s.journal) : w.SentSince db s₀ (s.log e) := by
  unfold SentSince
  rw [he]
  exact h

/-- An answer other than an acceptance leaves no event sent. -/
theorem acknowledged_of_sent {m : Mark} (h : (w.answerMark answer m).status = .sent) :
    acknowledged answer = true := by
  rcases answer with (exc | exc) | result
  · exact absurd h (Mark.fail_status_ne_sent _ _)
  · exact absurd h (Mark.fail_status_ne_sent _ _)
  · rfl

/-- An attempt sends only what it gets accepted. -/
theorem ChunkOutcome.sentSince (hout : w.ChunkOutcome db jobs s answer r s')
    (hjobs : ∀ job ∈ jobs, job ∈ db.normalizedJobs.rows) (h : w.SentSince db s₀ s) :
    w.SentSince db s₀ s' := by
  intro key m hm hsent
  by_cases hmem : key ∈ jobs.map (w.keyOf db)
  · obtain ⟨job, hjob, rfl⟩ := List.mem_map.mp hmem
    rw [hout.marks job hjob, chunkMark, Option.some.injEq] at hm
    subst hm
    cases hp : w.payloadOf db job with
    | error exc =>
      have hinvalid : ¬ w.contractValid db job = true := by simp [contractValid, hp]
      rw [if_neg hinvalid] at hsent
      exact absurd hsent (Mark.fail_status_ne_sent _ _)
    | ok payload =>
      have hvalid : w.contractValid db job = true := by simp [contractValid, hp]
      rw [if_pos hvalid] at hsent
      have hrow : (w.keyOf db job, payload) ∈ jobs.filterMap (w.rowOf db) :=
        List.mem_filterMap.mpr ⟨job, hjob, by simp [rowOf, hp]⟩
      have hsome : ¬ (jobs.filterMap (w.rowOf db)).isEmpty = true := fun hempty => by
        rw [List.isEmpty_iff.mp hempty] at hrow
        cases hrow
      refine .inr ⟨(jobs.filterMap (w.rowOf db), answer), ?_, acknowledged_of_sent hsent, job,
        hjobs job hjob, rfl, payload, hp, hrow⟩
      rw [hout.posts_eq, if_neg hsome]
      exact List.mem_append_right _ (List.mem_singleton_self _)
  · rw [hout.frame key hmem] at hm
    refine (h key m hm hsent).imp_right fun haccepted => haccepted.mono ?_
    rw [hout.posts_eq]
    exact List.subset_append_left _ _

theorem sentSince_loop (p : SyncParams) (s₀ : SyncState) : w.LoopInvariant db p fun rest _ s =>
    (rest.map NormalizedJob.id).Nodup ∧ (∀ job ∈ rest, job ∈ db.normalizedJobs.rows) ∧
      w.SentSince db s₀ s where
  retry rest g g' s chunkIndex hrest hpos _ hinv _ _ _ _ := by
    obtain ⟨hnodup, hrows, hsent⟩ := hinv
    have hne : rest.take g.chunkSize ≠ [] := fun h =>
      (List.take_eq_nil_iff.mp h).elim (by omega) hrest
    obtain ⟨tick, hout⟩ := w.attemptOnce_outcome db p chunkIndex s hne
      (hnodup.sublist ((List.take_sublist _ _).map _))
    exact ⟨hnodup, hrows, hout.sentSince (fun job hjob => hrows job (List.mem_of_mem_take hjob)) hsent⟩
  settle rest g g' s chunkIndex r hrest hpos _ hinv _ _ _ _ _ := by
    obtain ⟨hnodup, hrows, hsent⟩ := hinv
    have hne : rest.take g.chunkSize ≠ [] := fun h =>
      (List.take_eq_nil_iff.mp h).elim (by omega) hrest
    obtain ⟨tick, hout⟩ := w.attemptOnce_outcome db p chunkIndex s hne
      (hnodup.sublist ((List.take_sublist _ _).map _))
    refine ⟨hnodup.sublist ((List.drop_sublist _ _).map _),
      fun job hjob => hrows job (List.mem_of_mem_drop hjob), ?_⟩
    exact (hout.sentSince (fun job hjob => hrows job (List.mem_of_mem_take hjob)) hsent).log
      (by simp [SyncState.log, posts])

/-- A whole call sends only what it gets accepted. -/
theorem sentSince_runOnce (w : BackendSyncWorker) (run : SyncRun) (s : SyncState) :
    w.SentSince run.db s (w.runOnce s run) := by
  have hstart : w.SentSince run.db s s := fun _ m hm hsent => .inl ⟨m, hm, hsent⟩
  have hlisted := hstart.log (e := .listed (w.listBackendPayloadCandidates run.db run.params s.events))
    (by simp [SyncState.log, posts])
  rcases w.runOnce_cases s run (sentSince_loop run.params s) fun _ _ _ _ =>
    ⟨w.nodup_candidates run.db run.params s.events, fun _ => mem_rows_of_candidate, hlisted⟩
    with heq | ⟨g, hend⟩
  · rw [heq]
    exact hlisted
  · exact hend.2.2

end BackendSyncWorker

theorem SyncEvent.mark_sent_iff {event : SyncEvent} :
    event.mark.status = .sent ↔ event.status = .sent := by
  unfold SyncEvent.mark
  cases event.status <;> simp [SyncEventStatus.delivery]

namespace Store

/-- The session of a sync step when it ends. -/
def syncSession (store : Store) (worker : BackendSyncWorker) (params : SyncParams) (ticks : ℕ) :
    SyncState :=
  worker.runOnce { events := store.syncEvents, ticks } { db := store.tables.jobs, params }

/-- One of some steps is a sync that got the payload of a row accepted: the row is that of the
    identity, and the event of the payload goes by the key. -/
def AcceptedDuring (steps : List StoreStep) (identity : String × String) (key : EventKey) : Prop :=
  ∃ earlier worker params ticks later, steps = earlier ++ .synced worker params ticks :: later ∧
    ∃ post ∈ posts ((empty.after earlier).syncSession worker params ticks).journal,
      BackendSyncWorker.acknowledged post.2 = true ∧
      ∃ job ∈ (empty.after earlier).tables.jobs.normalizedJobs.rows, job.identity = identity ∧
        ∃ payload, worker.payloadOf (empty.after earlier).tables.jobs job = .ok payload ∧
          key = ⟨"backend", job.id, worker.hash.digest payload⟩ ∧ (key, payload) ∈ post.1

theorem AcceptedDuring.mono {steps : List StoreStep} {identity : String × String} {key : EventKey}
    (h : AcceptedDuring steps identity key) (more : List StoreStep) :
    AcceptedDuring (steps ++ more) identity key := by
  obtain ⟨earlier, worker, params, ticks, later, rfl, hpost⟩ := h
  exact ⟨earlier, worker, params, ticks, later ++ more, by simp, hpost⟩

theorem after_concat (store : Store) (steps : List StoreStep) (step : StoreStep) :
    store.after (steps ++ [step]) = (store.after steps).step step :=
  List.foldl_concat _ _ _ _

/-- A step that is no sync leaves the sync events alone. -/
theorem syncEvents_step (store : Store) (step : StoreStep) :
    (store.step step).syncEvents = store.syncEvents ∨
      ∃ worker params ticks, step = .synced worker params ticks := by
  cases step with
  | synced worker params ticks => exact .inr ⟨worker, params, ticks, rfl⟩
  | scraped host hash inputs ticks => exact .inl rfl
  | normalized run => exact .inl rfl
  | ran run => exact .inl rfl
  | enriched run => exact .inl rfl
  | swept call => exact .inl rfl
  | handedOff worker scrapeRunId ticks => exact .inl rfl

/-- An event keeps its source platform and external id. -/
theorem identity_of_grows {syncEvents syncEvents' : SyncEvents}
    (h : syncEvents.Grows SyncEvent.stamp syncEvents') {event event' : SyncEvent}
    (hevent : event ∈ syncEvents.rows) (hevent' : event' ∈ syncEvents'.rows)
    (hkey : event.key = event'.key) :
    (event.sourcePlatform, event.externalId) = (event'.sourcePlatform, event'.externalId) := by
  obtain ⟨later, hlater, hstamp⟩ := Table.mem_stamps.mp (h.subset (Table.stamp_mem hevent))
  have hsame : later.key = event'.key :=
    (congrArg (fun stamp : String × EventKey × String × String => stamp.2.1) hstamp).trans hkey
  obtain rfl : later = event' := List.inj_on_of_nodup_map syncEvents'.unique hlater hevent' hsame
  exact (congrArg (fun stamp : String × EventKey × String × String => stamp.2.2) hstamp).symm

/-- Every sent event stands for a payload that the backend accepted in the course of the steps. -/
theorem accepted_of_sent (steps : List StoreStep) : ∀ event ∈ (empty.after steps).syncEvents.rows,
    event.status = .sent →
      AcceptedDuring steps (event.sourcePlatform, event.externalId) event.key := by
  induction steps using List.reverseRecOn with
  | nil => exact fun _ h => absurd h List.not_mem_nil
  | append_singleton steps step ih =>
    intro event hevent hsent
    have hrefers := (intact_empty.after (steps ++ [step])).1.syncEvents event hevent
    rw [after_concat] at hevent hrefers
    rcases syncEvents_step (empty.after steps) step with hsame | ⟨worker, params, ticks, rfl⟩
    · rw [hsame] at hevent
      exact (ih event hevent hsent).mono _
    · have hfind := Table.find?_of_mem hevent
      rcases worker.sentSince_runOnce { db := (empty.after steps).tables.jobs, params }
        { events := (empty.after steps).syncEvents, ticks } event.key event.mark
        (ledger_eq_some.mpr ⟨event, hfind, rfl⟩) (SyncEvent.mark_sent_iff.mpr hsent)
        with ⟨m, hm, hsent₀⟩ | haccepted
      · obtain ⟨event₀, hfind₀, rfl⟩ := ledger_eq_some.mp hm
        have hstamp := identity_of_grows (((intact_empty.after steps).1.step
          (.synced worker params ticks)).2.syncEvents) (Table.mem_of_find? hfind₀) hevent
          (Table.key_of_find? hfind₀)
        rw [← hstamp, ← Table.key_of_find? hfind₀]
        exact (ih event₀ (Table.mem_of_find? hfind₀) (SyncEvent.mark_sent_iff.mp hsent₀)).mono _
      · obtain ⟨post, hpost, hack, job, hjob, hkey, payload, hp, hrow⟩ := haccepted
        have hid : job.id = event.normalizedJobId := congrArg EventKey.normalizedJobId hkey
        have hstamp := hrefers.of_find (hid ▸ Table.find?_of_mem hjob)
        exact ⟨steps, worker, params, ticks, [], rfl, post, hpost, hack, job, hjob,
          congrArg Prod.snd hstamp, payload, hp, hkey.symm.trans
            (BackendSyncWorker.keyOf_of_ok hp), hrow⟩

/-- Over any sequence of stages and whatever the outside answers, a handoff announces a job only
    after an earlier sync has got a payload of it accepted by the backend, under the source platform
    and external id announced; and the candidate names a sync event of that payload. -/
theorem announced_is_accepted (steps : List StoreStep) (worker : RecommendationHandoffWorker)
    (scrapeRunId : String) (ticks : ℕ) :
    let store := empty.after steps
    let run := store.handoffRun worker scrapeRunId
    let s : HandoffState := { events := store.handoffs, ticks }
    ∀ k ∈ (run.posts s).flatten, ∃ event candidate, (run.next s).events.find? k = some candidate ∧
      Dict.get candidate.payloadJson "syncEventId" = .str event.id ∧
      event ∈ store.syncEvents.rows ∧ event.status = .sent ∧
      AcceptedDuring steps (k.sourcePlatform, k.externalId) event.key := by
  intro store run s k hk
  obtain ⟨-, -, -, event, hselected, job, candidate, hkey, -, hfind, -, hpayload⟩ :=
    HandoffRun.mem_posts hk
  have hmem := HandoffRun.mem_of_selected hselected
  have hsent : event.status = .sent := by
    have hfilter := (List.mem_filter.mp ((List.mem_insertionSort _).mp hselected)).2
    simp only [Bool.and_eq_true, decide_eq_true_eq] at hfilter
    exact hfilter.2
  refine ⟨event, candidate, hfind, ?_, hmem, hsent, ?_⟩
  · rw [hpayload]
    rfl
  · rw [← hkey]
    exact accepted_of_sent steps event hmem hsent

end Store

/-! ### A day with every stage -/

theorem one_le_thousand : 1 ≤ 1000 := by decide

/-- A handoff worker whose posts are all taken. -/
def takingWorker : RecommendationHandoffWorker where
  host := tallyHost
  hash := plainHash
  isoformat := fun _ => "1970-01-01"
  client := fun _ _ => .ok ⟨[]⟩
  batchSize_pos := one_le_thousand

/-- A sweep that has seen job `1`. -/
def sawOne : SweepCall where
  policy := ⟨1, 2, by decide, by decide⟩
  sourcePlatform := "dealls"
  seenExternalIds := {"1"}
  sourceRunSuccessful := true
  now := 1

/-- Job `1` is scraped and normalized, swept and synced. -/
def mondaySteps : List StoreStep :=
  let steps := (smallRun "mon" ["1"] 0 accepted).steps emptyDatabase
  steps.take 2 ++ .swept sawOne :: steps.drop 2

namespace Store

/-- The candidate of job `1`. -/
def mondayKey : HandoffKey := ⟨"mon-sync", "dealls", "1", "backend-notifications"⟩

theorem announced_is_accepted_monday :
    let store := empty.after mondaySteps
    let run := store.handoffRun takingWorker "mon-sync"
    let s : HandoffState := { events := store.handoffs, ticks := 0 }
    mondayKey ∈ (run.posts s).flatten ∧
      ∃ event candidate, (run.next s).events.find? mondayKey = some candidate ∧
        Dict.get candidate.payloadJson "syncEventId" = .str event.id ∧
        event ∈ store.syncEvents.rows ∧ event.status = .sent ∧
        AcceptedDuring mondaySteps ("dealls", "1") event.key := by
  intro store run s
  have hposted : mondayKey ∈ (run.posts s).flatten := by decide +kernel
  exact ⟨hposted, announced_is_accepted mondaySteps takingWorker "mon-sync" 0 mondayKey hposted⟩

end Store

end Bisakerja
