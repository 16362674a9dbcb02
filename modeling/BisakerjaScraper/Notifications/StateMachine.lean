import BisakerjaScraper.Notifications.Attempts
import BisakerjaScraper.Sync.Rescrape

/-! The handoff events over any sequence of runs.

    A run that selects no job twice posts each event that is due in exactly one chunk and attempts
    it once. Then the log of any sequence of such runs is legal, so no count exceeds the limit, and
    an event that is sent or dead keeps its status and is not posted again. A run may select one
    job twice, because sync events are unique by payload and handoff events are not. -/

namespace Bisakerja
open Schemes Schemes.Delivery

/-- A call of `handoff_synced_jobs`, with the tables it reads. -/
structure HandoffRun where
  worker : RecommendationHandoffWorker
  jobs : NormalizedJobs
  syncEvents : SyncEvents
  scrapeRunId : String

namespace HandoffRun

/-- The call. -/
def call (run : HandoffRun) : Stateful HandoffState PyException HandoffWorkerResult :=
  run.worker.handoffSyncedJobs run.jobs run.syncEvents run.scrapeRunId

/-- The session after the call. -/
def next (s : HandoffState) (run : HandoffRun) : HandoffState := (run.call s).2

/-- The sync events the call selects. -/
def selected (run : HandoffRun) : List SyncEvent :=
  listSyncedJobsForRun run.syncEvents run.scrapeRunId

/-- The keys of the handoff events of the selected sync events. -/
def keys (run : HandoffRun) : List HandoffKey := run.selected.map (handoffKey run.scrapeRunId)

/-- No two of the selected sync events have the same source and external id. -/
def SelectsOnce (run : HandoffRun) : Prop :=
  (run.selected.map fun syncEvent => (syncEvent.sourcePlatform, syncEvent.externalId)).Nodup

instance (run : HandoffRun) : Decidable run.SelectsOnce := by unfold SelectsOnce; infer_instance

/-- The session after a sequence of calls. -/
def history (s : HandoffState) (runs : List HandoffRun) : HandoffState := runs.foldl next s

end HandoffRun

/-- A session over an empty event table. -/
def HandoffState.initial (ticks : ℕ) : HandoffState := { events := Table.empty _, ticks }

/-- What one call has to do: every selected event that is due is in exactly one chunk, no chunk is
    larger than the batch size, and what is counted as attempted is sent or failed. -/
structure SendsOnce (run : HandoffRun) (s : HandoffState) : Prop where
  accounted : ∀ result, (run.call s).1 = .ok result → result.sent + result.failed = result.attempted
  chunked : (run.call s).1.isOk = true → ∃ posts,
    postsOf (run.next s).log = postsOf s.log ++ posts ∧
      (∀ keys ∈ posts, keys.length ≤ run.worker.batchSize) ∧ posts.flatten.Nodup ∧
      ∀ k, k ∈ posts.flatten ↔ k ∈ run.keys ∧
        Due run.worker.maxAttempts (handoffLedger s.events k)

/-- What holds wherever a log is read: no count exceeds `m`, and an event that is sent or dead keeps
    its mark and is not posted any more. -/
structure SettlesWithin (m : ℕ) (l : Ledger HandoffKey) (log : List (Entry HandoffKey)) : Prop where
  attempts_le : ∀ before rest, log = before ++ rest → ∀ k mark, replay l before k = some mark →
    mark.attempts ≤ m
  terminal : ∀ before rest, log = before ++ rest → ∀ k mark, replay l before k = some mark →
    mark.Terminal → replay l log k = some mark ∧ ∀ keys, .posted keys ∈ rest → k ∉ keys

namespace HandoffRun

variable {run : HandoffRun} {runs : List HandoffRun} {m : ℕ} {s : HandoffState}

theorem scrapeRunId_of_selected {syncEvent : SyncEvent} (h : syncEvent ∈ run.selected) :
    syncEvent.scrapeRunId = some run.scrapeRunId := by
  have hmem := List.mem_filter.mp ((List.mem_insertionSort _).mp h)
  simp only [Bool.and_eq_true, decide_eq_true_eq] at hmem
  exact hmem.2.1.1

/-- The keys are distinct where no job is selected twice. -/
theorem nodup_keys (h : run.SelectsOnce) : run.keys.Nodup := by
  refine List.Nodup.of_map (fun k => (k.sourcePlatform, k.externalId)) ?_
  rw [keys, List.map_map]
  exact h

/-- The chunks of the call, once all events are prepared. -/
def chunksOf (run : HandoffRun) (s₁ : HandoffState) : List (List HandoffKey) :=
  chunks (run.worker.retryableEvents run.keys s₁.events) run.worker.batchSize

/-- The call either raises while it prepares, or prepares all events and sends the chunks. -/
theorem call_cases (m : ℕ) (run : HandoffRun) (s : HandoffState) :
    (∃ exc, (run.call s).1 = .error exc ∧ HandoffMoves m [] s (run.next s)) ∨
      ∃ s₁, HandoffMoves m [] s s₁ ∧
        handoffLedger s₁.events = preparedMarks run.keys (handoffLedger s.events) ∧
        run.call s = (fun sent => (.ok sent.1, sent.2)) (run.worker.sendChunks run.scrapeRunId
          (run.chunksOf s₁)
          { attempted := (run.worker.retryableEvents run.keys s₁.events).length } s₁) := by
  have hmoves := (RecommendationHandoffWorker.moves_prepareEvents m run.worker run.jobs s
    run.selected).of_run (.refl s)
  rcases hprepared : run.worker.prepareEvents run.jobs run.selected s with ⟨exc | keys, s₁⟩
  · have hcall : run.call s = (.error exc, s₁) := by
      change Stateful.bind (run.worker.prepareEvents run.jobs run.selected) _ s = _
      simp only [Stateful.bind, hprepared]
    rw [hprepared] at hmoves
    exact .inl ⟨exc, by rw [hcall], by rw [next, hcall]; exact hmoves⟩
  · obtain ⟨hkeys, hmarks⟩ := RecommendationHandoffWorker.prepareEvents_ok
      (fun _ => scrapeRunId_of_selected) hprepared
    rw [hprepared] at hmoves
    subst hkeys
    refine .inr ⟨s₁, hmoves, hmarks, ?_⟩
    change Stateful.bind (run.worker.prepareEvents run.jobs run.selected) _ s = _
    simp only [Stateful.bind, hprepared]
    rfl

theorem mem_retryableEvents {w : RecommendationHandoffWorker} {keys : List HandoffKey}
    {events : HandoffEvents} {k : HandoffKey} : k ∈ w.retryableEvents keys events ↔
      k ∈ keys ∧ ∃ mark, handoffLedger events k = some mark ∧ mark.Retryable w.maxAttempts := by
  simp only [RecommendationHandoffWorker.retryableEvents, List.mem_filter, Option.any_eq_true,
    isRetryableHandoff_iff, handoffLedger_eq_some]
  simp

/-- After preparing, an event is retryable exactly when it was due before. -/
theorem retryable_preparedMarks {l : Ledger HandoffKey} {keys : List HandoffKey} {k : HandoffKey}
    (hk : k ∈ keys) : (∃ mark, preparedMarks keys l k = some mark ∧ mark.Retryable m) ↔
      Due m (l k) := by
  simp only [preparedMarks, if_pos hk, Due]
  cases l k with
  | none => simp [Mark.fresh_retryable]
  | some mark => simp

theorem mem_flatten_chunksOf {s₁ : HandoffState}
    (hmarks : handoffLedger s₁.events = preparedMarks run.keys (handoffLedger s.events))
    (k : HandoffKey) : k ∈ (run.chunksOf s₁).flatten ↔
      k ∈ run.keys ∧ Due run.worker.maxAttempts (handoffLedger s.events k) := by
  rw [chunksOf, flatten_chunks run.worker.batchSize_pos, mem_retryableEvents, hmarks]
  exact and_congr_right retryable_preparedMarks

theorem nodup_flatten_chunksOf (honce : run.SelectsOnce) (s₁ : HandoffState) :
    (run.chunksOf s₁).flatten.Nodup := by
  rw [chunksOf, flatten_chunks run.worker.batchSize_pos]
  exact (nodup_keys honce).filter _

theorem moves_sent (hbudget : run.worker.maxAttempts ≤ m) (honce : run.SelectsOnce)
    (result : HandoffWorkerResult) (s₁ : HandoffState) :
    HandoffMoves m (run.chunksOf s₁) s₁
      (run.worker.sendChunks run.scrapeRunId (run.chunksOf s₁) result s₁).2 := by
  refine RecommendationHandoffWorker.moves_sendChunks hbudget _ _ _ _
    (nodup_flatten_chunksOf honce s₁) fun k hk => ?_
  rw [chunksOf, flatten_chunks run.worker.batchSize_pos] at hk
  exact (mem_retryableEvents.mp hk).2

/-- A call that selects no job twice makes legal entries only. -/
theorem moves_next (hbudget : run.worker.maxAttempts ≤ m) (honce : run.SelectsOnce)
    (s : HandoffState) : ∃ posts, HandoffMoves m posts s (run.next s) := by
  rcases call_cases m run s with ⟨exc, -, hmoves⟩ | ⟨s₁, hmoves, -, hcall⟩
  · exact ⟨[], hmoves⟩
  · rw [next, hcall]
    exact ⟨_, hmoves.trans (moves_sent hbudget honce _ s₁)⟩

theorem sendsOnce (honce : run.SelectsOnce) (s : HandoffState) : SendsOnce run s := by
  rcases call_cases run.worker.maxAttempts run s with
    ⟨exc, herror, -⟩ | ⟨s₁, hmoves, hmarks, hcall⟩
  · exact ⟨by simp [herror], by simp [herror, Except.isOk, Except.toBool]⟩
  · refine ⟨fun result hresult => ?_, fun _ => ⟨run.chunksOf s₁, ?_, fun keys hkeys => ?_,
      nodup_flatten_chunksOf honce s₁, mem_flatten_chunksOf hmarks⟩⟩
    · rw [hcall] at hresult
      cases hresult
      obtain ⟨hattempted, hcounts⟩ := run.worker.counts_sendChunks run.scrapeRunId
        (run.chunksOf s₁) { attempted := (run.worker.retryableEvents run.keys s₁.events).length } s₁
      rw [hattempted, hcounts, chunksOf, flatten_chunks run.worker.batchSize_pos]
      simp
    · obtain ⟨more, hlog, -, -, hposts⟩ := hmoves.trans (moves_sent le_rfl honce
        { attempted := (run.worker.retryableEvents run.keys s₁.events).length } s₁)
      rw [next, hcall, hlog, postsOf_append, hposts, List.nil_append]
    · exact (mem_chunks run.worker.batchSize_pos hkeys).2.1

theorem moves_history (hbudget : ∀ run ∈ runs, run.worker.maxAttempts ≤ m)
    (honce : ∀ run ∈ runs, run.SelectsOnce) (s : HandoffState) :
    ∃ posts, HandoffMoves m posts s (history s runs) := by
  induction runs generalizing s with
  | nil => exact ⟨[], .refl s⟩
  | cons run rest ih =>
    obtain ⟨posts, hnext⟩ := moves_next (hbudget run List.mem_cons_self)
      (honce run List.mem_cons_self) s
    obtain ⟨posts', hrest⟩ := ih (fun r hr => hbudget r (List.mem_cons_of_mem _ hr))
      (fun r hr => honce r (List.mem_cons_of_mem _ hr)) (run.next s)
    exact ⟨_, hnext.trans hrest⟩

end HandoffRun

theorem SettlesWithin.of_lawful {m : ℕ} {l : Ledger HandoffKey} {log : List (Entry HandoffKey)}
    (hm : 1 ≤ m) (hl : ∀ k mark, l k = some mark → mark.InBudget m) (h : Lawful m l log) :
    SettlesWithin m l log := by
  constructor
  · rintro before rest rfl k mark hmark
    exact (h.inBudget hm hl hmark).attempts_le
  · rintro before rest rfl k mark hmark hterm
    exact ⟨h.terminal hmark hterm, fun keys => h.not_posted hmark hterm⟩

/-- BUG: an event that a run selects twice is attempted twice. In every sequence of runs that select
    no job twice, each run sends its due events once, no count exceeds the limit, and an event that
    is sent or dead keeps its status and is not sent again. -/
theorem handoff_state_machine (m : ℕ) (hm : 1 ≤ m) (runs : List HandoffRun) (ticks : ℕ)
    (hbudget : ∀ run ∈ runs, run.worker.maxAttempts ≤ m)
    (honce : ∀ run ∈ runs, run.SelectsOnce) :
    (∀ before run rest, runs = before ++ run :: rest →
      SendsOnce run (HandoffRun.history (.initial ticks) before)) ∧
    ((HandoffRun.history (.initial ticks) runs).events.rows.map
      NotificationHandoffEvent.key).Nodup ∧
    replay (fun _ => none) (HandoffRun.history (.initial ticks) runs).log
      = handoffLedger (HandoffRun.history (.initial ticks) runs).events ∧
    SettlesWithin m (fun _ => none) (HandoffRun.history (.initial ticks) runs).log := by
  obtain ⟨posts, more, hlog, hreplay, hlawful, -⟩ :=
    HandoffRun.moves_history hbudget honce (.initial ticks)
  have hlog' : (HandoffRun.history (.initial ticks) runs).log = more := hlog
  rw [hlog']
  refine ⟨?_, Table.unique _, hreplay, .of_lawful hm nofun hlawful⟩
  rintro before run rest rfl
  exact HandoffRun.sendsOnce (honce run (by simp)) _

/-! ### A job sent twice -/

/-- A digest that tells payloads apart by their title. -/
def titleHash : StableHash where
  digest payload := "sha256:" ++ textAt payload "jobListing" "title"
  digest_ne payload h := by
    have hlist := congrArg String.toList h
    simp at hlist

/-- The tables of a run, with job `a` under a given title. -/
def titledJob (title : String) : JobTables :=
  ⟨⟨[plainRaw "r"], by decide⟩, ⟨[{ scrapedJob with title := title }], List.nodup_singleton _⟩⟩

/-- The sync events when a run is synced, and synced again after the title has changed. -/
def syncedUnderTwoTitles : SyncEvents :=
  ({ plainWorker 3 (fun _ _ => accepted) with hash := titleHash }.runHistory
    [⟨titledJob "Lead", { scrapeRunId := some "r", limit := 10 }⟩,
      ⟨titledJob "Chief", { scrapeRunId := some "r", limit := 10 }⟩] (.initial 0)).events

/-- A handoff of these events, with an endpoint that accepts the first post only. -/
def handoffOfBoth : HandoffRun where
  worker :=
    { host := ⟨fun t => t, fun t => toString t, fun _ => 0⟩
      hash := plainHash
      isoformat := fun t => toString t
      client := fun tick _ => if tick ≤ 2 then .ok ⟨[]⟩ else .error ⟨"TimeoutError", "", none⟩
      maxAttempts := 1
      batchSize := 1 }
  jobs := (titledJob "Chief").normalizedJobs
  syncEvents := syncedUnderTwoTitles
  scrapeRunId := "r"

/-- The key of the one handoff event. -/
def handoffOfA : HandoffKey := ⟨"r", "dealls", "a", "backend-notifications"⟩

/-- The event is sent in the first chunk and dead after the second. -/
theorem sent_event_dies :
    ¬ SendsOnce handoffOfBoth (.initial 0) ∧
      ¬ SettlesWithin 1 (fun _ => none) (handoffOfBoth.next (.initial 0)).log := by
  have hposts : postsOf (handoffOfBoth.next (.initial 0)).log = [[handoffOfA], [handoffOfA]] := by
    decide +kernel
  constructor
  · intro h
    obtain ⟨posts, heq, -, hnodup, -⟩ := h.chunked (by decide +kernel)
    have hempty : postsOf (HandoffState.initial 0).log = [] := rfl
    rw [hposts, hempty, List.nil_append] at heq
    rw [← heq] at hnodup
    exact absurd hnodup (by decide)
  · intro h
    have hmark : replay (fun _ => none) (handoffOfBoth.next (.initial 0)).log handoffOfA
        = some ⟨.dead, 2⟩ := by decide +kernel
    have hle := h.attempts_le _ [] (List.append_nil _).symm handoffOfA _ hmark
    exact absurd hle (by decide)

/-- One sync, then its handoff. -/
def handoffOfOne : HandoffRun :=
  { handoffOfBoth with
    syncEvents := ({ plainWorker 3 (fun _ _ => accepted) with hash := titleHash }.runHistory
      [⟨titledJob "Lead", { scrapeRunId := some "r", limit := 10 }⟩] (.initial 0)).events }

theorem handoff_state_machine_one :
    (∀ before run rest, [handoffOfOne, handoffOfOne] = before ++ run :: rest →
      SendsOnce run (HandoffRun.history (.initial 0) before)) ∧
    ((HandoffRun.history (.initial 0) [handoffOfOne, handoffOfOne]).events.rows.map
      NotificationHandoffEvent.key).Nodup ∧
    replay (fun _ => none) (HandoffRun.history (.initial 0) [handoffOfOne, handoffOfOne]).log
      = handoffLedger (HandoffRun.history (.initial 0) [handoffOfOne, handoffOfOne]).events ∧
    SettlesWithin 1 (fun _ => none)
      (HandoffRun.history (.initial 0) [handoffOfOne, handoffOfOne]).log := by
  have hmax : handoffOfOne.worker.maxAttempts ≤ 1 := by decide
  have honce : handoffOfOne.SelectsOnce := by decide +kernel
  refine handoff_state_machine 1 le_rfl [handoffOfOne, handoffOfOne] 0 (fun run hrun => ?_)
    fun run hrun => ?_
  · rcases List.mem_pair.mp hrun with rfl | rfl <;> exact hmax
  · rcases List.mem_pair.mp hrun with rfl | rfl <;> exact honce

end Bisakerja
