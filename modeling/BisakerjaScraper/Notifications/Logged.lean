import BisakerjaScraper.Notifications.Handoff
import BisakerjaScraper.Schemes.Sweep

/-! The log of a handoff run.

    Preparing an event writes the mark of a new one; a chunk is posted and then each of its events
    is recorded. So the log of a run leads from the marks before it to the marks after it.

    `sync_hook` and `handoff_hook` hand a whole worker run to one transaction: the records of a
    chunk are flushed, and the commit follows when all chunks are through. -/

namespace Bisakerja
open Schemes Schemes.Delivery

/-- From one session to a later one: what the log gains leads from the marks of the one to the marks
    of the other. -/
abbrev HandoffLogged (s s' : HandoffState) : Prop :=
  Logged HandoffState.log (fun s => handoffLedger s.events) s s'

/-- The answer for some events is recorded in the log. -/
abbrev HandoffRecords (keys : List HandoffKey) (s s' : HandoffState) : Prop :=
  Records HandoffState.log (fun s => handoffLedger s.events) keys s s'

theorem handoffLedger_eq_some {events : HandoffEvents} {k : HandoffKey} {m : Mark} :
    handoffLedger events k = some m ↔ ∃ event, events.find? k = some event ∧ event.mark = m := by
  simp [handoffLedger, rowMarks]

namespace RecommendationHandoffWorker

variable {w : RecommendationHandoffWorker} {key : HandoffKey} {s : HandoffState}

/-! ### Preparing -/

theorem prepareFound_of_some (w : RecommendationHandoffWorker) (syncEvent : SyncEvent)
    (job : NormalizedJob) (payload : Dict) {event : NotificationHandoffEvent}
    (hfind : s.events.find? key = some event) :
    (w.prepareFound key syncEvent job payload s).log = s.log ∧
      handoffLedger (w.prepareFound key syncEvent job payload s).events = handoffLedger s.events := by
  simp only [prepareFound, hfind]
  exact ⟨trivial, rowMarks_modify_same NotificationHandoffEvent.mark fun _ => rfl⟩

theorem prepareFound_of_none (w : RecommendationHandoffWorker) (syncEvent : SyncEvent)
    (job : NormalizedJob) (payload : Dict) (hfind : s.events.find? key = none) :
    (w.prepareFound key syncEvent job payload s).log = s.log ++ [.wrote key .fresh] ∧
      handoffLedger (w.prepareFound key syncEvent job payload s).events
        = Function.update (handoffLedger s.events) key (some .fresh) := by
  simp only [prepareFound, hfind]
  exact ⟨rfl, rowMarks_insert NotificationHandoffEvent.mark (r := w.newHandoff key syncEvent job
    payload s.ticks) hfind⟩

theorem logged_prepareFound (w : RecommendationHandoffWorker) (key : HandoffKey)
    (syncEvent : SyncEvent) (job : NormalizedJob) (payload : Dict) (s : HandoffState) :
    HandoffLogged s (w.prepareFound key syncEvent job payload s) := by
  cases hfind : s.events.find? key with
  | some event =>
    obtain ⟨hlog, hmarks⟩ := prepareFound_of_some w syncEvent job payload hfind
    exact .of_eq hlog hmarks
  | none =>
    obtain ⟨hlog, hmarks⟩ := prepareFound_of_none w syncEvent job payload hfind
    refine ⟨_, hlog, ?_⟩
    change Ran _ _ (handoffLedger _)
    rw [hmarks]
    refine .wrote fun m₀ hm₀ => ?_
    simp [handoffLedger, rowMarks, hfind] at hm₀

theorem logged_prepareEvents (w : RecommendationHandoffWorker) (jobs : NormalizedJobs)
    (s₀ : HandoffState) (syncEvents : List SyncEvent) :
    Keeps (HandoffLogged s₀) (w.prepareEvents jobs syncEvents) := by
  induction syncEvents with
  | nil => exact .pure _
  | cons syncEvent rest ih =>
    refine .bind ?_ fun key => .bind ih fun keys => .pure _
    unfold prepareEvent
    split
    · exact .raise _
    · split
      · exact .raise _
      · exact .update fun s hs => hs.trans (logged_prepareFound ..)

/-! ### Recording -/

theorem record_of_some {f : NotificationHandoffEvent → NotificationHandoffEvent}
    (hf : ∀ event, (f event).key = event.key) (ticks : ℕ) {event : NotificationHandoffEvent}
    (hfind : s.events.find? key = some event) :
    (s.record key f hf ticks).log = s.log ++ [.wrote key (f event).mark] ∧
      handoffLedger (s.record key f hf ticks).events
        = Function.update (handoffLedger s.events) key (some (f event).mark) := by
  simp only [HandoffState.record, hfind]
  exact ⟨trivial, rowMarks_modify NotificationHandoffEvent.mark hfind f hf⟩

/-- A record that raises the attempts is logged as a write; of a missing event there is none. -/
theorem records_record {f : NotificationHandoffEvent → NotificationHandoffEvent}
    {hf : ∀ event, (f event).key = event.key} {ticks : ℕ}
    (hattempts : ∀ event, event.attemptCount < (f event).attemptCount) :
    HandoffRecords [key] s (s.record key f hf ticks) := by
  cases hfind : s.events.find? key with
  | none =>
    simp only [HandoffState.record, hfind]
    refine ⟨[], by simp, .refl _, by simp, fun k hk hsome => ?_⟩
    rw [List.mem_singleton.mp hk] at hsome
    simp [handoffLedger, rowMarks, hfind] at hsome
  | some event =>
    obtain ⟨hlog, hmarks⟩ := record_of_some hf ticks hfind
    refine ⟨_, hlog, ?_, by simp [Entry.isPost], by simp⟩
    change Ran _ _ (handoffLedger _)
    rw [hmarks]
    refine .wrote fun m₀ hm₀ => ?_
    obtain ⟨event', hevent', rfl⟩ := handoffLedger_eq_some.mp hm₀
    rw [hfind] at hevent'
    cases hevent'
    exact hattempts event

theorem records_recordAnswer (w : RecommendationHandoffWorker)
    (answer : Except HandoffException HandoffSuccess) (s : HandoffState) (key : HandoffKey) :
    HandoffRecords [key] s (w.recordAnswer answer s key) := by
  rcases answer with exc | result
  · exact records_record fun event => Nat.lt_succ_self _
  · exact records_record fun event => Nat.lt_succ_self _

/-! ### Sending -/

/-- A chunk of events that exist is posted and recorded. -/
theorem logged_sendChunk (w : RecommendationHandoffWorker) (runId : String)
    {keys : List HandoffKey} (hne : keys ≠ [])
    (hsome : ∀ k ∈ keys, (handoffLedger s.events k).isSome = true) :
    HandoffLogged s (w.sendChunk runId keys s) :=
  (Records.foldl (w.records_recordAnswer (w.chunkAnswer runId keys s)) keys
    (posted keys s)).posted hne hsome rfl rfl

theorem HandoffLogged.isSome {s s' : HandoffState} (h : HandoffLogged s s') {k : HandoffKey}
    (hk : (handoffLedger s.events k).isSome = true) :
    (handoffLedger s'.events k).isSome = true := by
  obtain ⟨more, -, hran⟩ := h
  exact hran.isSome hk

theorem logged_sendChunks (w : RecommendationHandoffWorker) (runId : String) :
    ∀ (chunks : List (List HandoffKey)) (result : HandoffWorkerResult) (s : HandoffState),
      (∀ keys ∈ chunks, keys ≠ []) →
      (∀ keys ∈ chunks, ∀ k ∈ keys, (handoffLedger s.events k).isSome = true) →
      HandoffLogged s (w.sendChunks runId chunks result s).2
  | [], _, s, _, _ => .refl s
  | keys :: rest, result, s, hne, hsome => by
    have hchunk : HandoffLogged s (w.sendChunk runId keys s) :=
      w.logged_sendChunk runId (hne keys List.mem_cons_self) (hsome keys List.mem_cons_self)
    refine hchunk.trans (logged_sendChunks w runId rest _ _
      (fun keys' hkeys' => hne keys' (List.mem_cons_of_mem _ hkeys')) fun keys' hkeys' k hk => ?_)
    exact HandoffLogged.isSome hchunk (hsome keys' (List.mem_cons_of_mem _ hkeys') k hk)

end RecommendationHandoffWorker

/-! ### Chunks -/

section Chunks

variable {α : Type} {values : List α} {size : ℕ}

/-- A chunk is a stretch of the list, not empty and no longer than the size. -/
theorem mem_chunks {chunk : List α} (hsize : 1 ≤ size) (h : chunk ∈ chunks values size) :
    chunk ≠ [] ∧ chunk.length ≤ size ∧ chunk.Sublist values := by
  obtain ⟨index, hindex, rfl⟩ := List.mem_map.mp h
  have hlt : index * size < values.length := by
    have hle := Nat.mul_le_of_le_div _ _ _ (Nat.succ_le_of_lt (List.mem_range.mp hindex))
    rw [Nat.succ_mul] at hle
    omega
  refine ⟨fun hnil => ?_, by simp, (List.take_sublist _ _).trans (List.drop_sublist _ _)⟩
  have hlen := congrArg List.length hnil
  simp only [List.length_take, List.length_drop, List.length_nil] at hlen
  omega

/-- The chunks put together are the list. -/
theorem flatten_chunks (hsize : 1 ≤ size) : (chunks values size).flatten = values := by
  have hstep : ∀ n, ((List.range n).map fun index =>
      (values.drop (index * size)).take size).flatten = values.take (n * size) := by
    intro n
    induction n with
    | zero => simp
    | succ n ih =>
      rw [List.range_succ, List.map_append, List.flatten_append, ih, Nat.succ_mul, List.take_add]
      simp
  have hall : values.length ≤ (values.length + size - 1) / size * size := by
    have hmod := Nat.mod_lt (values.length + size - 1) (show 0 < size by omega)
    have hdiv := Nat.div_add_mod (values.length + size - 1) size
    rw [Nat.mul_comm] at hdiv
    omega
  rw [chunks, hstep, List.take_of_length_le hall]

end Chunks

/-! ### Where the delivery stages commit -/

/-- A call of `handoff_synced_jobs` is logged from its start to its end. -/
theorem RecommendationHandoffWorker.logged_handoffSyncedJobs (w : RecommendationHandoffWorker)
    (jobs : NormalizedJobs) (syncEvents : SyncEvents) (runId : String) (s₀ : HandoffState) :
    HandoffLogged s₀ (w.handoffSyncedJobs jobs syncEvents runId s₀).2 := by
  have hrun : Keeps (HandoffLogged s₀) (w.handoffSyncedJobs jobs syncEvents runId) := by
    refine .bind (logged_prepareEvents w jobs s₀ _) fun keys => .update fun s hs => hs.trans ?_
    refine logged_sendChunks w runId _ _ s (fun chunk hchunk => (mem_chunks w.batchSize_pos hchunk).1)
      fun chunk hchunk k hk => ?_
    have hmem := ((mem_chunks w.batchSize_pos hchunk).2.2).subset hk
    obtain ⟨event, hfind, -⟩ := (Option.any_eq_true _ _).mp (List.mem_filter.mp hmem).2
    simp [handoffLedger, rowMarks, hfind]
  exact hrun.of_run (.refl s₀)

/-- `handoff_hook`: the worker runs in one transaction, and one commit follows. -/
def RecommendationHandoffWorker.handoffHook (w : RecommendationHandoffWorker)
    (jobs : NormalizedJobs) (syncEvents : SyncEvents) (runId : String) (s : HandoffState) :
    Delivery.Run HandoffKey :=
  .between s _ (w.logged_handoffSyncedJobs jobs syncEvents runId s)

/-- BUG: nothing is committed before the hook does it at the end. Wherever a run stops, the chunks
    before the last one have kept their records exactly when that commit is reached, or when there
    is no such chunk. -/
theorem chunks_kept_iff (w : BackendSyncWorker) (s : SyncState) (run : BackendSyncWorker.SyncRun)
    (handoff : RecommendationHandoffWorker) (jobs : NormalizedJobs) (syncEvents : SyncEvents)
    (runId : String) (start : HandoffState) :
    (∀ stop : (w.syncHook s run).Stop,
      stop.ChunksKept ↔ stop.committed = true ∨ postCount stop.done ≤ 1) ∧
    ∀ stop : (handoff.handoffHook jobs syncEvents runId start).Stop,
      stop.ChunksKept ↔ stop.committed = true ∨ postCount stop.done ≤ 1 :=
  ⟨fun stop => stop.chunksKept_iff, fun stop => stop.chunksKept_iff⟩

/-- A sync of two jobs, one a chunk. -/
def oneJobChunks : BackendSyncWorker.SyncRun := ⟨twoJobs, { scrapeRunId := none, limit := 10, batchSize := some 1 }⟩

/-- A sync whose chunks are all acknowledged and recorded, stopped before the commit. -/
def stoppedSync : ((plainWorker 3 fun _ _ => accepted).syncHook (.initial 0) oneJobChunks).Stop where
  done := ((plainWorker 3 fun _ _ => accepted).syncHook (.initial 0) oneJobChunks).log
  left := []
  split := List.append_nil _
  committed := false
  whole := nofun

/-- The event of the first chunk was sent, and is unknown after the restart. -/
theorem first_chunk_lost : ¬ stoppedSync.ChunksKept ∧
    stoppedSync.session ((plainWorker 3 fun _ _ => accepted).keyOf twoJobs (plainJob "a" "Ac" 0))
      = some ⟨.sent, 1⟩ ∧
    stoppedSync.durable ((plainWorker 3 fun _ _ => accepted).keyOf twoJobs (plainJob "a" "Ac" 0))
      = none := by
  refine ⟨?_, by decide +kernel, by decide +kernel⟩
  rw [Run.Stop.chunksKept_iff]
  decide +kernel

end Bisakerja
