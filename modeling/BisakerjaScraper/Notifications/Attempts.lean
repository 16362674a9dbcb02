import BisakerjaScraper.Notifications.Logged
import BisakerjaScraper.Schemes.Outbox

/-! What a handoff run does to the marks of its events.

    Preparing starts the events that are missing. When the run selects no event twice, the chunks
    hold distinct events that are due, each is attempted once, and every other mark stays. -/

namespace Bisakerja
open Schemes Schemes.Delivery

/-- From one session to a later one by legal entries, with these chunks. -/
abbrev HandoffMoves (budget : ℕ) (posts : List (List HandoffKey)) (s s' : HandoffState) : Prop :=
  Moves budget HandoffState.log (fun s => handoffLedger s.events) posts s s'

/-- The key `prepare_event` computes. -/
def handoffKey (runId : String) (syncEvent : SyncEvent) : HandoffKey :=
  ⟨runId, syncEvent.sourcePlatform, syncEvent.externalId, "backend-notifications"⟩

/-- The marks when the events of some keys have been prepared. -/
def preparedMarks (keys : List HandoffKey) (l : Ledger HandoffKey) : Ledger HandoffKey :=
  fun k => if k ∈ keys then some ((l k).getD .fresh) else l k

theorem NotificationHandoffEvent.succeed_mark (event : NotificationHandoffEvent)
    (result : HandoffSuccess) (now : Time) : (event.succeed result now).mark = event.mark.succeed :=
  rfl

theorem NotificationHandoffEvent.fail_mark (event : NotificationHandoffEvent)
    (failure : HandoffFailure) (maxAttempts : ℕ) (now later : Time) :
    (event.fail failure maxAttempts now later).mark = event.mark.fail maxAttempts := by
  by_cases h : maxAttempts ≤ event.attemptCount + 1 <;>
    simp [NotificationHandoffEvent.fail, NotificationHandoffEvent.mark, Mark.fail,
      HandoffStatus.delivery, h]

theorem isRetryableHandoff_iff {event : NotificationHandoffEvent} {maxAttempts : ℕ} :
    isRetryableHandoff event maxAttempts = true ↔ event.mark.Retryable maxAttempts := by
  rcases hstatus : event.status <;>
    simp [isRetryableHandoff, Mark.Retryable, NotificationHandoffEvent.mark,
      HandoffStatus.delivery, hstatus]

namespace RecommendationHandoffWorker

variable {w : RecommendationHandoffWorker} {budget : ℕ} {s s' : HandoffState} {key : HandoffKey}
  {runId : String}

/-! ### Preparing -/

theorem prepareFound_marks (w : RecommendationHandoffWorker) (key : HandoffKey)
    (syncEvent : SyncEvent) (job : NormalizedJob) (payload : Dict) (s : HandoffState) :
    handoffLedger (w.prepareFound key syncEvent job payload s).events
      = preparedMarks [key] (handoffLedger s.events) := by
  funext k
  cases hfind : s.events.find? key with
  | some event =>
    rw [(prepareFound_of_some _ _ _ _ hfind).2]
    by_cases hk : k = key
    · subst hk
      simp [preparedMarks, handoffLedger, rowMarks, hfind]
    · simp [preparedMarks, hk]
  | none =>
    rw [(prepareFound_of_none _ _ _ _ hfind).2]
    by_cases hk : k = key
    · subst hk
      simp [preparedMarks, handoffLedger, rowMarks, hfind]
    · simp [preparedMarks, hk]

theorem moves_prepareFound (budget : ℕ) (w : RecommendationHandoffWorker) (key : HandoffKey)
    (syncEvent : SyncEvent) (job : NormalizedJob) (payload : Dict) (s : HandoffState) :
    HandoffMoves budget [] s (w.prepareFound key syncEvent job payload s) := by
  cases hfind : s.events.find? key with
  | some event =>
    obtain ⟨hlog, hmarks⟩ := prepareFound_of_some w syncEvent job payload hfind
    exact .of_eq hlog hmarks
  | none =>
    obtain ⟨hlog, hmarks⟩ := prepareFound_of_none w syncEvent job payload hfind
    exact .wrote hlog hmarks (.inl ⟨by simp [handoffLedger, rowMarks, hfind], rfl⟩)

theorem preparedMarks_cons (key : HandoffKey) (keys : List HandoffKey) (l : Ledger HandoffKey) :
    preparedMarks keys (preparedMarks [key] l) = preparedMarks (key :: keys) l := by
  funext k
  by_cases hk : k = key <;> by_cases hmem : k ∈ keys <;> simp [preparedMarks, hk, hmem]

/-- What is left when all events are prepared: nothing was posted, and the prepared ones exist. -/
theorem prepareEvents_ok {jobs : NormalizedJobs} {syncEvents : List SyncEvent}
    {keys : List HandoffKey} (hrun : ∀ syncEvent ∈ syncEvents, syncEvent.scrapeRunId = some runId)
    (h : w.prepareEvents jobs syncEvents s = (.ok keys, s')) :
    keys = syncEvents.map (handoffKey runId) ∧
      handoffLedger s'.events = preparedMarks keys (handoffLedger s.events) := by
  induction syncEvents generalizing s keys with
  | nil =>
    cases h
    refine ⟨rfl, ?_⟩
    funext k
    simp [preparedMarks]
  | cons syncEvent rest ih =>
    obtain ⟨key, s₁, hone, h⟩ := Stateful.bind_ok_iff.mp h
    obtain ⟨keys', s₂, hrest, h⟩ := Stateful.bind_ok_iff.mp h
    cases h
    obtain ⟨rfl, hmarks⟩ := ih (fun e he => hrun e (List.mem_cons_of_mem _ he)) hrest
    have hrunId := hrun syncEvent List.mem_cons_self
    cases hjob : jobs.find? syncEvent.normalizedJobId with
    | none =>
      simp only [prepareEvent, hrunId, hjob] at hone
      cases hone
    | some job =>
      simp only [prepareEvent, hrunId, hjob] at hone
      cases hone
      refine ⟨rfl, ?_⟩
      rw [hmarks, prepareFound_marks, preparedMarks_cons]

theorem moves_prepareEvents (budget : ℕ) (w : RecommendationHandoffWorker) (jobs : NormalizedJobs)
    (s₀ : HandoffState) (syncEvents : List SyncEvent) :
    Keeps (HandoffMoves budget [] s₀) (w.prepareEvents jobs syncEvents) := by
  induction syncEvents with
  | nil => exact .pure _
  | cons syncEvent rest ih =>
    refine .bind ?_ fun key => .bind ih fun keys => .pure _
    unfold prepareEvent
    split
    · exact .raise _
    · split
      · exact .raise _
      · exact .update fun s hs => hs.trans (moves_prepareFound ..)

/-! ### Recording and sending -/

/-- The events of a chunk are due. -/
def DueIn (w : RecommendationHandoffWorker) (s : HandoffState) (key : HandoffKey) : Prop :=
  ∃ m, handoffLedger s.events key = some m ∧ m.Retryable w.maxAttempts

theorem recordAnswer_other (w : RecommendationHandoffWorker)
    (answer : Except HandoffException HandoffSuccess) (s : HandoffState) {key k : HandoffKey}
    (h : key ≠ k) :
    handoffLedger (w.recordAnswer answer s key).events k = handoffLedger s.events k := by
  have hrecord : ∀ (f : NotificationHandoffEvent → NotificationHandoffEvent)
      (hf : ∀ event, (f event).key = event.key) (ticks : ℕ),
      handoffLedger (s.record key f hf ticks).events k = handoffLedger s.events k := by
    intro f hf ticks
    cases hfind : s.events.find? key with
    | none => simp only [HandoffState.record, hfind]
    | some event => rw [(record_of_some hf ticks hfind).2, Function.update_of_ne (Ne.symm h)]
  rcases answer with exc | result
  · exact hrecord ..
  · exact hrecord ..

/-- Recording an answer for an event that is due is one legal attempt. -/
theorem moves_recordAnswer (hbudget : w.maxAttempts ≤ budget)
    (answer : Except HandoffException HandoffSuccess) (hdue : w.DueIn s key) :
    HandoffMoves budget [] s (w.recordAnswer answer s key) := by
  obtain ⟨m, hm, hretryable⟩ := hdue
  obtain ⟨event, hfind, rfl⟩ := handoffLedger_eq_some.mp hm
  have hlegal := hretryable.mono hbudget
  rcases answer with exc | result
  · obtain ⟨hlog, hmarks⟩ := record_of_some (f := (·.fail ⟨exc.className, exc.message,
      exc.responseSummary⟩ w.maxAttempts (w.host.utcNow s.ticks) (w.host.utcNow (s.ticks + 1))))
      (fun _ => rfl) 2 hfind
    refine .wrote hlog hmarks (.inr ⟨_, hm, ?_⟩)
    rw [NotificationHandoffEvent.fail_mark]
    exact .fail hlegal hbudget
  · obtain ⟨hlog, hmarks⟩ := record_of_some (f := (·.succeed result (w.host.utcNow s.ticks)))
      (fun _ => rfl) 1 hfind
    exact .wrote hlog hmarks (.inr ⟨_, hm, .succeed hlegal⟩)

theorem records_other (w : RecommendationHandoffWorker)
    (answer : Except HandoffException HandoffSuccess) {keys : List HandoffKey} {k : HandoffKey}
    (s : HandoffState) (h : k ∉ keys) :
    handoffLedger (keys.foldl (w.recordAnswer answer) s).events k = handoffLedger s.events k := by
  induction keys generalizing s with
  | nil => rfl
  | cons key rest ih =>
    rw [List.mem_cons, not_or] at h
    rw [List.foldl_cons, ih _ h.2, w.recordAnswer_other answer s (Ne.symm h.1)]

theorem sendChunk_other (w : RecommendationHandoffWorker) (runId : String) {keys : List HandoffKey}
    (s : HandoffState) {k : HandoffKey} (h : k ∉ keys) :
    handoffLedger (w.sendChunk runId keys s).events k = handoffLedger s.events k :=
  w.records_other (w.chunkAnswer runId keys s) (posted keys s) h

/-- A chunk of distinct events that are due is posted, and each of them is attempted once. -/
theorem moves_sendChunk (hbudget : w.maxAttempts ≤ budget) (runId : String)
    {keys : List HandoffKey} (hnodup : keys.Nodup) (hdue : ∀ k ∈ keys, w.DueIn s k) :
    HandoffMoves budget [keys] s (w.sendChunk runId keys s) := by
  have hposted : HandoffMoves budget [keys] s (posted keys s) :=
    .posted rfl rfl hnodup fun k hk => by
      obtain ⟨m, hm, hretryable⟩ := hdue k hk
      exact ⟨m, hm, hretryable.mono hbudget⟩
  refine hposted.trans (sweep_rel id (w.recordAnswer (w.chunkAnswer runId keys s))
    (HandoffMoves budget []) w.DueIn .refl (fun _ _ _ h h' => h.trans h')
    (fun s k hk => moves_recordAnswer hbudget _ hk) ?_ keys (posted keys s) (by simpa using hnodup)
    hdue)
  intro s i j hne hj
  change i ≠ j at hne
  rw [DueIn, w.recordAnswer_other _ s hne]
  exact hj

/-- Chunks of distinct events that are due are posted one after the other. -/
theorem moves_sendChunks (hbudget : w.maxAttempts ≤ budget) (runId : String) :
    ∀ (chunks : List (List HandoffKey)) (result : HandoffWorkerResult) (s : HandoffState),
      chunks.flatten.Nodup → (∀ k ∈ chunks.flatten, w.DueIn s k) →
      HandoffMoves budget chunks s (w.sendChunks runId chunks result s).2
  | [], _, s, _, _ => .refl s
  | keys :: rest, result, s, hnodup, hdue => by
    rw [List.flatten_cons, List.nodup_append] at hnodup
    obtain ⟨hkeys, hrest, hdisjoint⟩ := hnodup
    have hchunk : HandoffMoves budget [keys] s (w.sendChunk runId keys s) :=
      moves_sendChunk hbudget runId hkeys fun k hk => hdue k (by simp [hk])
    refine hchunk.trans (moves_sendChunks hbudget runId rest _ _ hrest fun k hk => ?_)
    rw [DueIn, w.sendChunk_other runId s fun hmem => hdisjoint k hmem k hk rfl]
    exact hdue k (by rw [List.flatten_cons]; exact List.mem_append_right _ hk)

theorem counts_sendChunks (w : RecommendationHandoffWorker) (runId : String)
    (chunks : List (List HandoffKey)) (result : HandoffWorkerResult) (s : HandoffState) :
    (w.sendChunks runId chunks result s).1.attempted = result.attempted ∧
      (w.sendChunks runId chunks result s).1.sent + (w.sendChunks runId chunks result s).1.failed
        = result.sent + result.failed + chunks.flatten.length := by
  induction chunks generalizing result s with
  | nil => exact ⟨rfl, rfl⟩
  | cons keys rest ih =>
    obtain ⟨hattempted, hcounts⟩ := ih (HandoffWorkerResult.addChunk result keys.length
      (w.chunkAnswer runId keys s)) (w.sendChunk runId keys s)
    rw [sendChunks, hattempted, hcounts, List.flatten_cons, List.length_append]
    rcases w.chunkAnswer runId keys s with exc | answer <;>
      simp only [HandoffWorkerResult.addChunk] <;> exact ⟨trivial, by omega⟩

end RecommendationHandoffWorker

end Bisakerja
