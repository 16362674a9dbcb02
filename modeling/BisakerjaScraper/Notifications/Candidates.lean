import BisakerjaScraper.Notifications.StateMachine

/-! What a handoff run posts.

    Whatever a run selects, its posts are the chunks of the prepared events that were due, and each
    candidate in them carries the payload that was prepared for its job and the run. -/

namespace Bisakerja
open Schemes Schemes.Delivery

/-- A run has prepared a candidate under a key. -/
def PreparedFor (w : RecommendationHandoffWorker) (jobs : NormalizedJobs) (runId : String)
    (syncEvents : List SyncEvent) (events : HandoffEvents) (key : HandoffKey) : Prop :=
  ∃ syncEvent ∈ syncEvents, ∃ job event, handoffKey runId syncEvent = key ∧
    jobs.find? syncEvent.normalizedJobId = some job ∧ events.find? key = some event ∧
    event.normalizedJobId = job.id ∧
    event.payloadJson = candidatePayloadFrom w.isoformat syncEvent runId job

/-- Every event is there later, with the same job and payload. -/
def SamePayloads (s s' : HandoffState) : Prop :=
  ∀ k event, s.events.find? k = some event → ∃ event', s'.events.find? k = some event' ∧
    event'.normalizedJobId = event.normalizedJobId ∧ event'.payloadJson = event.payloadJson

theorem SamePayloads.refl (s : HandoffState) : SamePayloads s s :=
  fun _ event h => ⟨event, h, rfl, rfl⟩

theorem SamePayloads.trans {s s' s'' : HandoffState} (h : SamePayloads s s')
    (h' : SamePayloads s' s'') : SamePayloads s s'' := by
  intro k event hevent
  obtain ⟨event', hevent', hjob, hpayload⟩ := h k event hevent
  obtain ⟨event'', hevent'', hjob', hpayload'⟩ := h' k event' hevent'
  exact ⟨event'', hevent'', hjob'.trans hjob, hpayload'.trans hpayload⟩

theorem PreparedFor.mono {w : RecommendationHandoffWorker} {jobs : NormalizedJobs} {runId : String}
    {syncEvents : List SyncEvent} {s s' : HandoffState} {key : HandoffKey}
    (h : PreparedFor w jobs runId syncEvents s.events key) (hsame : SamePayloads s s') :
    PreparedFor w jobs runId syncEvents s'.events key := by
  obtain ⟨syncEvent, hmem, job, event, hkey, hjob, hfind, hid, hpayload⟩ := h
  obtain ⟨event', hfind', hid', hpayload'⟩ := hsame key event hfind
  exact ⟨syncEvent, hmem, job, event', hkey, hjob, hfind', hid'.trans hid, hpayload'.trans hpayload⟩

namespace RecommendationHandoffWorker

variable {w : RecommendationHandoffWorker} {s s' : HandoffState} {key : HandoffKey} {runId : String}

/-! ### Preparing -/

theorem prepareFound_self (w : RecommendationHandoffWorker) (key : HandoffKey)
    (syncEvent : SyncEvent) (job : NormalizedJob) (payload : Dict) (s : HandoffState) :
    ∃ event, (w.prepareFound key syncEvent job payload s).events.find? key = some event ∧
      event.normalizedJobId = job.id ∧ event.payloadJson = payload := by
  cases hfind : s.events.find? key with
  | some event =>
    simp only [prepareFound, hfind]
    exact ⟨_, (s.events.find?_modify_self key (·.refresh syncEvent.id job.id
      (w.hash.digest (.dict payload)) payload (w.host.utcNow s.ticks)) fun _ => rfl).trans
      (congrArg _ hfind), rfl, rfl⟩
  | none =>
    simp only [prepareFound, hfind]
    exact ⟨_, s.events.find?_insert_self (r := w.newHandoff key syncEvent job payload s.ticks) hfind,
      rfl, rfl⟩

theorem prepareFound_other {k : HandoffKey} (hne : key ≠ k) (syncEvent : SyncEvent)
    (job : NormalizedJob) (payload : Dict) :
    (w.prepareFound key syncEvent job payload s).events.find? k = s.events.find? k := by
  cases hfind : s.events.find? key with
  | some event =>
    simp only [prepareFound, hfind]
    exact s.events.find?_modify_of_ne _ _ hne
  | none =>
    simp only [prepareFound, hfind]
    exact s.events.find?_insert_of_ne (r := w.newHandoff key syncEvent job payload s.ticks) hne

/-- All events are prepared exactly when the job of each is there. -/
theorem prepareEvents_isOk {jobs : NormalizedJobs} {syncEvents : List SyncEvent}
    (hrun : ∀ syncEvent ∈ syncEvents, syncEvent.scrapeRunId = some runId) :
    (w.prepareEvents jobs syncEvents s).1.isOk = true ↔
      ∀ syncEvent ∈ syncEvents, (jobs.find? syncEvent.normalizedJobId).isSome = true := by
  induction syncEvents generalizing s with
  | nil => exact iff_of_true rfl (by simp)
  | cons syncEvent rest ih =>
    have hrest : ∀ e ∈ rest, e.scrapeRunId = some runId :=
      fun e he => hrun e (List.mem_cons_of_mem _ he)
    rw [List.forall_mem_cons]
    cases hjob : jobs.find? syncEvent.normalizedJobId with
    | none =>
      have hraise : w.prepareEvent jobs syncEvent s
          = (.error (.plain "ValueError" "sync event missing normalized job"), s) := by
        simp only [prepareEvent, hrun syncEvent List.mem_cons_self, hjob]
        rfl
      refine iff_of_false (fun hok => ?_) (by simp)
      change (Stateful.bind (w.prepareEvent jobs syncEvent) _ s).1.isOk = true at hok
      simp only [Stateful.bind, hraise] at hok
      cases hok
    | some job =>
      have hone : ∃ s₁, w.prepareEvent jobs syncEvent s = (.ok (handoffKey runId syncEvent), s₁) := by
        simp only [prepareEvent, hrun syncEvent List.mem_cons_self, hjob]
        exact ⟨_, rfl⟩
      obtain ⟨s₁, hone⟩ := hone
      have hbind : (w.prepareEvents jobs (syncEvent :: rest) s).1.isOk
          = (w.prepareEvents jobs rest s₁).1.isOk := by
        change (Stateful.bind (w.prepareEvent jobs syncEvent) _ s).1.isOk = _
        simp only [Stateful.bind, hone]
        change (Stateful.bind (w.prepareEvents jobs rest) _ s₁).1.isOk = _
        unfold Stateful.bind
        rcases w.prepareEvents jobs rest s₁ with ⟨exc | keys, s₂⟩ <;> rfl
      rw [hbind, ih hrest]
      simp

/-- What one event prepares is there, and what was prepared before is prepared still. -/
theorem preparedFor_prepareEvent {jobs : NormalizedJobs} {syncEvent : SyncEvent}
    {all : List SyncEvent} (hmem : syncEvent ∈ all) (hrun : syncEvent.scrapeRunId = some runId)
    (h : w.prepareEvent jobs syncEvent s = (.ok key, s')) :
    PreparedFor w jobs runId all s'.events key ∧
      ∀ k, PreparedFor w jobs runId all s.events k → PreparedFor w jobs runId all s'.events k := by
  cases hjob : jobs.find? syncEvent.normalizedJobId with
  | none =>
    simp only [prepareEvent, hrun, hjob] at h
    cases h
  | some job =>
    simp only [prepareEvent, hrun, hjob] at h
    cases h
    have hself : PreparedFor w jobs runId all (w.prepareFound (handoffKey runId syncEvent) syncEvent
        job (candidatePayloadFrom w.isoformat syncEvent runId job) s).events
        (handoffKey runId syncEvent) := by
      obtain ⟨event, hfind, hid, hpayload⟩ := w.prepareFound_self (handoffKey runId syncEvent)
        syncEvent job (candidatePayloadFrom w.isoformat syncEvent runId job) s
      exact ⟨syncEvent, hmem, job, event, rfl, hjob, hfind, hid, hpayload⟩
    refine ⟨hself, fun k hk => ?_⟩
    by_cases hne : handoffKey runId syncEvent = k
    · rw [← hne]
      exact hself
    · obtain ⟨other, hother, otherJob, event, hkey, hfound, hfind, hrest⟩ := hk
      exact ⟨other, hother, otherJob, event, hkey, hfound,
        (prepareFound_other hne syncEvent job _).trans hfind, hrest⟩

theorem preparedFor_prepareEvents_of {jobs : NormalizedJobs} {all syncEvents : List SyncEvent}
    {keys : List HandoffKey} (hall : ∀ syncEvent ∈ syncEvents, syncEvent ∈ all)
    (hrun : ∀ syncEvent ∈ syncEvents, syncEvent.scrapeRunId = some runId)
    (h : w.prepareEvents jobs syncEvents s = (.ok keys, s')) :
    (∀ key ∈ keys, PreparedFor w jobs runId all s'.events key) ∧
      ∀ k, PreparedFor w jobs runId all s.events k → PreparedFor w jobs runId all s'.events k := by
  induction syncEvents generalizing s keys with
  | nil =>
    cases h
    exact ⟨nofun, fun _ => id⟩
  | cons syncEvent rest ih =>
    obtain ⟨key, s₁, hone, h⟩ := Stateful.bind_ok_iff.mp h
    obtain ⟨keys', s₂, hrest, h⟩ := Stateful.bind_ok_iff.mp h
    cases h
    obtain ⟨hkey, hkept⟩ := preparedFor_prepareEvent (hall syncEvent List.mem_cons_self)
      (hrun syncEvent List.mem_cons_self) hone
    obtain ⟨hkeys, hkept'⟩ := ih (fun e he => hall e (List.mem_cons_of_mem _ he))
      (fun e he => hrun e (List.mem_cons_of_mem _ he)) hrest
    refine ⟨fun k hk => ?_, fun k hk => hkept' k (hkept k hk)⟩
    rcases List.mem_cons.mp hk with rfl | hk
    · exact hkept' _ hkey
    · exact hkeys k hk

/-- When all events are prepared, each key has a candidate of the run. -/
theorem preparedFor_prepareEvents {jobs : NormalizedJobs} {syncEvents : List SyncEvent}
    {keys : List HandoffKey} (hrun : ∀ syncEvent ∈ syncEvents, syncEvent.scrapeRunId = some runId)
    (h : w.prepareEvents jobs syncEvents s = (.ok keys, s')) :
    ∀ key ∈ keys, PreparedFor w jobs runId syncEvents s'.events key :=
  (preparedFor_prepareEvents_of (fun _ => id) hrun h).1

/-! ### Sending -/

theorem samePayloads_recordAnswer (w : RecommendationHandoffWorker)
    (answer : Except HandoffException HandoffSuccess) (s : HandoffState) (key : HandoffKey) :
    SamePayloads s (w.recordAnswer answer s key) := by
  have hrecord : ∀ (f : NotificationHandoffEvent → NotificationHandoffEvent)
      (hf : ∀ event, (f event).key = event.key) (ticks : ℕ),
      (∀ event, (f event).normalizedJobId = event.normalizedJobId ∧
        (f event).payloadJson = event.payloadJson) → SamePayloads s (s.record key f hf ticks) := by
    intro f hf ticks hsame k event hevent
    cases hfind : s.events.find? key with
    | none =>
      simp only [HandoffState.record, hfind]
      exact ⟨event, hevent, rfl, rfl⟩
    | some event₀ =>
      simp only [HandoffState.record, hfind]
      by_cases hk : key = k
      · subst hk
        rw [Table.find?_modify_self, hevent]
        exact ⟨_, rfl, hsame event⟩
      · rw [Table.find?_modify_of_ne _ _ _ hk]
        exact ⟨event, hevent, rfl, rfl⟩
  rcases answer with exc | result
  · exact hrecord _ _ _ fun event => ⟨rfl, rfl⟩
  · exact hrecord _ _ _ fun event => ⟨rfl, rfl⟩

theorem samePayloads_sendChunks (w : RecommendationHandoffWorker) (runId : String) :
    ∀ (chunks : List (List HandoffKey)) (result : HandoffWorkerResult) (s : HandoffState),
      SamePayloads s (w.sendChunks runId chunks result s).2
  | [], _, s => .refl s
  | keys :: rest, result, s => by
    have hchunk : SamePayloads s (w.sendChunk runId keys s) :=
      foldl_rel (R := SamePayloads) .refl (fun _ _ _ => .trans)
        (w.samePayloads_recordAnswer (w.chunkAnswer runId keys s)) keys (posted keys s)
    exact hchunk.trans (samePayloads_sendChunks w runId rest _ _)

theorem postsOf_recordAnswer (w : RecommendationHandoffWorker)
    (answer : Except HandoffException HandoffSuccess) (s : HandoffState) (key : HandoffKey) :
    postsOf (w.recordAnswer answer s key).log = postsOf s.log := by
  obtain ⟨more, hlog, -, hquiet, -⟩ := w.records_recordAnswer answer s key
  rw [hlog, postsOf_append, postsOf_of_quiet hquiet, List.append_nil]

/-- The chunks are posted in order, and nothing else is. -/
theorem postsOf_sendChunks (w : RecommendationHandoffWorker) (runId : String)
    (chunks : List (List HandoffKey)) (result : HandoffWorkerResult) (s : HandoffState) :
    postsOf (w.sendChunks runId chunks result s).2.log = postsOf s.log ++ chunks := by
  induction chunks generalizing result s with
  | nil => exact (List.append_nil _).symm
  | cons keys rest ih =>
    have hchunk : postsOf (w.sendChunk runId keys s).log = postsOf s.log ++ [keys] := by
      have hfold := foldl_unchanged (f := fun s : HandoffState => postsOf s.log)
        (w.postsOf_recordAnswer (w.chunkAnswer runId keys s)) keys (posted keys s)
      exact hfold.trans (postsOf_append ..)
    rw [sendChunks, ih, hchunk, List.append_assoc, List.singleton_append]

end RecommendationHandoffWorker

/-! ### The run -/

namespace HandoffRun

variable {run : HandoffRun} {s : HandoffState}

/-- The chunks a call posts. -/
def posts (run : HandoffRun) (s : HandoffState) : List (List HandoffKey) :=
  (postsOf (run.next s).log).drop (postsOf s.log).length

/-- Each selected sync event has its job. -/
def JobsFound (run : HandoffRun) : Prop :=
  ∀ syncEvent ∈ run.selected, (run.jobs.find? syncEvent.normalizedJobId).isSome = true

/-- No selected event is due, or one has no job and the call raises. -/
def NothingDue (run : HandoffRun) (s : HandoffState) : Prop :=
  run.JobsFound → ∀ k ∈ run.keys, ¬ Due run.worker.maxAttempts (handoffLedger s.events k)

/-- What a call posts: nothing where it raises, else the prepared events that were due. -/
theorem posts_cases (run : HandoffRun) (s : HandoffState) :
    (¬ run.JobsFound ∧ run.posts s = []) ∨
      (run.JobsFound ∧ ∃ s₁, run.posts s = run.chunksOf s₁ ∧
        handoffLedger s₁.events = preparedMarks run.keys (handoffLedger s.events) ∧
        ∀ k ∈ run.keys, PreparedFor run.worker run.jobs run.scrapeRunId run.selected
          (run.next s).events k) := by
  have hok : (run.worker.prepareEvents run.jobs run.selected s).1.isOk = true ↔ run.JobsFound :=
    RecommendationHandoffWorker.prepareEvents_isOk fun _ => scrapeRunId_of_selected
  have hmoves := (RecommendationHandoffWorker.moves_prepareEvents 0 run.worker run.jobs s
    run.selected).of_run (.refl s)
  obtain ⟨more, hmore, -, -, hquiet⟩ := hmoves
  have hlog : postsOf (run.worker.prepareEvents run.jobs run.selected s).2.log = postsOf s.log := by
    rw [hmore, postsOf_append, hquiet, List.append_nil]
  rcases hprepared : run.worker.prepareEvents run.jobs run.selected s with ⟨exc | keys, s₁⟩
  · rw [hprepared] at hok hlog
    have hnext : run.next s = s₁ := by
      change (Stateful.bind (run.worker.prepareEvents run.jobs run.selected) _ s).2 = _
      simp only [Stateful.bind, hprepared]
    refine .inl ⟨fun h => absurd (hok.mpr h) (by simp [Except.isOk, Except.toBool]), ?_⟩
    rw [posts, hnext, hlog, List.drop_length]
  · rw [hprepared] at hok hlog
    obtain ⟨hkeys, hmarks⟩ := RecommendationHandoffWorker.prepareEvents_ok
      (fun _ => scrapeRunId_of_selected) hprepared
    have hcandidates := RecommendationHandoffWorker.preparedFor_prepareEvents
      (fun _ => scrapeRunId_of_selected) hprepared
    subst hkeys
    have hnext : run.next s = (run.worker.sendChunks run.scrapeRunId (run.chunksOf s₁)
        { attempted := (run.worker.retryableEvents run.keys s₁.events).length } s₁).2 := by
      change (Stateful.bind (run.worker.prepareEvents run.jobs run.selected) _ s).2 = _
      simp only [Stateful.bind, hprepared]
      rfl
    refine .inr ⟨hok.mp rfl, s₁, ?_, hmarks, fun k hk => ?_⟩
    · rw [posts, hnext, RecommendationHandoffWorker.postsOf_sendChunks, hlog, List.drop_left]
    · rw [hnext]
      exact (hcandidates k hk).mono (run.worker.samePayloads_sendChunks run.scrapeRunId _ _ s₁)

theorem mem_posts {k : HandoffKey} (h : k ∈ (run.posts s).flatten) : run.JobsFound ∧
    k ∈ run.keys ∧ Due run.worker.maxAttempts (handoffLedger s.events k) ∧
    PreparedFor run.worker run.jobs run.scrapeRunId run.selected (run.next s).events k := by
  rcases posts_cases run s with ⟨-, hnil⟩ | ⟨hfound, s₁, hposts, hmarks, hcandidates⟩
  · rw [hnil] at h
    cases h
  · rw [hposts, mem_flatten_chunksOf hmarks] at h
    exact ⟨hfound, h.1, h.2, hcandidates k h.1⟩

/-- A call posts nothing exactly when nothing is due. -/
theorem posts_flatten_eq_nil_iff : (run.posts s).flatten = [] ↔ run.NothingDue s := by
  rcases posts_cases run s with ⟨hmissing, hnil⟩ | ⟨hfound, s₁, hposts, hmarks, -⟩
  · rw [hnil]
    exact iff_of_true rfl fun h => absurd h hmissing
  · rw [hposts, List.eq_nil_iff_forall_not_mem]
    simp only [mem_flatten_chunksOf hmarks, not_and]
    exact ⟨fun h _ => h, fun h => h hfound⟩

end HandoffRun

end Bisakerja
