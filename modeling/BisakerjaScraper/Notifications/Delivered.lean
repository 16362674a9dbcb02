import BisakerjaScraper.Notifications.Candidates

/-! What a delivered handoff keeps.

    `prepare_event` refreshes an existing row before its status is looked at. The row of an event
    that is sent or dead is not posted again, so it is what was delivered as long as the candidate
    built for it is the one it holds. -/

namespace Bisakerja
open Schemes Schemes.Delivery

/-- A delivered event: sent, or given up. -/
def NotificationHandoffEvent.Settled (event : NotificationHandoffEvent) : Prop :=
  event.status = .sent ∨ event.status = .deadLetter

/-- The candidates in the post of a chunk, with the keys of their events. -/
def chunkCandidates (keys : List HandoffKey) (events : HandoffEvents) : List (HandoffKey × Dict) :=
  keys.filterMap fun key => (events.find? key).map fun event => (key, event.payloadJson)

/-- The candidate under a key in the last post that has one. -/
def lastPost (candidates : List (HandoffKey × Dict)) (k : HandoffKey) : Option Dict :=
  candidates.reverse.lookup k

/-- The payload of the row under a key. -/
def HandoffState.payloadAt (s : HandoffState) (k : HandoffKey) : Option Dict :=
  (s.events.find? k).map NotificationHandoffEvent.payloadJson

/-- The payload of the row under a key, with its hash. -/
def HandoffState.contentAt (s : HandoffState) (k : HandoffKey) : Option (Dict × String) :=
  (s.events.find? k).map fun event => (event.payloadJson, event.payloadHash)

/-- The row under a key has the hash of its payload. -/
def Hashed (hash : StableHash) (k : HandoffKey) (s : HandoffState) : Prop :=
  ∀ event, s.events.find? k = some event →
    event.payloadHash = hash.digest (.dict event.payloadJson)

/-- The row under a key, if it is delivered, has the given payload. -/
def DeliveredAs (k : HandoffKey) (delivered : Option Dict) (s : HandoffState) : Prop :=
  ∀ event, s.events.find? k = some event → event.Settled → delivered = some event.payloadJson

theorem HandoffState.payloadAt_eq (s : HandoffState) (k : HandoffKey) :
    s.payloadAt k = (s.contentAt k).map Prod.fst := by
  rw [payloadAt, contentAt, Option.map_map]
  rfl

/-- These are the candidates of the post. -/
theorem chunkPayload_eq (runId : String) (keys : List HandoffKey) (events : HandoffEvents) :
    RecommendationHandoffWorker.chunkPayload runId keys events = .dict [("runId", .str runId),
      ("candidates", .list ((chunkCandidates keys events).map fun c => .dict c.2))] := by
  rw [RecommendationHandoffWorker.chunkPayload, chunkCandidates, List.map_filterMap]
  simp only [Option.map_map]
  rfl

theorem mem_chunkCandidates {keys : List HandoffKey} {s : HandoffState} {k : HandoffKey}
    {payload : Dict} : (k, payload) ∈ chunkCandidates keys s.events ↔
      k ∈ keys ∧ s.payloadAt k = some payload := by
  simp only [chunkCandidates, List.mem_filterMap, HandoffState.payloadAt, Option.map_eq_some_iff,
    Prod.mk.injEq]
  constructor
  · rintro ⟨key, hkey, event, hevent, rfl, rfl⟩
    exact ⟨hkey, event, hevent, rfl⟩
  · rintro ⟨hkey, event, hevent, rfl⟩
    exact ⟨k, hkey, event, hevent, rfl, rfl⟩

theorem lastPost_append (before after : List (HandoffKey × Dict)) (k : HandoffKey) :
    lastPost (before ++ after) k = (lastPost after k).or (lastPost before k) := by
  rw [lastPost, List.reverse_append, List.lookup_append]
  rfl

theorem lastPost_eq_none {candidates : List (HandoffKey × Dict)} {k : HandoffKey}
    (h : ∀ payload, (k, payload) ∉ candidates) : lastPost candidates k = none := by
  refine List.lookup_eq_none_iff.mpr fun c hc => ?_
  have hne : k ≠ c.1 := fun hk => h c.2 (hk ▸ List.mem_reverse.mp hc)
  simpa using hne

theorem lastPost_eq_some {candidates : List (HandoffKey × Dict)} {k : HandoffKey} {payload : Dict}
    (hmem : (k, payload) ∈ candidates) (hone : ∀ p, (k, p) ∈ candidates → p = payload) :
    lastPost candidates k = some payload := by
  cases hlast : lastPost candidates k with
  | none =>
    have hnone := List.lookup_eq_none_iff.mp hlast (k, payload) (List.mem_reverse.mpr hmem)
    simp at hnone
  | some p =>
    obtain ⟨before, after, hsplit, -⟩ := List.lookup_eq_some_iff.mp hlast
    have hp : (k, p) ∈ candidates := List.mem_reverse.mp (hsplit ▸ by simp)
    rw [hone p hp]

namespace RecommendationHandoffWorker

/-- The candidates the loop over the chunks posts. -/
def sentCandidates (w : RecommendationHandoffWorker) (runId : String) :
    List (List HandoffKey) → HandoffState → List (HandoffKey × Dict)
  | [], _ => []
  | keys :: rest, s => chunkCandidates keys s.events ++ w.sentCandidates runId rest
      (w.sendChunk runId keys s)

variable {w : RecommendationHandoffWorker} {s : HandoffState} {key k : HandoffKey} {runId : String}
  {hash : StableHash}

/-! ### Preparing -/

/-- The row under the prepared key is refreshed or new. -/
theorem find?_prepareFound_self (w : RecommendationHandoffWorker) (key : HandoffKey)
    (syncEvent : SyncEvent) (job : NormalizedJob) (payload : Dict) (s : HandoffState) :
    (w.prepareFound key syncEvent job payload s).events.find? key = some
      (match s.events.find? key with
      | some event => event.refresh syncEvent.id job.id (w.hash.digest (.dict payload)) payload
          (w.host.utcNow s.ticks)
      | none => w.newHandoff key syncEvent job payload s.ticks) := by
  cases hfind : s.events.find? key with
  | some event =>
    simp only [prepareFound, hfind]
    exact (s.events.find?_modify_self key (·.refresh syncEvent.id job.id
      (w.hash.digest (.dict payload)) payload (w.host.utcNow s.ticks)) fun _ => rfl).trans
      (congrArg _ hfind)
  | none =>
    simp only [prepareFound, hfind]
    exact s.events.find?_insert_self (r := w.newHandoff key syncEvent job payload s.ticks) hfind

theorem hashed_prepareFound {syncEvent : SyncEvent} {job : NormalizedJob} {payload : Dict}
    (hhash : w.hash = hash) (h : Hashed hash k s) :
    Hashed hash k (w.prepareFound key syncEvent job payload s) := by
  subst hhash
  intro event hevent
  by_cases hk : key = k
  · subst hk
    rw [find?_prepareFound_self] at hevent
    cases hfind : s.events.find? key with
    | none =>
      rw [hfind] at hevent
      cases hevent
      rfl
    | some old =>
      rw [hfind] at hevent
      cases hevent
      rfl
  · rw [prepareFound_other hk] at hevent
    exact h event hevent

/-- An event that is delivered after it was prepared was so before, with the payload prepared now if
    the key is its own. -/
theorem settled_prepareFound {syncEvent : SyncEvent} {job : NormalizedJob} {payload : Dict}
    {event : NotificationHandoffEvent}
    (h : (w.prepareFound key syncEvent job payload s).events.find? k = some event)
    (hsettled : event.Settled) : ∃ old, s.events.find? k = some old ∧ old.Settled ∧
      event.payloadJson = if key = k then payload else old.payloadJson := by
  by_cases hk : key = k
  · subst hk
    rw [find?_prepareFound_self] at h
    cases hfind : s.events.find? key with
    | none =>
      rw [hfind] at h
      cases h
      rcases hsettled with hs | hs <;> cases hs
    | some old =>
      rw [hfind] at h
      cases h
      exact ⟨old, rfl, hsettled, (if_pos rfl).symm⟩
  · rw [prepareFound_other hk] at h
    exact ⟨event, h, hsettled, (if_neg hk).symm⟩

/-! ### Sending -/

theorem find?_record (s : HandoffState) (key k : HandoffKey)
    (f : NotificationHandoffEvent → NotificationHandoffEvent)
    (hf : ∀ event, (f event).key = event.key) (ticks : ℕ) :
    (s.record key f hf ticks).events.find? k
      = if key = k then (s.events.find? k).map f else s.events.find? k := by
  cases hfind : s.events.find? key with
  | some event =>
    simp only [HandoffState.record, hfind]
    exact s.events.find?_modify key f hf k
  | none =>
    simp only [HandoffState.record, hfind]
    split
    · next hk => rw [← hk, hfind, Option.map_none]
    · rfl

/-- An answer changes neither the payload nor the hash of a row, and only the rows of its chunk. -/
theorem find?_recordAnswer (w : RecommendationHandoffWorker)
    (answer : Except HandoffException HandoffSuccess) (s : HandoffState) (key k : HandoffKey) :
    ∃ f : NotificationHandoffEvent → NotificationHandoffEvent,
      (∀ event, (f event).payloadJson = event.payloadJson ∧
        (f event).payloadHash = event.payloadHash) ∧
      (w.recordAnswer answer s key).events.find? k
        = if key = k then (s.events.find? k).map f else s.events.find? k := by
  rcases answer with exc | result
  · refine ⟨_, fun event => ?_, find?_record ..⟩
    exact ⟨rfl, rfl⟩
  · refine ⟨_, fun event => ?_, find?_record ..⟩
    exact ⟨rfl, rfl⟩

theorem contentAt_recordAnswer (w : RecommendationHandoffWorker)
    (answer : Except HandoffException HandoffSuccess) (k : HandoffKey) (s : HandoffState)
    (key : HandoffKey) : (w.recordAnswer answer s key).contentAt k = s.contentAt k := by
  obtain ⟨f, hsame, hfind⟩ := w.find?_recordAnswer answer s key k
  rw [HandoffState.contentAt, HandoffState.contentAt, hfind]
  split
  · rw [Option.map_map]
    refine congrFun (congrArg Option.map ?_) _
    funext event
    simp only [Function.comp, hsame event]
  · rfl

theorem contentAt_sendChunk (w : RecommendationHandoffWorker) (runId : String)
    (keys : List HandoffKey) (s : HandoffState) (k : HandoffKey) :
    (w.sendChunk runId keys s).contentAt k = s.contentAt k :=
  foldl_unchanged (f := fun s : HandoffState => s.contentAt k)
    (w.contentAt_recordAnswer (w.chunkAnswer runId keys s) k) keys (posted keys s)

theorem find?_sendChunk_of_not_mem {keys : List HandoffKey} (hk : k ∉ keys) :
    (w.sendChunk runId keys s).events.find? k = s.events.find? k := by
  have hfold : ∀ (answer : Except HandoffException HandoffSuccess) (keys : List HandoffKey)
      (s : HandoffState), k ∉ keys →
      (keys.foldl (w.recordAnswer answer) s).events.find? k = s.events.find? k := by
    intro answer keys
    induction keys with
    | nil => exact fun _ _ => rfl
    | cons key rest ih =>
      intro s hnot
      rw [List.mem_cons, not_or] at hnot
      obtain ⟨f, -, hfind⟩ := w.find?_recordAnswer answer s key k
      rw [List.foldl_cons, ih _ hnot.2, hfind, if_neg fun h => hnot.1 h.symm]
  exact hfold _ keys (posted keys s) hk

theorem contentAt_sendChunks (w : RecommendationHandoffWorker) (runId : String)
    (chunks : List (List HandoffKey)) (result : HandoffWorkerResult) (s : HandoffState)
    (k : HandoffKey) :
    (w.sendChunks runId chunks result s).2.contentAt k = s.contentAt k := by
  induction chunks generalizing result s with
  | nil => rfl
  | cons keys rest ih => rw [sendChunks, ih, contentAt_sendChunk]

theorem find?_sendChunks_of_not_mem {chunks : List (List HandoffKey)} (hk : k ∉ chunks.flatten)
    (result : HandoffWorkerResult) (s : HandoffState) :
    (w.sendChunks runId chunks result s).2.events.find? k = s.events.find? k := by
  induction chunks generalizing result s with
  | nil => rfl
  | cons keys rest ih =>
    rw [List.flatten_cons, List.mem_append, not_or] at hk
    rw [sendChunks, ih hk.2, find?_sendChunk_of_not_mem hk.1]

/-- The posts hold the payloads of their rows, which stay as they are. -/
theorem mem_sentCandidates {chunks : List (List HandoffKey)} {payload : Dict} :
    (k, payload) ∈ w.sentCandidates runId chunks s ↔
      k ∈ chunks.flatten ∧ s.payloadAt k = some payload := by
  induction chunks generalizing s with
  | nil => simp [sentCandidates]
  | cons keys rest ih =>
    have hsame : (w.sendChunk runId keys s).payloadAt k = s.payloadAt k := by
      rw [HandoffState.payloadAt_eq, contentAt_sendChunk, HandoffState.payloadAt_eq]
    rw [sentCandidates, List.mem_append, mem_chunkCandidates, ih, hsame, List.flatten_cons,
      List.mem_append, or_and_right]

theorem lastPost_sentCandidates {chunks : List (List HandoffKey)} :
    lastPost (w.sentCandidates runId chunks s) k
      = if k ∈ chunks.flatten then s.payloadAt k else none := by
  split
  · next hk =>
    cases hpayload : s.payloadAt k with
    | none =>
      refine lastPost_eq_none fun payload hmem => ?_
      rw [mem_sentCandidates, hpayload] at hmem
      cases hmem.2
    | some payload =>
      refine lastPost_eq_some (mem_sentCandidates.mpr ⟨hk, hpayload⟩) fun p hp => ?_
      have hsome := hpayload.symm.trans (mem_sentCandidates.mp hp).2
      exact (Option.some.inj hsome).symm
  · next hk => exact lastPost_eq_none fun payload hmem => hk (mem_sentCandidates.mp hmem).1

theorem hashed_sendChunks (chunks : List (List HandoffKey)) (result : HandoffWorkerResult)
    (h : Hashed hash k s) : Hashed hash k (w.sendChunks runId chunks result s).2 := by
  intro event hevent
  have hcontent := contentAt_sendChunks w runId chunks result s k
  rw [HandoffState.contentAt, hevent] at hcontent
  obtain ⟨old, hold, hsame⟩ := Option.map_eq_some_iff.mp hcontent.symm
  obtain ⟨hpayload, hhash⟩ := Prod.mk.inj hsame
  rw [← hpayload, ← hhash]
  exact h old hold

/-- What is posted is delivered as it was posted, and what is not stays as it is. -/
theorem deliveredAs_sendChunks {delivered : Option Dict} (chunks : List (List HandoffKey))
    (result : HandoffWorkerResult) (h : DeliveredAs k delivered s) :
    DeliveredAs k ((lastPost (w.sentCandidates runId chunks s) k).or delivered)
      (w.sendChunks runId chunks result s).2 := by
  rw [lastPost_sentCandidates]
  intro event hevent hsettled
  split
  · next hk =>
    have hpayload : s.payloadAt k = some event.payloadJson := by
      rw [HandoffState.payloadAt_eq,
        ← contentAt_sendChunks w runId chunks result s k,
        HandoffState.contentAt, hevent]
      rfl
    rw [hpayload, Option.some_or]
  · next hk =>
    rw [find?_sendChunks_of_not_mem hk] at hevent
    rw [Option.none_or]
    exact h event hevent hsettled

end RecommendationHandoffWorker

/-! ### Runs -/

namespace HandoffRun

/-- The candidates a call posts, with the keys of their events. -/
def sentCandidates (run : HandoffRun) (s : HandoffState) : List (HandoffKey × Dict) :=
  match run.worker.prepareEvents run.jobs run.selected s with
  | (.ok keys, s) => run.worker.sentCandidates run.scrapeRunId
      (chunks (run.worker.retryableEvents keys s.events) run.worker.batchSize) s
  | (.error _, _) => []

/-- The candidates a sequence of calls posts. -/
def deliveries (s : HandoffState) : List HandoffRun → List (HandoffKey × Dict)
  | [] => []
  | run :: rest => run.sentCandidates s ++ deliveries (run.next s) rest

/-- Where a row is delivered already, the call builds the candidate it holds. -/
def RebuildsSame (run : HandoffRun) (s : HandoffState) (k : HandoffKey) : Prop :=
  ∀ event, s.events.find? k = some event → event.Settled →
    ∀ syncEvent ∈ run.selected, handoffKey run.scrapeRunId syncEvent = k →
      ∀ job, run.jobs.find? syncEvent.normalizedJobId = some job →
        candidatePayloadFrom run.worker.isoformat syncEvent run.scrapeRunId job = event.payloadJson

variable {run : HandoffRun} {runs : List HandoffRun} {s s₀ : HandoffState} {k : HandoffKey}
  {hash : StableHash} {delivered : Option Dict}

/-- A call prepares, and sends the chunks of what it prepared: none where preparing raised. -/
theorem next_eq_sendChunks (run : HandoffRun) (s : HandoffState) : ∃ chunks result,
    run.next s = (run.worker.sendChunks run.scrapeRunId chunks result
        (run.worker.prepareEvents run.jobs run.selected s).2).2 ∧
      run.sentCandidates s = run.worker.sentCandidates run.scrapeRunId chunks
        (run.worker.prepareEvents run.jobs run.selected s).2 := by
  unfold sentCandidates
  rcases hprepared : run.worker.prepareEvents run.jobs run.selected s with ⟨exc | keys, s₁⟩
  · refine ⟨[], {}, ?_, rfl⟩
    change (Stateful.bind (run.worker.prepareEvents run.jobs run.selected) _ s).2 = _
    simp only [Stateful.bind, hprepared]
    rfl
  · refine ⟨chunks (run.worker.retryableEvents keys s₁.events) run.worker.batchSize,
      { attempted := (run.worker.retryableEvents keys s₁.events).length }, ?_, rfl⟩
    change (Stateful.bind (run.worker.prepareEvents run.jobs run.selected) _ s).2 = _
    simp only [Stateful.bind, hprepared]
    rfl

/-- What each prepared row keeps, preparing them all keeps. -/
theorem keeps_prepareEvents {I : HandoffState → Prop} (syncEvents : List SyncEvent)
    (hall : ∀ syncEvent ∈ syncEvents, syncEvent ∈ run.selected)
    (hstep : ∀ syncEvent ∈ run.selected, ∀ job,
      run.jobs.find? syncEvent.normalizedJobId = some job → ∀ s, I s →
        I (run.worker.prepareFound (handoffKey run.scrapeRunId syncEvent) syncEvent job
          (candidatePayloadFrom run.worker.isoformat syncEvent run.scrapeRunId job) s)) :
    Keeps I (run.worker.prepareEvents run.jobs syncEvents) := by
  induction syncEvents with
  | nil => exact .pure _
  | cons syncEvent rest ih =>
    have hmem := hall syncEvent List.mem_cons_self
    refine .bind ?_ fun key => .bind (ih fun e he => hall e (List.mem_cons_of_mem _ he)) fun keys =>
      .pure _
    cases hjob : run.jobs.find? syncEvent.normalizedJobId with
    | none =>
      simp only [RecommendationHandoffWorker.prepareEvent, scrapeRunId_of_selected hmem, hjob]
      exact .raise _
    | some job =>
      simp only [RecommendationHandoffWorker.prepareEvent, scrapeRunId_of_selected hmem, hjob]
      exact .update fun s hs => hstep syncEvent hmem job hjob s hs

theorem hashed_next (hhash : run.worker.hash = hash) (h : Hashed hash k s) :
    Hashed hash k (run.next s) := by
  obtain ⟨chunks, result, hnext, -⟩ := next_eq_sendChunks run s
  rw [hnext]
  refine RecommendationHandoffWorker.hashed_sendChunks _ _ (Keeps.of_run ?_ h)
  exact keeps_prepareEvents _ (fun _ => id) fun syncEvent _ job _ s hs =>
    RecommendationHandoffWorker.hashed_prepareFound hhash hs

theorem hashed_history (hhash : ∀ run ∈ runs, run.worker.hash = hash) (h : Hashed hash k s) :
    Hashed hash k (history s runs) := by
  induction runs generalizing s with
  | nil => exact h
  | cons run rest ih =>
    exact ih (fun r hr => hhash r (List.mem_cons_of_mem _ hr))
      (hashed_next (hhash run List.mem_cons_self) h)

/-- Where the candidates are the delivered ones, what is delivered after preparing was delivered so
    before. -/
theorem delivered_prepareEvents (hsame : run.RebuildsSame s₀ k) :
    Keeps (fun s => ∀ event, s.events.find? k = some event → event.Settled →
        ∃ old, s₀.events.find? k = some old ∧ old.Settled ∧ event.payloadJson = old.payloadJson)
      (run.worker.prepareEvents run.jobs run.selected) := by
  refine keeps_prepareEvents _ (fun _ => id) fun syncEvent hmem job hjob s hs event hevent
    hsettled => ?_
  obtain ⟨before, hbefore, hbeforeSettled, hpayload⟩ :=
    RecommendationHandoffWorker.settled_prepareFound hevent hsettled
  obtain ⟨old, hold, holdSettled, hkept⟩ := hs before hbefore hbeforeSettled
  refine ⟨old, hold, holdSettled, ?_⟩
  rw [hpayload]
  split
  · next hk => exact hsame old hold holdSettled syncEvent hmem hk job hjob
  · exact hkept

/-- A call keeps what is delivered, with what it posts itself. -/
theorem deliveredAs_next (hsame : run.RebuildsSame s k) (h : DeliveredAs k delivered s) :
    DeliveredAs k ((lastPost (run.sentCandidates s) k).or delivered) (run.next s) := by
  obtain ⟨chunks, result, hnext, hsent⟩ := next_eq_sendChunks run s
  rw [hnext, hsent]
  refine RecommendationHandoffWorker.deliveredAs_sendChunks _ _ fun event hevent hsettled => ?_
  obtain ⟨old, hold, holdSettled, hpayload⟩ := (delivered_prepareEvents hsame).of_run
    (fun event hevent hsettled => ⟨event, hevent, hsettled, rfl⟩) event hevent hsettled
  rw [hpayload]
  exact h old hold holdSettled

theorem deliveredAs_history (hsame : ∀ before run rest, runs = before ++ run :: rest →
      run.RebuildsSame (history s before) k) (h : DeliveredAs k delivered s) :
    DeliveredAs k ((lastPost (deliveries s runs) k).or delivered) (history s runs) := by
  induction runs generalizing s delivered with
  | nil => exact h
  | cons run rest ih =>
    have hrest := ih (fun before r after hsplit =>
      hsame (run :: before) r after (congrArg _ hsplit)) (deliveredAs_next (hsame [] run rest rfl) h)
    rw [deliveries, lastPost_append, Option.or_assoc]
    exact hrest

/-- Preparing the event `k` again with the candidate it holds assigns its ids and `attempted_at`. -/
def KeptWhenPrepared (w : RecommendationHandoffWorker) (s : HandoffState) (k : HandoffKey)
    (event : NotificationHandoffEvent) : Prop :=
  ∀ jobs syncEvent runId job, syncEvent.scrapeRunId = some runId → handoffKey runId syncEvent = k →
    jobs.find? syncEvent.normalizedJobId = some job →
    candidatePayloadFrom w.isoformat syncEvent runId job = event.payloadJson →
    (w.prepareEvent jobs syncEvent s).2.events.find? k = some { event with
      syncEventId := syncEvent.id
      normalizedJobId := job.id
      attemptedAt := w.host.utcNow s.ticks }

/-- After any calls the hash of an event is that of its payload, and preparing it again with the
    candidate it holds changes neither. If the calls build no other candidate for it once it is
    delivered, a delivered event holds the candidate of its last post. -/
theorem stays_as_delivered (hash : StableHash) (runs : List HandoffRun) (ticks : ℕ) (k : HandoffKey)
    (hhash : ∀ run ∈ runs, run.worker.hash = hash) (event : NotificationHandoffEvent)
    (hevent : (history (.initial ticks) runs).events.find? k = some event) :
    event.payloadHash = hash.digest (.dict event.payloadJson) ∧
    (∀ w : RecommendationHandoffWorker, w.hash = hash →
      KeptWhenPrepared w (history (.initial ticks) runs) k event) ∧
    ((∀ before run rest, runs = before ++ run :: rest →
        run.RebuildsSame (history (.initial ticks) before) k) →
      event.Settled → lastPost (deliveries (.initial ticks) runs) k = some event.payloadJson) := by
  have hhashed : event.payloadHash = hash.digest (.dict event.payloadJson) :=
    hashed_history hhash (s := .initial ticks) (fun _ h => by cases h) event hevent
  refine ⟨hhashed, fun w hw jobs syncEvent runId job hrun hk hjob hsame => ?_,
    fun hsame hsettled => ?_⟩
  · subst hk
    simp only [RecommendationHandoffWorker.prepareEvent, hrun, hjob]
    refine (w.find?_prepareFound_self (handoffKey runId syncEvent) syncEvent job _ _).trans ?_
    rw [hevent, hsame, hw, ← hhashed]
    rfl
  · have hinitial : DeliveredAs k none (.initial ticks) := fun _ h => by cases h
    rw [← deliveredAs_history hsame hinitial event hevent hsettled, Option.or_none]

end HandoffRun

/-- The handoff of a job under one title. -/
def handoffUnder (title : String) : HandoffRun :=
  { handoffOfOne with jobs := (titledJob title).normalizedJobs }

/-- The title in a candidate. -/
def candidateTitle (payload : Dict) : String :=
  match Dict.get payload "title" with
  | .str title => title
  | _ => ""

/-- A job whose title changes after it was sent: the sent event takes the new title, and the time of
    the attempt moves even if the title stays. -/
theorem sent_payload_replaced :
    (¬ ∀ event, (HandoffRun.history (.initial 0)
          [handoffUnder "Lead", handoffUnder "Chief"]).events.find? handoffOfA = some event →
        event.Settled → lastPost (HandoffRun.deliveries (.initial 0)
          [handoffUnder "Lead", handoffUnder "Chief"]) handoffOfA = some event.payloadJson) ∧
      ((HandoffRun.history (.initial 0) [handoffUnder "Lead"]).events.find? handoffOfA).map
          NotificationHandoffEvent.attemptedAt
        ≠ ((HandoffRun.history (.initial 0) [handoffUnder "Lead", handoffUnder "Lead"]).events.find?
            handoffOfA).map NotificationHandoffEvent.attemptedAt := by
  refine ⟨fun h => ?_, by decide +kernel⟩
  have hsent : ((HandoffRun.history (.initial 0)
      [handoffUnder "Lead", handoffUnder "Chief"]).events.find? handoffOfA).map
        (fun event => (event.status, candidateTitle event.payloadJson))
      = some (.sent, "Chief") := by decide +kernel
  have hposted : (lastPost (HandoffRun.deliveries (.initial 0)
      [handoffUnder "Lead", handoffUnder "Chief"]) handoffOfA).map candidateTitle
      = some "Lead" := by decide +kernel
  obtain ⟨event, hevent, heq⟩ := Option.map_eq_some_iff.mp hsent
  rw [h event hevent (.inl (Prod.mk.inj heq).1), Option.map_some, (Prod.mk.inj heq).2] at hposted
  exact absurd hposted (by decide)

/-- Built again, the candidate of the job is the one that was sent. -/
theorem rebuildsSame_again :
    (handoffUnder "Lead").RebuildsSame
      (HandoffRun.history (.initial 0) [handoffUnder "Lead"]) handoffOfA := by
  have hbuilt : ∃ event, (HandoffRun.history (.initial 0)
      [handoffUnder "Lead"]).events.find? handoffOfA = some event ∧
      ∃ syncEvent, (handoffUnder "Lead").selected = [syncEvent] ∧
        ∀ job, (handoffUnder "Lead").jobs.find? syncEvent.normalizedJobId = some job →
          candidatePayloadFrom (handoffUnder "Lead").worker.isoformat syncEvent
            (handoffUnder "Lead").scrapeRunId job = event.payloadJson :=
    ⟨_, rfl, _, rfl, by rintro _ ⟨⟩; rfl⟩
  obtain ⟨event, hevent, syncEvent, hselected, hsame⟩ := hbuilt
  intro event' hevent' _ syncEvent' hmem _ job hjob
  rw [hselected, List.mem_singleton] at hmem
  subst hmem
  rw [hevent] at hevent'
  cases hevent'
  exact hsame job hjob

theorem stays_as_delivered_one :
    ∃ event, (HandoffRun.history (.initial 0)
        [handoffUnder "Lead", handoffUnder "Lead"]).events.find? handoffOfA = some event ∧
      event.Settled ∧ event.payloadHash = plainHash.digest (.dict event.payloadJson) ∧
      lastPost (HandoffRun.deliveries (.initial 0) [handoffUnder "Lead", handoffUnder "Lead"])
        handoffOfA = some event.payloadJson := by
  have hsent : ((HandoffRun.history (.initial 0)
      [handoffUnder "Lead", handoffUnder "Lead"]).events.find? handoffOfA).map
        NotificationHandoffEvent.status = some .sent := by decide +kernel
  obtain ⟨event, hevent, hstatus⟩ := Option.map_eq_some_iff.mp hsent
  obtain ⟨hhash, -, hlast⟩ := HandoffRun.stays_as_delivered plainHash _ 0 handoffOfA
    (by simp [handoffUnder, handoffOfOne, handoffOfBoth]) event hevent
  refine ⟨event, hevent, .inl hstatus, hhash, hlast (fun before run rest hsplit => ?_)
    (.inl hstatus)⟩
  rcases before with - | ⟨first, - | ⟨second, more⟩⟩
  · cases hsplit
    exact fun _ h => nomatch h
  · cases hsplit
    exact rebuildsSame_again
  · simp at hsplit

end Bisakerja
