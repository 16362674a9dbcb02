import BisakerjaScraper.Eligibility.Known

/-! What a decision says about the sync history of a job.

    The status of a `sync_events` row is a text and its job may be missing, so a history may hold
    rows that this program did not write. The gate reads of a history the status of the latest
    backend event; how often that was attempted does not reach it. -/

namespace Bisakerja
open Schemes

/-- `SyncEventStatus.value`. -/
def SyncEventStatus.value : SyncEventStatus → String
  | .pending => "pending"
  | .sent => "sent"
  | .failed => "failed"
  | .deadLetter => "dead-letter"

/-- The statuses a sync event is written with. -/
def syncStatuses : List String := ["pending", "sent", "failed", "dead-letter"]

/-- A `sync_events` row as its table may hold it, as far as the gate reads it. -/
structure StoredSyncEvent where
  id : String
  normalizedJobId : Option String
  status : String
  target : String
  attemptCount : ℤ
  attemptedAt : Time

/-- The history, by primary key. -/
abbrev StoredSyncEvents := Table StoredSyncEvent StoredSyncEvent.id

/-- A row this program wrote. -/
def SyncEvent.stored (event : SyncEvent) : StoredSyncEvent where
  id := event.id
  normalizedJobId := some event.normalizedJobId
  status := event.status.value
  target := event.target
  attemptCount := event.attemptCount
  attemptedAt := event.attemptedAt

/-- `ORDER BY attempted_at DESC, id DESC`. -/
def storedLatestFirst (a b : StoredSyncEvent) : Prop :=
  b.attemptedAt < a.attemptedAt ∨ (a.attemptedAt = b.attemptedAt ∧ b.id.toList ≤ a.id.toList)

instance : DecidableRel storedLatestFirst := fun a b => by unfold storedLatestFirst; infer_instance

instance : Std.Total storedLatestFirst := ⟨fun a b => by
  unfold storedLatestFirst
  rcases lt_trichotomy a.attemptedAt b.attemptedAt with h | h | h
  · exact .inr (.inl h)
  · rcases le_total a.id.toList b.id.toList with hid | hid
    · exact .inr (.inr ⟨h.symm, hid⟩)
    · exact .inl (.inr ⟨h, hid⟩)
  · exact .inl (.inl h)⟩

instance : IsTrans StoredSyncEvent storedLatestFirst := ⟨fun a b c hab hbc => by
  unfold storedLatestFirst at *
  rcases hab with hab | ⟨hab, hidab⟩ <;> rcases hbc with hbc | ⟨hbc, hidbc⟩
  · exact .inl (hbc.trans hab)
  · exact .inl (hbc ▸ hab)
  · exact .inl (hab ▸ hbc)
  · exact .inr ⟨hab.trans hbc, hidbc.trans hidab⟩⟩

/-- The backend events of a job. -/
def StoredSyncEvents.backendEvents (events : StoredSyncEvents) (normalizedJobId : String) :
    List StoredSyncEvent :=
  events.rows.filter fun event =>
    event.target = "backend" && event.normalizedJobId = some normalizedJobId

/-- The row `_latest_sync_state_by_normalized_id` takes the state of a job from. -/
def StoredSyncEvents.latest (events : StoredSyncEvents) (normalizedJobId : String) :
    Option StoredSyncEvent :=
  ((events.backendEvents normalizedJobId).insertionSort storedLatestFirst).head?

/-- `sync_state_attempt_count`, on the text of a state. -/
def storedAttemptCount (state : Option String) : ℤ := if state = some "failed" then 1 else 0

/-- The branches of `resolve_for_raw_jobs` on the state of a row that was found. -/
def reasonOfState (reprocess : Bool) (maxSyncAttempts : ℤ) :
    Option String → EligibilityDecisionReason
  | none => if reprocess then .reprocessRequired else .existingNormalizedSynced
  | some state =>
    if state = "sent" then if reprocess then .reprocessRequired else .existingNormalizedSynced
    else if state = "failed" then
      if storedAttemptCount (some state) < maxSyncAttempts then .existingNormalizedUnsynced
      else .identityConflict
    else if state ∈ ["pending", "dead-letter"] then .existingNormalizedUnsynced
    else .identityConflict

namespace EligibilityResolver

variable (r : EligibilityResolver)

/-- The row of a raw job that no earlier branch has decided. -/
def localRow (seen : List String) (raw : RawJob) : Option NormalizedJob :=
  match r.text.keyOf raw with
  | none => none
  | some key =>
    if key ∈ seen then none
    else
      match r.backendExisting.get (r.text.identityOf raw) with
      | some _ => none
      | none => r.normalizedByIdentity.get (r.text.identityOf raw)

/-- The reason for a raw job when the events are those of a history. -/
def reasonIn (events : StoredSyncEvents) (maxSyncAttempts : ℤ) (seen : List String)
    (raw : RawJob) : EligibilityDecisionReason :=
  match r.localRow seen raw with
  | none => (r.decide seen raw).reason
  | some normalized =>
    reasonOfState (r.allowReprocess && payloadChanged r.hash raw normalized) maxSyncAttempts
      ((events.latest normalized.id).map StoredSyncEvent.status)

/-- The reasons for a batch when the events are those of a history. -/
def reasonsIn (events : StoredSyncEvents) (maxSyncAttempts : ℤ) :
    List RawJob → List String → List EligibilityDecisionReason
  | [], _ => []
  | raw :: rest, seen =>
    r.reasonIn events maxSyncAttempts seen raw ::
      reasonsIn events maxSyncAttempts rest (seen ++ (r.text.keyOf raw).toList)

end EligibilityResolver

/-! ### The latest event -/

/-- A backend event of a job with none later. -/
structure IsLatest (events : StoredSyncEvents) (normalizedJobId : String)
    (event : StoredSyncEvent) : Prop where
  mem : event ∈ events.backendEvents normalizedJobId
  latest : ∀ other ∈ events.backendEvents normalizedJobId, storedLatestFirst event other

variable {events : StoredSyncEvents} {normalizedJobId : String} {event other : StoredSyncEvent}

theorem isLatest_of_latest (h : events.latest normalizedJobId = some event) :
    IsLatest events normalizedJobId event := by
  unfold StoredSyncEvents.latest at h
  obtain ⟨others, hsorted⟩ := List.head?_eq_some_iff.mp h
  have hpairwise := List.pairwise_insertionSort storedLatestFirst
    (events.backendEvents normalizedJobId)
  rw [hsorted, List.pairwise_cons] at hpairwise
  have hmem : ∀ e, e ∈ events.backendEvents normalizedJobId ↔ e ∈ event :: others := by
    intro e
    rw [← hsorted, List.mem_insertionSort]
  refine ⟨(hmem event).mpr List.mem_cons_self, fun e he => ?_⟩
  rcases List.mem_cons.mp ((hmem e).mp he) with rfl | he
  · exact (Std.Total.total (r := storedLatestFirst) e e).elim id id
  · exact hpairwise.1 e he

/-- There is only one latest event. -/
theorem IsLatest.unique (h : IsLatest events normalizedJobId event)
    (h' : IsLatest events normalizedJobId other) : event = other := by
  have hid : event.id = other.id := by
    rcases h.latest other h'.mem with hlt | ⟨heq, hle⟩
    · rcases h'.latest event h.mem with hlt' | ⟨heq', -⟩
      · exact absurd hlt' hlt.asymm
      · exact absurd heq' hlt.ne
    · rcases h'.latest event h.mem with hlt' | ⟨-, hle'⟩
      · exact absurd heq hlt'.ne
      · exact String.toList_inj.mp (le_antisymm hle' hle)
  have hrow := Table.find?_of_mem (List.mem_of_mem_filter h.mem)
  have hrow' := Table.find?_of_mem (List.mem_of_mem_filter h'.mem)
  rw [hid, hrow'] at hrow
  exact (Option.some.inj hrow).symm

theorem latest_eq_some_iff :
    events.latest normalizedJobId = some event ↔ IsLatest events normalizedJobId event := by
  refine ⟨isLatest_of_latest, fun h => ?_⟩
  cases hlatest : events.latest normalizedJobId with
  | some found => rw [(isLatest_of_latest hlatest).unique h]
  | none =>
    unfold StoredSyncEvents.latest at hlatest
    rw [List.head?_eq_none_iff] at hlatest
    have hmem := (List.mem_insertionSort storedLatestFirst).mpr h.mem
    rw [hlatest] at hmem
    cases hmem

theorem latest_eq_none_iff :
    events.latest normalizedJobId = none ↔ events.backendEvents normalizedJobId = [] := by
  unfold StoredSyncEvents.latest
  rw [List.head?_eq_none_iff]
  constructor
  · intro h
    have hperm := List.perm_insertionSort storedLatestFirst (events.backendEvents normalizedJobId)
    rw [h] at hperm
    exact hperm.nil_eq.symm
  · intro h
    rw [h]
    rfl

/-! ### The gate on its own rows -/

theorem SyncEventStatus.value_injective : Function.Injective SyncEventStatus.value := by
  intro a b h
  cases a <;> cases b <;> first | rfl | exact absurd h (by decide)

/-- On rows the program wrote, the latest state is the one `latestSyncState` reads. -/
theorem latest_of_stored {written : SyncEvents}
    (h : events.rows = written.rows.map SyncEvent.stored) (normalizedJobId : String) :
    (events.latest normalizedJobId).map StoredSyncEvent.status
      = (latestSyncState written normalizedJobId).map SyncEventStatus.value := by
  have hsame : ∀ event : SyncEvent,
      (event.stored.target = "backend" && event.stored.normalizedJobId = some normalizedJobId)
        = (event.target = "backend" && event.normalizedJobId = normalizedJobId) := by
    intro event
    have hjob : decide (event.stored.normalizedJobId = some normalizedJobId)
        = decide (event.normalizedJobId = normalizedJobId) := decide_eq_decide.mpr Option.some_inj
    exact congrArg (decide (event.target = "backend") && ·) hjob
  have hevents : events.backendEvents normalizedJobId
      = (written.rows.filter fun event =>
          event.target = "backend" && event.normalizedJobId = normalizedJobId).map
            SyncEvent.stored := by
    unfold StoredSyncEvents.backendEvents
    rw [h, List.filter_map]
    exact congrArg (List.map SyncEvent.stored) (List.filter_congr fun event _ => hsame event)
  unfold StoredSyncEvents.latest latestSyncState
  rw [hevents, ← List.map_insertionSort (r := latestFirst) (s := storedLatestFirst)
    SyncEvent.stored _ fun a _ b _ => (Iff.rfl : latestFirst a b ↔ storedLatestFirst _ _)]
  rw [List.head?_map, Option.map_map, Option.map_map]
  rfl

/-- The branches on the text of a state are those on the state. -/
theorem existingReason_eq (r : EligibilityResolver) (raw : RawJob) (normalized : NormalizedJob)
    (state : Option SyncEventStatus) :
    r.existingReason raw normalized state
      = reasonOfState (r.allowReprocess && payloadChanged r.hash raw normalized) r.maxSyncAttempts
          (state.map SyncEventStatus.value) := by
  have hlimit : (1 : ℤ) < (r.maxSyncAttempts : ℤ) ↔ 1 < r.maxSyncAttempts := by norm_cast
  rcases state with - | - | - | - | -
  case none => rfl
  case some.sent => rfl
  case some.pending => rfl
  case some.deadLetter => rfl
  case some.failed =>
    change _ = if (1 : ℤ) < (r.maxSyncAttempts : ℤ) then _ else _
    exact (if_congr hlimit rfl rfl).symm

namespace EligibilityResolver

variable {r : EligibilityResolver} {seen : List String} {raw : RawJob} {normalized : NormalizedJob}

theorem decide_of_localRow (h : r.localRow seen raw = some normalized) :
    (r.decide seen raw).reason
      = r.existingReason raw normalized (latestSyncState r.events normalized.id) := by
  unfold localRow at h
  cases hkey : r.text.keyOf raw with
  | none =>
    rw [hkey] at h
    cases h
  | some key =>
    rw [hkey] at h
    dsimp only at h
    by_cases hseen : key ∈ seen
    · rw [if_pos hseen] at h
      cases h
    · rw [if_neg hseen] at h
      cases hbackend : r.backendExisting.get (r.text.identityOf raw) with
      | some hit =>
        rw [hbackend] at h
        cases h
      | none =>
        rw [hbackend] at h
        unfold decide
        rw [hkey]
        dsimp only at h ⊢
        rw [if_neg hseen, hbackend, h]

/-- On the rows the program wrote, the reasons are those of the decisions. -/
theorem reasonIn_eq_decide (h : events.rows = r.events.rows.map SyncEvent.stored)
    (seen : List String) (raw : RawJob) :
    r.reasonIn events r.maxSyncAttempts seen raw = (r.decide seen raw).reason := by
  unfold reasonIn
  split
  · rfl
  · next normalized hrow =>
    rw [decide_of_localRow hrow, existingReason_eq, latest_of_stored h]

theorem reasonsIn_append (maxSyncAttempts : ℤ) (before after : List RawJob) (raw : RawJob)
    (seen : List String) :
    (r.reasonsIn events maxSyncAttempts (before ++ raw :: after) seen)[before.length]?
      = some (r.reasonIn events maxSyncAttempts (seen ++ r.seenKeys before) raw) := by
  induction before generalizing seen with
  | nil => simp [reasonsIn, seenKeys]
  | cons first before ih =>
    rw [List.cons_append, reasonsIn, List.length_cons, List.getElem?_cons_succ, ih, seenKeys,
      seenKeys, List.flatMap_cons, List.append_assoc]

end EligibilityResolver

/-! ### What the decision should say -/

/-- A decision says what the latest event says: synced only after a sent one, unsynced without one
    or while it may be sent again, and a conflict otherwise. -/
structure ReflectsHistory (events : StoredSyncEvents) (maxSyncAttempts : ℤ)
    (normalizedJobId : String) (reason : EligibilityDecisionReason) : Prop where
  synced : reason = .existingNormalizedSynced →
    ∃ event, IsLatest events normalizedJobId event ∧ event.status = "sent"
  unsynced : (events.backendEvents normalizedJobId = [] ∨
      ∃ event, IsLatest events normalizedJobId event ∧
        (event.status = "pending" ∨ event.status = "dead-letter" ∨
          (event.status = "failed" ∧ event.attemptCount < maxSyncAttempts))) →
    reason = .existingNormalizedUnsynced
  conflict : reason = .identityConflict ↔
    ∃ event, IsLatest events normalizedJobId event ∧
      ((event.status = "failed" ∧ maxSyncAttempts ≤ event.attemptCount) ∨
        event.status ∉ syncStatuses)

/-- A reason says what one event says. -/
structure ReflectsEvent (event : StoredSyncEvent) (maxSyncAttempts : ℤ)
    (reason : EligibilityDecisionReason) : Prop where
  synced : reason = .existingNormalizedSynced → event.status = "sent"
  unsynced : (event.status = "pending" ∨ event.status = "dead-letter" ∨
      (event.status = "failed" ∧ event.attemptCount < maxSyncAttempts)) →
    reason = .existingNormalizedUnsynced
  conflict : reason = .identityConflict ↔
    (event.status = "failed" ∧ maxSyncAttempts ≤ event.attemptCount) ∨ event.status ∉ syncStatuses

/-- The branches on a status say what the event says, unless it failed: then they go by a limit of
    one attempt. -/
theorem reflectsEvent_iff (event : StoredSyncEvent) (reprocess : Bool) (maxSyncAttempts : ℤ) :
    ReflectsEvent event maxSyncAttempts
        (reasonOfState reprocess maxSyncAttempts (some event.status)) ↔
      (event.status = "failed" → (event.attemptCount < maxSyncAttempts ↔ 1 < maxSyncAttempts)) := by
  by_cases hfailed : event.status = "failed"
  · have hreason : reasonOfState reprocess maxSyncAttempts (some event.status)
        = if 1 < maxSyncAttempts then .existingNormalizedUnsynced else .identityConflict := by
      rw [hfailed]
      rfl
    have hknown : event.status ∈ syncStatuses := by simp [hfailed, syncStatuses]
    rw [hreason]
    by_cases hlimit : 1 < maxSyncAttempts
    · rw [if_pos hlimit]
      constructor
      · intro h _
        have hnot := mt h.conflict.mpr nofun
        rw [not_or] at hnot
        exact iff_of_true (not_le.mp fun hle => hnot.1 ⟨hfailed, hle⟩) hlimit
      · intro h
        have hshort := (h hfailed).mpr hlimit
        refine ⟨nofun, fun _ => rfl, iff_of_false nofun ?_⟩
        rintro (⟨-, hle⟩ | hunknown)
        · exact absurd hshort (not_lt.mpr hle)
        · exact hunknown hknown
    · rw [if_neg hlimit]
      constructor
      · intro h _
        refine iff_of_false (fun hshort => ?_) hlimit
        have hreason := h.unsynced (.inr (.inr ⟨hfailed, hshort⟩))
        cases hreason
      · intro h
        have hlong := not_lt.mp (mt (h hfailed).mp hlimit)
        refine ⟨nofun, ?_, iff_of_true rfl (.inl ⟨hfailed, hlong⟩)⟩
        rintro (hpending | hdead | ⟨-, hshort⟩)
        · rw [hpending] at hfailed
          exact absurd hfailed (by decide)
        · rw [hdead] at hfailed
          exact absurd hfailed (by decide)
        · exact absurd hshort (not_lt.mpr hlong)
  · refine iff_of_true ?_ fun h => absurd h hfailed
    by_cases hsent : event.status = "sent"
    · -- a sent event is no reason to say anything else
      have hreason : reasonOfState reprocess maxSyncAttempts (some event.status)
          = if reprocess then .reprocessRequired else .existingNormalizedSynced := by
        rw [hsent]
        rfl
      have hknown : event.status ∈ syncStatuses := by simp [hsent, syncStatuses]
      refine ⟨fun _ => hsent, ?_, iff_of_false ?_ ?_⟩
      · simp [hsent]
      · rw [hreason]
        cases reprocess <;> exact nofun
      · simp [hfailed, hknown]
    · by_cases hwaits : event.status ∈ ["pending", "dead-letter"]
      · have hreason : reasonOfState reprocess maxSyncAttempts (some event.status)
            = .existingNormalizedUnsynced := by
          simp only [reasonOfState, if_neg hsent, if_neg hfailed, if_pos hwaits]
        have hknown : event.status ∈ syncStatuses := by
          rcases List.mem_pair.mp hwaits with h | h <;> simp [h, syncStatuses]
        rw [hreason]
        exact ⟨nofun, fun _ => rfl, iff_of_false nofun (by simp [hfailed, hknown])⟩
      · have hreason : reasonOfState reprocess maxSyncAttempts (some event.status)
            = .identityConflict := by
          simp only [reasonOfState, if_neg hsent, if_neg hfailed, if_neg hwaits]
        rw [List.mem_pair, not_or] at hwaits
        have hunknown : event.status ∉ syncStatuses := by
          simp [syncStatuses, hsent, hfailed, hwaits.1, hwaits.2]
        rw [hreason]
        refine ⟨nofun, ?_, iff_of_true rfl (.inr hunknown)⟩
        rintro (h | h | ⟨h, -⟩)
        · exact absurd h hwaits.1
        · exact absurd h hwaits.2
        · exact absurd h hfailed

/-- The history has a latest event; and if that failed, its attempts reach the limit exactly when a
    single one does. -/
def ToldByStatus (events : StoredSyncEvents) (maxSyncAttempts : ℤ) (normalizedJobId : String) :
    Prop :=
  ∃ event, IsLatest events normalizedJobId event ∧
    (event.status = "failed" → (event.attemptCount < maxSyncAttempts ↔ 1 < maxSyncAttempts))

theorem reflectsHistory_iff_toldByStatus (events : StoredSyncEvents) (reprocess : Bool)
    (maxSyncAttempts : ℤ) (normalizedJobId : String) :
    ReflectsHistory events maxSyncAttempts normalizedJobId
        (reasonOfState reprocess maxSyncAttempts
          ((events.latest normalizedJobId).map StoredSyncEvent.status))
      ↔ ToldByStatus events maxSyncAttempts normalizedJobId := by
  cases hlatest : events.latest normalizedJobId with
  | none =>
    -- without an event the job counts as synced
    have hnone := latest_eq_none_iff.mp hlatest
    have hno : ∀ event, ¬ IsLatest events normalizedJobId event := by
      intro event h
      rw [latest_eq_some_iff.mpr h] at hlatest
      cases hlatest
    refine iff_of_false (fun h => ?_) fun ⟨event, h, _⟩ => hno event h
    have hreason := h.unsynced (.inl hnone)
    cases reprocess <;> cases hreason
  | some event =>
    have hlast := latest_eq_some_iff.mp hlatest
    have hone : ∀ p : StoredSyncEvent → Prop,
        (∃ other, IsLatest events normalizedJobId other ∧ p other) ↔ p event :=
      fun p => ⟨fun ⟨_, h, hp⟩ => h.unique hlast ▸ hp, fun hp => ⟨event, hlast, hp⟩⟩
    have hsome : events.backendEvents normalizedJobId ≠ [] := by
      rw [ne_eq, ← latest_eq_none_iff, hlatest]
      exact nofun
    rw [ToldByStatus, hone, Option.map_some]
    have hiff : ∀ reason, ReflectsHistory events maxSyncAttempts normalizedJobId reason ↔
        ReflectsEvent event maxSyncAttempts reason := fun reason =>
      ⟨fun h => ⟨fun hr => (hone _).mp (h.synced hr),
          fun hr => h.unsynced (.inr ((hone _).mpr hr)), h.conflict.trans (hone _)⟩,
        fun h => ⟨fun hr => (hone _).mpr (h.synced hr),
          fun hr => hr.elim (fun hnone => absurd hnone hsome) fun hr => h.unsynced ((hone _).mp hr),
          h.conflict.trans (hone fun other => (other.status = "failed" ∧
            maxSyncAttempts ≤ other.attemptCount) ∨ other.status ∉ syncStatuses).symm⟩⟩
    rw [hiff]
    exact reflectsEvent_iff event reprocess maxSyncAttempts

/-- Every raw job of a batch whose row is found is decided on as its sync history says. -/
def EligibilityResolver.ReflectsHistories (r : EligibilityResolver) (events : StoredSyncEvents)
    (maxSyncAttempts : ℤ) : Prop :=
  ∀ before raw after normalized reason, r.rawJobs = before ++ raw :: after →
    r.localRow (r.seenKeys before) raw = some normalized →
    (r.reasonsIn events maxSyncAttempts r.rawJobs [])[before.length]? = some reason →
      ReflectsHistory events maxSyncAttempts normalized.id reason

namespace EligibilityResolver

/-- BUG: a decision says what the sync history says exactly when the history is not empty and, where
    its latest event failed, the attempts of that are on the same side of the limit as one attempt.
    A job never sent counts as synced, and the number of its attempts is lost on the way. -/
theorem reflectsHistories_iff (r : EligibilityResolver) (events : StoredSyncEvents)
    (maxSyncAttempts : ℤ) :
    r.ReflectsHistories events maxSyncAttempts ↔
      ∀ before raw after normalized, r.rawJobs = before ++ raw :: after →
        r.localRow (r.seenKeys before) raw = some normalized →
          ToldByStatus events maxSyncAttempts normalized.id := by
  have hreason : ∀ before raw after normalized, r.rawJobs = before ++ raw :: after →
      r.localRow (r.seenKeys before) raw = some normalized →
      (r.reasonsIn events maxSyncAttempts r.rawJobs [])[before.length]?
        = some (reasonOfState (r.allowReprocess && payloadChanged r.hash raw normalized)
            maxSyncAttempts ((events.latest normalized.id).map StoredSyncEvent.status)) := by
    intro before raw after normalized hsplit hrow
    rw [hsplit, reasonsIn_append, List.nil_append, reasonIn, hrow]
  constructor
  · intro h before raw after normalized hsplit hrow
    have hat := hreason before raw after normalized hsplit hrow
    exact (reflectsHistory_iff_toldByStatus events _ maxSyncAttempts normalized.id).mp
      (h before raw after normalized _ hsplit hrow hat)
  · intro h before raw after normalized reason hsplit hrow hat
    rw [hreason before raw after normalized hsplit hrow] at hat
    cases hat
    exact (reflectsHistory_iff_toldByStatus events _ maxSyncAttempts normalized.id).mpr
      (h before raw after normalized hsplit hrow)

/-- A job with the identity `glints:abc`, and its row. -/
def plainBatch : EligibilityResolver :=
  { capitalBatch with
    rawJobs := [{ capitalRaw with externalId := "abc" }]
    normalizedJobs := ⟨[{ capitalRow with externalId := "abc" }], by decide⟩ }

/-- A job that no event has ever been written for counts as synced. -/
theorem never_sent_is_synced : ¬ plainBatch.ReflectsHistories (Table.empty _) 3 := by
  intro h
  have hid : (plainBatch.localRow [] { capitalRaw with externalId := "abc" }).map NormalizedJob.id
      = some "n" := by decide +kernel
  have hat : (plainBatch.reasonsIn (Table.empty _) 3 plainBatch.rawJobs [])[0]?
      = some .existingNormalizedSynced := by decide +kernel
  obtain ⟨normalized, hrow, -⟩ := Option.map_eq_some_iff.mp hid
  have hreason := (h [] _ [] normalized _ rfl hrow hat).unsynced (.inl rfl)
  cases hreason

end EligibilityResolver

end Bisakerja
