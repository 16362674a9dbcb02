import BisakerjaScraper.Cli.Daemon
import BisakerjaScraper.Pipeline.HandoffScope

/-! What a day leaves to the days after it.

    Every scheduled stage runs in a process of its own, so a scheduled handoff selects the sync
    events of its own run id. Sync events carry the ids of sync runs: the scheduled handoffs post
    nothing, and what a day leaves over stays. -/

namespace Bisakerja
open Schemes Schemes.Delivery

/-- The tables of the deliveries. Sync events are stamped by sync runs, so none belongs to a run of
    the handoff stage. -/
structure DeliveryTables where
  runs : ScrapeRuns
  sync : SyncState
  handoff : HandoffState
  ofSyncRuns : ∀ event ∈ sync.events.rows, ∀ p : String,
    event.scrapeRunId ≠ some (p ++ "-" ++ PipelineStage.notify.suffix)

/-- A trigger, and what the process it starts builds its hooks with. -/
structure ScheduledStageRun where
  trigger : Trigger
  hooks : DeliveryHooks

/-! ### The ids of the runs -/

theorem runSingleStageId_suffix {runId id : String} {stage : PipelineStage}
    (h : runSingleStageId runId stage = some id) : ∃ p, id = p ++ "-" ++ stage.suffix := by
  by_cases hbase : baseRunIdWithoutStageSuffix runId = ""
  · rw [runSingleStageId, hbase] at h
    cases h
  · rw [runSingleStageId, suffixedRunId_of_ne hbase] at h
    exact ⟨_, (Option.some.inj h).symm⟩

theorem Trigger.stageRunId_suffix {trigger : Trigger} {runs : ScrapeRuns} {id : String}
    (h : trigger.stageRunId runs = some id) :
    ∃ p, id = p ++ "-" ++ trigger.stage.pipelineStage.suffix := by
  obtain ⟨runId, -, hstage⟩ := Option.bind_eq_some_iff.mp h
  exact runSingleStageId_suffix hstage

theorem DeliveryHooks.syncHook_state (hooks : DeliveryHooks) (runId : String) (s : SyncState) :
    (hooks.syncHook runId s).2 = hooks.sync.runOnce s ⟨hooks.db, hooks.syncParams runId⟩ := by
  unfold syncHook BackendSyncWorker.runOnce
  split <;> simp_all

namespace ScheduledStageRun

variable (run : ScheduledStageRun) (tables : DeliveryTables)

/-- The id the hook of a stage is called with: none where the trigger is of another stage or is
    skipped, or its run ends before a row is written. -/
def hookRunId (stage : ScheduledStage) : Option String :=
  if run.trigger.stage = stage ∧ run.trigger.outcome.isSome = true then
    run.trigger.stageRunId tables.runs
  else none

/-- The call of the sync hook. -/
def syncAfter : SyncState :=
  match run.hookRunId tables .sync with
  | some id => (run.hooks.syncHook id tables.sync).2
  | none => tables.sync

/-- The call of the handoff hook, whose cell no sync hook has filled. -/
def handoff : Option HandoffRun :=
  (run.hookRunId tables .notifyHandoff).map fun id => run.hooks.handoffHook none id tables.sync

theorem hookRunId_suffix {stage : ScheduledStage} {id : String}
    (h : run.hookRunId tables stage = some id) : ∃ p, id = p ++ "-" ++ stage.pipelineStage.suffix := by
  unfold hookRunId at h
  split at h
  · next hstage =>
    rw [← hstage.1]
    exact Trigger.stageRunId_suffix h
  · cases h

/-- A scheduled sync stamps its events with an id of the sync stage. -/
theorem ofSyncRuns_syncAfter : ∀ event ∈ (run.syncAfter tables).events.rows, ∀ p : String,
    event.scrapeRunId ≠ some (p ++ "-" ++ PipelineStage.notify.suffix) := by
  intro event hevent p
  unfold syncAfter at hevent
  split at hevent
  · next id hid =>
    obtain ⟨q, rfl⟩ := hookRunId_suffix run tables hid
    rw [DeliveryHooks.syncHook_state] at hevent
    rcases (run.hooks.sync.stampedBy_runOnce tables.sync _).of_mem event hevent with
      hself | ⟨old, hold, heq⟩
    · rw [hself]
      exact fun h => syncId_ne_notifyId q p (Option.some.inj h)
    · exact heq ▸ tables.ofSyncRuns old hold p
  · exact tables.ofSyncRuns event hevent p

/-- The tables after a scheduled run. -/
def next : DeliveryTables where
  runs := run.trigger.next tables.runs
  sync := run.syncAfter tables
  handoff := ((run.handoff tables).map fun call => call.next tables.handoff).getD tables.handoff
  ofSyncRuns := run.ofSyncRuns_syncAfter tables

/-- The chunks a scheduled run posts to the notification endpoint. -/
def posts : List (List HandoffKey) :=
  ((run.handoff tables).map fun call => call.posts tables.handoff).getD []

/-- A scheduled handoff selects nothing. -/
theorem selected_eq_nil {call : HandoffRun} (h : run.handoff tables = some call) :
    call.selected = [] := by
  obtain ⟨id, hid, rfl⟩ := Option.map_eq_some_iff.mp h
  obtain ⟨p, rfl⟩ := hookRunId_suffix run tables hid
  refine List.eq_nil_iff_forall_not_mem.mpr fun syncEvent hmem => ?_
  simp only [HandoffRun.selected, listSyncedJobsForRun, List.mem_insertionSort, List.mem_filter,
    Bool.and_eq_true, decide_eq_true_eq] at hmem
  exact tables.ofSyncRuns syncEvent hmem.1 p hmem.2.1.1

/-- A scheduled run posts nothing. -/
theorem not_mem_posts (key : HandoffKey) : key ∉ (run.posts tables).flatten := by
  unfold posts
  cases hcall : run.handoff tables with
  | none => simp
  | some call =>
    intro hmem
    have hkeys : key ∈ call.keys := (HandoffRun.mem_posts hmem).2.1
    rw [HandoffRun.keys, selected_eq_nil run tables hcall] at hkeys
    cases hkeys

end ScheduledStageRun

/-! ### Days -/

/-- The tables after some runs of a day. -/
def afterScheduledRuns (tables : DeliveryTables) (runs : List ScheduledStageRun) : DeliveryTables :=
  runs.foldl (fun tables run => run.next tables) tables

/-- The tables at the start of a day. -/
def atStartOf (days : ℕ → List ScheduledStageRun) (tables : DeliveryTables) : ℕ → DeliveryTables
  | 0 => tables
  | d + 1 => afterScheduledRuns (atStartOf days tables d) (days d)

/-- A run of the day attempts a handoff event. -/
def AttemptedOn (days : ℕ → List ScheduledStageRun) (tables : DeliveryTables) (d : ℕ) (key : HandoffKey) :
    Prop :=
  ∃ earlier run rest, days d = earlier ++ run :: rest ∧
    key ∈ (run.posts (afterScheduledRuns (atStartOf days tables d) earlier)).flatten

/-- What is left to hand off: a failed event with attempts left, or a sent sync event that has no
    handoff event. -/
def Leftover (maxAttempts : ℕ) (tables : DeliveryTables) (key : HandoffKey) : Prop :=
  (∃ attempts, handoffLedger tables.handoff.events key = some ⟨.failed, attempts⟩ ∧
    attempts < maxAttempts) ∨
  (handoffLedger tables.handoff.events key = none ∧ ∃ syncEvent ∈ tables.sync.events.rows,
    syncEvent.target = "backend" ∧ syncEvent.status = .sent ∧
      ∃ runId, syncEvent.scrapeRunId = some runId ∧ handoffKey runId syncEvent = key)

/-- What a day leaves over is attempted on a later day. -/
def NoLostHandoff (maxAttempts : ℕ) (days : ℕ → List ScheduledStageRun) (tables : DeliveryTables) : Prop :=
  ∀ d key, Leftover maxAttempts (atStartOf days tables (d + 1)) key →
    ∃ later, d < later ∧ AttemptedOn days tables later key

theorem not_attemptedOn (days : ℕ → List ScheduledStageRun) (tables : DeliveryTables) (d : ℕ)
    (key : HandoffKey) : ¬ AttemptedOn days tables d key := by
  rintro ⟨earlier, run, rest, -, hmem⟩
  exact run.not_mem_posts _ key hmem

/-- Nothing has been scraped, synced or handed off. -/
def noDeliveries : DeliveryTables where
  runs := .empty _
  sync := .initial 0
  handoff := .initial 0
  ofSyncRuns _ hevent := absurd hevent List.not_mem_nil

/-- Hooks for a job of the fourth of May; both endpoints accept every post. -/
def mayHooks : DeliveryHooks :=
  { oneJobHooks with
    db := ⟨⟨[plainRaw "scheduled-20260504-scrape"], by decide⟩, oneJobHooks.db.normalizedJobs⟩ }

/-- A sync and a handoff on the fourth, and a handoff on every day of May after it. -/
def inMay (d : ℕ) : List ScheduledStageRun :=
  if h : 4 + d < 32 then
    let date : Day := { fourthOfMay with day := 4 + d, day_lt := h }
    if d = 0 then [⟨⟨.sync, date, some .completed⟩, mayHooks⟩,
      ⟨⟨.notifyHandoff, date, some .completed⟩, mayHooks⟩]
    else [⟨⟨.notifyHandoff, date, some .completed⟩, mayHooks⟩]
  else []

end Bisakerja
