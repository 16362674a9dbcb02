import BisakerjaScraper.Notifications.Candidates
import BisakerjaScraper.Pipeline.RunIds
import BisakerjaScraper.Sync.Frame

/-! The run whose sync events a handoff selects.

    In one process the handoff hook reads the run id of the sync stage from a cell that the sync hook
    has filled. In a process of its own the cell is empty and the hook takes its own run id, which no
    sync event carries. -/

namespace Bisakerja
open Schemes Schemes.Delivery

/-- Ids of different stages are different, whatever they are derived from. -/
theorem syncId_ne_notifyId (p q : String) :
    p ++ "-" ++ PipelineStage.sync.suffix ≠ q ++ "-" ++ PipelineStage.notify.suffix := by
  intro h
  have hlast := congrArg (fun s : String => s.toList.getLast?) h
  simp [PipelineStage.suffix, String.toList_append, List.getLast?_append] at hlast

/-- What the two hooks are built with. -/
structure DeliveryHooks where
  sync : BackendSyncWorker
  handoff : RecommendationHandoffWorker
  db : JobTables
  maxJobs : ℤ
  syncBatchSize : ℤ
  executed : List String

namespace DeliveryHooks

variable (hooks : DeliveryHooks)

/-- The arguments `sync_hook` passes on. -/
def syncParams (runId : String) : SyncParams where
  scrapeRunId := some runId
  limit := hooks.maxJobs
  batchSize := some hooks.syncBatchSize
  sourcePlatforms := some hooks.executed

/-- `sync_hook`: `sync_run_id`, filled once the worker has returned, and the session. -/
def syncHook (runId : String) (s : SyncState) : Option String × SyncState :=
  match hooks.sync.syncEligibleJobs hooks.db (hooks.syncParams runId) s with
  | some (.ok _, s') => (some runId, s')
  | some (.error _, s') => (none, s')
  | none => (none, s)

/-- `handoff_hook`: the call of the worker. -/
def handoffHook (syncRunId : Option String) (runId : String) (s : SyncState) : HandoffRun where
  worker := hooks.handoff
  jobs := hooks.db.normalizedJobs
  syncEvents := s.events
  scrapeRunId := syncRunId.getD runId

/-- The id of a stage; the table chooses one where the command gives none. -/
def stageId (id : Option String) : String := id.getD ""

/-- The sync stage of `run_full`. -/
def fullSync (runId : String) (s : SyncState) : Option String × SyncState :=
  hooks.syncHook (stageId (runFullStageId runId .sync)) s

/-- The handoff stage of `run_full`, in the process of its sync stage. -/
def fullHandoff (runId : String) (s : SyncState) : HandoffRun :=
  hooks.handoffHook (hooks.fullSync runId s).1 (stageId (runFullStageId runId .notify))
    (hooks.fullSync runId s).2

/-- The sync stage as a command of its own. -/
def syncCommand (runId : String) (s : SyncState) : SyncState :=
  (hooks.syncHook (stageId (runSingleStageId runId .sync)) s).2

/-- The handoff stage as a command of its own. -/
def notifyCommand (runId : String) (s : SyncState) : HandoffRun :=
  hooks.handoffHook none (stageId (runSingleStageId runId .notify)) (hooks.syncCommand runId s)

end DeliveryHooks

/-- The jobs and payloads a call hands off. -/
def HandoffRun.handedOff (run : HandoffRun) (s : HandoffState) : Set (String × Dict) :=
  {x | ∃ k ∈ (run.posts s).flatten, ∃ event, (run.next s).events.find? k = some event ∧
    x = (event.normalizedJobId, event.payloadJson)}

/-- The two commands hand off what the one run hands off, and every event that the sync command has
    sent is among it. -/
structure StagesAgree (hooks : DeliveryHooks) (runId : String) (s : SyncState) (h : HandoffState) :
    Prop where
  same : (hooks.fullHandoff runId s).handedOff h = (hooks.notifyCommand runId s).handedOff h
  sentHandedOff : ∀ syncEvent ∈ listSyncedJobsForRun (hooks.syncCommand runId s).events
      (DeliveryHooks.stageId (runSingleStageId runId .sync)),
    handoffKey (DeliveryHooks.stageId (runSingleStageId runId .sync)) syncEvent
      ∈ ((hooks.notifyCommand runId s).posts h).flatten

/-! ### What is handed off -/

theorem HandoffRun.handedOff_eq_empty {run : HandoffRun} {s : HandoffState}
    (h : run.NothingDue s) : run.handedOff s = ∅ := by
  refine Set.eq_empty_iff_forall_notMem.mpr ?_
  rintro x ⟨k, hk, -⟩
  rw [HandoffRun.posts_flatten_eq_nil_iff.mpr h] at hk
  cases hk

/-- What is handed off is a candidate of the run. -/
theorem HandoffRun.candidate_of_handedOff {run : HandoffRun} {s : HandoffState} {x : String × Dict}
    (h : x ∈ run.handedOff s) : ∃ syncEvent job, run.jobs.find? job.id = some job ∧
      x = (job.id, candidatePayloadFrom run.worker.isoformat syncEvent run.scrapeRunId job) := by
  obtain ⟨k, hk, event, hfind, rfl⟩ := h
  obtain ⟨-, -, -, syncEvent, -, job, event', -, hjob, hfind', hid, hpayload⟩ := mem_posts hk
  rw [hfind] at hfind'
  cases hfind'
  refine ⟨syncEvent, job, ?_, by rw [hid, hpayload]⟩
  rw [Table.key_of_find? hjob]
  exact hjob

/-- The event id of a candidate tells the run. -/
theorem candidatePayloadFrom_runId {isoformat isoformat' : Time → String}
    {syncEvent syncEvent' : SyncEvent} {runId runId' : String} {job : NormalizedJob}
    (h : candidatePayloadFrom isoformat syncEvent runId job
      = candidatePayloadFrom isoformat' syncEvent' runId' job) : runId = runId' := by
  have hid : runId ++ ":" ++ job.sourcePlatform ++ ":" ++ job.externalId
      = runId' ++ ":" ++ job.sourcePlatform ++ ":" ++ job.externalId := by
    simp only [candidatePayloadFrom, List.cons.injEq, Prod.mk.injEq, Json.str.injEq] at h
    exact h.1.2
  refine String.toList_injective ?_
  have hlist := congrArg String.toList hid
  simp only [String.toList_append, List.append_assoc] at hlist
  exact List.append_cancel_right hlist

/-- Two calls over the same jobs but for different runs hand off nothing in common. -/
theorem HandoffRun.not_mem_handedOff {run run' : HandoffRun} {s : HandoffState} {x : String × Dict}
    (hjobs : run.jobs = run'.jobs) (hne : run.scrapeRunId ≠ run'.scrapeRunId)
    (h : x ∈ run.handedOff s) : x ∉ run'.handedOff s := by
  intro h'
  obtain ⟨syncEvent, job, hjob, rfl⟩ := candidate_of_handedOff h
  obtain ⟨syncEvent', job', hjob', heq⟩ := candidate_of_handedOff h'
  obtain ⟨hid, hpayload⟩ := Prod.mk.inj heq
  rw [← hid, ← hjobs, hjob] at hjob'
  cases hjob'
  exact hne (candidatePayloadFrom_runId hpayload)

theorem HandoffRun.nothingDue_of_handedOff {run : HandoffRun} {s : HandoffState}
    (h : run.handedOff s = ∅) : run.NothingDue s := by
  rw [← posts_flatten_eq_nil_iff, List.eq_nil_iff_forall_not_mem]
  intro k hk
  obtain ⟨-, -, -, -, -, -, event, -, -, hfind, -⟩ := mem_posts hk
  have hmem : (event.normalizedJobId, event.payloadJson) ∈ run.handedOff s :=
    ⟨k, hk, event, hfind, rfl⟩
  rw [h] at hmem
  exact hmem

/-- Calls for different runs hand off the same only where neither has anything to hand off. -/
theorem HandoffRun.handedOff_eq_iff {run run' : HandoffRun} {s : HandoffState}
    (hjobs : run.jobs = run'.jobs) (hne : run.scrapeRunId ≠ run'.scrapeRunId) :
    run.handedOff s = run'.handedOff s ↔ run.NothingDue s ∧ run'.NothingDue s := by
  constructor
  · intro hsame
    have hempty : run.handedOff s = ∅ := by
      refine Set.eq_empty_iff_forall_notMem.mpr fun x hx => ?_
      exact not_mem_handedOff hjobs hne hx (hsame.subset hx)
    exact ⟨nothingDue_of_handedOff hempty, nothingDue_of_handedOff (hsame.symm.trans hempty)⟩
  · rintro ⟨h, h'⟩
    rw [handedOff_eq_empty h, handedOff_eq_empty h']

/-! ### The two runs -/

namespace DeliveryHooks

variable {hooks : DeliveryHooks} {runId : String}

/-- The sync hook always returns, so it has filled the cell. -/
theorem syncHook_cell (hooks : DeliveryHooks) (runId : String) (s : SyncState) :
    (hooks.syncHook runId s).1 = some runId := by
  have htrivial : hooks.sync.LoopInvariant hooks.db (hooks.syncParams runId) fun _ _ _ => True :=
    ⟨fun _ _ _ _ _ _ _ _ _ _ _ _ _ => trivial, fun _ _ _ _ _ _ _ _ _ _ _ _ _ _ _ => trivial⟩
  obtain ⟨g, s', heq, -⟩ := htrivial.syncEligibleJobs Int.one_pos s fun _ _ _ _ => trivial
  simp only [syncHook, heq]

/-- The cell of the full run holds the sync id of the run. -/
theorem fullHandoff_scrapeRunId (h : runId ≠ "") (s : SyncState) :
    (hooks.fullHandoff runId s).scrapeRunId = runId ++ "-" ++ PipelineStage.sync.suffix := by
  change (hooks.fullSync runId s).1.getD _ = _
  rw [fullSync, syncHook_cell, Option.getD_some, runFullStageId, suffixedRunId_of_ne h]
  rfl

/-- The command of its own selects by its own id. -/
theorem notifyCommand_scrapeRunId (h : baseRunIdWithoutStageSuffix runId ≠ "") (s : SyncState) :
    (hooks.notifyCommand runId s).scrapeRunId
      = baseRunIdWithoutStageSuffix runId ++ "-" ++ PipelineStage.notify.suffix := by
  change stageId (runSingleStageId runId .notify) = _
  rw [runSingleStageId, suffixedRunId_of_ne h]
  rfl

end DeliveryHooks

/-- BUG: the handoff command selects the events of its own run id, which no sync run uses. The two
    commands and the one run agree exactly where there is nothing to hand off. -/
theorem stagesAgree_iff (hooks : DeliveryHooks) (runId : String) (s : SyncState) (h : HandoffState)
    (hbase : baseRunIdWithoutStageSuffix runId ≠ "") :
    StagesAgree hooks runId s h ↔
      (hooks.fullHandoff runId s).NothingDue h ∧ (hooks.notifyCommand runId s).NothingDue h ∧
        listSyncedJobsForRun (hooks.syncCommand runId s).events
          (DeliveryHooks.stageId (runSingleStageId runId .sync)) = [] := by
  have hrun : runId ≠ "" := by
    rintro rfl
    exact hbase rfl
  have hne : (hooks.fullHandoff runId s).scrapeRunId ≠ (hooks.notifyCommand runId s).scrapeRunId := by
    rw [DeliveryHooks.fullHandoff_scrapeRunId hrun, DeliveryHooks.notifyCommand_scrapeRunId hbase]
    exact syncId_ne_notifyId _ _
  have hjobs : (hooks.fullHandoff runId s).jobs = (hooks.notifyCommand runId s).jobs := rfl
  have hsame := HandoffRun.handedOff_eq_iff hjobs hne (s := h)
  constructor
  · rintro ⟨hagree, hsent⟩
    obtain ⟨hfull, hnotify⟩ := hsame.mp hagree
    refine ⟨hfull, hnotify, List.eq_nil_iff_forall_not_mem.mpr fun syncEvent hmem => ?_⟩
    have hposted := hsent syncEvent hmem
    rw [HandoffRun.posts_flatten_eq_nil_iff.mpr hnotify] at hposted
    cases hposted
  · rintro ⟨hfull, hnotify, hsent⟩
    refine ⟨hsame.mpr ⟨hfull, hnotify⟩, fun syncEvent hmem => ?_⟩
    rw [hsent] at hmem
    cases hmem

/-! ### One job -/

/-- The hooks of a run that has scraped one job; both endpoints accept every post. -/
def oneJobHooks : DeliveryHooks where
  sync := plainWorker 3 fun _ _ => accepted
  handoff :=
    { host := ⟨fun t => t, fun t => toString t, fun _ => 0⟩
      hash := plainHash
      isoformat := fun t => toString t
      client := fun _ _ => .ok ⟨[]⟩ }
  db := ⟨⟨[plainRaw "day-scrape"], by decide⟩, ⟨[scrapedJob], List.nodup_singleton _⟩⟩
  maxJobs := 10
  syncBatchSize := 10
  executed := ["dealls"]

/-- The sync of `day` has sent the job, and the handoff command of `day` posts nothing. -/
theorem separate_handoff_posts_nothing :
    ¬ StagesAgree oneJobHooks "day" (.initial 0) (.initial 0) := by
  intro hagree
  have hsent : (listSyncedJobsForRun (oneJobHooks.syncCommand "day" (.initial 0)).events
      (DeliveryHooks.stageId (runSingleStageId "day" .sync))).length = 1 := by decide +kernel
  obtain ⟨syncEvent, hmem⟩ := List.exists_mem_of_length_pos (by omega : 0 < List.length
    (listSyncedJobsForRun (oneJobHooks.syncCommand "day" (.initial 0)).events
      (DeliveryHooks.stageId (runSingleStageId "day" .sync))))
  have hposts : (oneJobHooks.notifyCommand "day" (.initial 0)).posts (.initial 0) = [] := by
    decide +kernel
  have hposted := hagree.sentHandedOff syncEvent hmem
  rw [hposts] at hposted
  cases hposted

theorem stagesAgree_iff_day :
    StagesAgree oneJobHooks "day-sync" (.initial 0) (.initial 0) ↔
      (oneJobHooks.fullHandoff "day-sync" (.initial 0)).NothingDue (.initial 0) ∧
        (oneJobHooks.notifyCommand "day-sync" (.initial 0)).NothingDue (.initial 0) ∧
        listSyncedJobsForRun (oneJobHooks.syncCommand "day-sync" (.initial 0)).events
          (DeliveryHooks.stageId (runSingleStageId "day-sync" .sync)) = [] :=
  stagesAgree_iff oneJobHooks "day-sync" (.initial 0) (.initial 0) (by decide)

end Bisakerja
