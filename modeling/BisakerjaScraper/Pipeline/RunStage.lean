import BisakerjaScraper.Eligibility.Known
import BisakerjaScraper.Pipeline.RunStatus
import BisakerjaScraper.Pipeline.SourceCalls

/-! The row of a run after `run_stage`.

    A run is started and finished by the tracker, each time with a commit. Between the two, the hook
    stages stand under a handler that finishes the run too; the scrape and the normalize stage do
    not, and what leaves one of their sources leaves the run as well. -/

namespace Bisakerja
open Schemes

/-- `RunStage`. -/
inductive RunStage where | scrape | normalize | enrich | sync | notifyHandoff | pipeline
  deriving DecidableEq

/-- `RunStage.value`. -/
def RunStage.value : RunStage → String
  | .scrape => "scrape"
  | .normalize => "normalize"
  | .enrich => "enrich"
  | .sync => "sync"
  | .notifyHandoff => "notify-handoff"
  | .pipeline => "pipeline"

/-- The stages that run a hook. -/
def hookStages : List String :=
  [RunStage.enrich.value, RunStage.sync.value, RunStage.notifyHandoff.value]

/-- A write of the tracker: its commit, and the refresh that follows. -/
structure TrackerCalls where
  commit : Option PyException := none
  refresh : Option PyException := none

/-- A computation on the row of a run as the database has it: none before the run is started. -/
abbrev RunM := Stateful (Option RunRecord) PyException

/-- The end of `start_run` and of `_finish`. -/
def TrackerCalls.save (calls : TrackerCalls) (record : RunRecord) : RunM PUnit := do
  .call calls.commit
  .change fun _ => some record
  .call calls.refresh

/-- The row that `_finish` writes. -/
def finishedRecord (status : RunStatus) (summary : RunSummary)
    (errorCategory errorMessage : Option String) : RunRecord where
  status := status
  rawRecordsCount := summary.counts.fetched
  normalizedRecordsCount := summary.counts.normalized
  errorCategory := errorCategory
  errorMessage := errorMessage
  summary := summary

/-- A source of a run. -/
structure PipelineSource where
  scrape : ScrapeCalls
  normalize : NormalizeCalls
  samePlatform : scrape.started.sourcePlatform = normalize.sourcePlatform := by rfl

/-- `unique_sources_by_platform`. -/
def PipelineSource.uniqueByPlatform (sources : List PipelineSource) : List PipelineSource :=
  (sources.foldl (fun (acc : List PipelineSource × List String) source =>
    if source.normalize.sourcePlatform ∈ acc.2 then acc
    else (acc.1 ++ [source], acc.2 ++ [source.normalize.sourcePlatform])) ([], [])).1

/-- `PipelineResult` without its ids and stage events. -/
structure PipelineResult where
  status : RunStatus
  counts : RunCounts
  sourceResults : List SourcePipelineResult := []

/-- A call of `run_stage`: the orchestrator with its sources, its hooks by stage, and what the tracker
    meets where it starts the run and where it finishes it. -/
structure StageRun where
  settings : StageSettings
  sources : List PipelineSource
  stageHook : String → Option (Except PyException (Option RunCounts)) := fun _ => none
  starting : TrackerCalls := {}
  finishing : TrackerCalls := {}
  completing : TrackerCalls := {}
  failing : TrackerCalls := {}

/-- What a source returns, or raises. -/
def sourceResult (pass : SourceM PUnit) (started : SourcePipelineResult) :
    Except PyException SourcePipelineResult :=
  match pass started with
  | (.ok _, result) => .ok result
  | (.error exc, _) => .error exc

namespace StageRun

variable (run : StageRun) (stage : String)

/-- `self.config.allow_partial`. -/
def allowPartial : Bool := run.settings.config.allowPartial

/-- `_scrape_source` of a source. -/
def scrapeResult (source : PipelineSource) : Except PyException SourcePipelineResult :=
  sourceResult (source.scrape.scrapeSource run.allowPartial) source.scrape.started

/-- `_normalize_source` of a source. -/
def normalizeResult (source : PipelineSource) : Except PyException SourcePipelineResult :=
  sourceResult (source.normalize.normalizeSource run.settings)
    { sourcePlatform := source.normalize.sourcePlatform, status := .started }

/-- `_finish_stage_run`. -/
def finishStage (results : List SourcePipelineResult) : RunM PipelineResult := do
  run.finishing.save (finishStageRun results)
  pure
    { status := (finishStageRun results).status
      counts := (mergeSourceResults results).counts
      sourceResults := results }

/-- `run_scrape`. `asyncio.gather` raises what one of the sources raised; which one does not matter
    for the row. -/
def runScrape : RunM PipelineResult := do
  run.starting.save {}
  let results ← Stateful.ofExcept (run.sources.mapM run.scrapeResult)
  run.finishStage results

/-- `run_normalize`. -/
def runNormalize : RunM PipelineResult := do
  run.starting.save {}
  let results ← Stateful.ofExcept
    ((PipelineSource.uniqueByPlatform run.sources).mapM run.normalizeResult)
  run.finishStage results

/-- `await hook(run.id, correlation_id)`, where there is a hook. -/
def callHook : RunM PUnit :=
  match run.stageHook stage with
  | some (.error exc) => .raise exc
  | _ => pure ⟨⟩

/-- `summary.counts`: those a hook has returned. -/
def hookCounts : RunCounts :=
  match run.stageHook stage with
  | some (.ok counts) => counts.getD {}
  | _ => {}

/-- The `try` block of `_run_hook_stage`. -/
def completeHook : RunM PipelineResult := do
  run.callHook stage
  run.completing.save (finishedRecord .completed { counts := run.hookCounts stage } none none)
  pure { status := .completed, counts := run.hookCounts stage }

/-- The `except` block of `_run_hook_stage`. -/
def failHook (exc : PyException) : RunM PipelineResult := do
  let error := errorSummary "all" exc
  run.failing.save (finishedRecord .failed { counts := run.hookCounts stage, errors := [error] }
    (some error.category) (some error.message))
  if run.allowPartial then pure { status := .failed, counts := run.hookCounts stage }
  else .raise exc

/-- `_run_hook_stage`. -/
def runHookStage : RunM PipelineResult := do
  run.starting.save {}
  .handle (run.completeHook stage) (run.failHook stage)

/-- `run_stage`. -/
def runStage : RunM PipelineResult :=
  if stage = RunStage.scrape.value then run.runScrape
  else if stage = RunStage.normalize.value then run.runNormalize
  else if stage ∈ hookStages then run.runHookStage stage
  else .raise (.plain "ValueError" ("unsupported pipeline stage: " ++ stage))

/-- What is in the database when `run_stage` has returned or raised. -/
def row : Option RunRecord := (run.runStage stage none).2

/-! ### When the row is finished -/

/-- A stage comes to its end: no source lets an exception out, or a hook that fails is recorded; and
    the commit of the tracker goes through. -/
def StageFinishes : Prop :=
  if stage = RunStage.scrape.value then
    (∀ source ∈ run.sources, ¬ source.scrape.Escapes run.allowPartial) ∧ run.finishing.commit = none
  else if stage = RunStage.normalize.value then
    (∀ source ∈ PipelineSource.uniqueByPlatform run.sources,
      ¬ source.normalize.Escapes run.settings) ∧ run.finishing.commit = none
  else
    ((∀ exc, run.stageHook stage ≠ some (.error exc)) ∧ run.completing.commit = none) ∨
      run.failing.commit = none

/-- A run that is started is finished. -/
def Finishes : Prop :=
  stage ∈ RunStage.scrape.value :: RunStage.normalize.value :: hookStages →
    run.starting.commit = none → run.starting.refresh = none ∧ run.StageFinishes stage

end StageRun

/-! ### Where a row is left running -/

/-- The row of a run that is not finished. -/
def StillStarted (row : Option RunRecord) : Prop :=
  ∃ record, row = some record ∧ record.status = .started

theorem stillStarted_some {record : RunRecord} :
    StillStarted (some record) ↔ record.status = .started := by
  constructor
  · rintro ⟨_, heq, hstatus⟩
    cases heq
    exact hstatus
  · intro hstatus
    exact ⟨record, rfl, hstatus⟩

/-- `_finish_stage_run` completes the run or makes it partial. -/
theorem finishStageRun_finished (results : List SourcePipelineResult) :
    (finishStageRun results).status ≠ .started := by
  unfold finishStageRun
  dsimp only
  split <;> exact nofun

/-- A source that ends with a known outcome raises exactly then. -/
theorem error_sourceResult_iff {pass : SourceM PUnit} {c : Prop} (h : Ends pass c ⟨⟩)
    (started : SourcePipelineResult) : (∃ exc, sourceResult pass started = .error exc) ↔ c := by
  rw [← h.exists_error_iff started]
  unfold sourceResult
  rcases pass started with ⟨exc | _, result⟩
  · exact iff_of_true ⟨exc, rfl⟩ ⟨exc, rfl⟩
  · refine iff_of_false ?_ ?_ <;>
    · rintro ⟨exc, heq⟩
      cases heq

namespace StageRun

variable {run : StageRun} {stage : String}

/-- A started run is left running when the refresh behind the start raises, or what follows leaves
    it so. -/
theorem stillStarted_starting_iff {m : RunM PipelineResult} :
    StillStarted ((run.starting.save {} >>= fun _ => m) none).2 ↔
      run.starting.commit = none ∧
        (run.starting.refresh ≠ none ∨ StillStarted (m (some {})).2) := by
  have hrun : (run.starting.save {} >>= fun _ => m) none
      = match run.starting.commit, run.starting.refresh with
        | some exc, _ => (.error exc, none)
        | none, some exc => (.error exc, some {})
        | none, none => m (some {}) := by
    unfold TrackerCalls.save
    cases run.starting.commit <;> cases run.starting.refresh <;> rfl
  rw [hrun]
  rcases run.starting.commit with _ | exc
  · rcases run.starting.refresh with _ | exc
    · simp
    · exact iff_of_true ⟨_, rfl, rfl⟩ ⟨rfl, .inl nofun⟩
  · refine iff_of_false ?_ nofun
    rintro ⟨record, heq, -⟩
    cases heq

/-- A stage without a handler leaves it running when a source raises, or the commit of the tracker
    does. -/
theorem stillStarted_finishStage_iff {outcome : Except PyException (List SourcePipelineResult)} :
    StillStarted ((Stateful.ofExcept outcome >>= run.finishStage) (some {})).2 ↔
      (∃ exc, outcome = .error exc) ∨ run.finishing.commit ≠ none := by
  cases outcome with
  | error exc => exact iff_of_true ⟨_, rfl, rfl⟩ (.inl ⟨exc, rfl⟩)
  | ok results =>
    have hrow : ((Stateful.ofExcept (.ok results) >>= run.finishStage) (some {})).2
        = if run.finishing.commit = none then some (finishStageRun results) else some {} := by
      change (run.finishStage results (some {})).2 = _
      unfold finishStage TrackerCalls.save
      cases run.finishing.commit <;> cases run.finishing.refresh <;> rfl
    rw [hrow]
    split
    · next hcommit =>
      rw [stillStarted_some]
      exact iff_of_false (finishStageRun_finished results) (by simp [hcommit])
    · next hcommit => exact iff_of_true ⟨_, rfl, rfl⟩ (.inr hcommit)

/-- The row after the handler of a hook stage. -/
theorem failHook_row (exc : PyException) (row : Option RunRecord) :
    (run.failHook stage exc row).2
      = if run.failing.commit = none then
          some (finishedRecord .failed
            { counts := run.hookCounts stage, errors := [errorSummary "all" exc] }
            (some (errorSummary "all" exc).category) (some (errorSummary "all" exc).message))
        else row := by
  unfold failHook TrackerCalls.save
  cases run.failing.commit <;> cases run.failing.refresh <;> cases run.allowPartial <;> rfl

/-- The handler leaves a row running that was so, unless its commit goes through. -/
theorem stillStarted_failHook_iff {exc : PyException} {row : Option RunRecord} :
    StillStarted (run.failHook stage exc row).2 ↔
      StillStarted row ∧ run.failing.commit ≠ none := by
  rw [failHook_row]
  split
  · next hcommit =>
    rw [stillStarted_some]
    exact iff_of_false nofun fun h => h.2 hcommit
  · next hcommit => exact ⟨fun h => ⟨h, hcommit⟩, And.left⟩

/-- The `try` block of a hook stage ends with the row as it was, by an exception, or completed. -/
theorem completeHook_cases (run : StageRun) (stage : String) :
    ((∃ exc, run.stageHook stage = some (.error exc)) ∨ run.completing.commit ≠ none) ∧
        (∃ exc, run.completeHook stage (some {}) = (.error exc, some {})) ∨
      (¬ (∃ exc, run.stageHook stage = some (.error exc)) ∧ run.completing.commit = none) ∧
        ∃ record, (run.completeHook stage (some {})).2 = some record ∧
          record.status = .completed := by
  unfold completeHook callHook TrackerCalls.save
  rcases run.stageHook stage with _ | exc | counts
  rotate_left
  · exact .inl ⟨.inl ⟨exc, rfl⟩, exc, rfl⟩
  all_goals
    cases run.completing.commit with
    | some exc => exact .inl ⟨.inr nofun, exc, rfl⟩
    | none =>
      refine .inr ⟨⟨nofun, rfl⟩, ?_⟩
      cases run.completing.refresh <;> exact ⟨_, rfl, rfl⟩

/-- A hook stage leaves it running when neither commit of the tracker goes through. -/
theorem stillStarted_hook_iff :
    StillStarted (Stateful.handle (run.completeHook stage) (run.failHook stage) (some {})).2 ↔
      ((∃ exc, run.stageHook stage = some (.error exc)) ∨ run.completing.commit ≠ none) ∧
        run.failing.commit ≠ none := by
  unfold Stateful.handle
  rcases completeHook_cases run stage with
    ⟨hfails, exc, heq⟩ | ⟨⟨hhook, hcommit⟩, record, hrow, hstatus⟩
  · rw [heq]
    dsimp only
    rw [stillStarted_failHook_iff, stillStarted_some]
    exact ⟨fun h => ⟨hfails, h.2⟩, fun h => ⟨rfl, h.2⟩⟩
  · have hdone : ¬ StillStarted (some record) := by
      rw [stillStarted_some, hstatus]
      exact nofun
    refine iff_of_false ?_ fun h => h.1.elim hhook fun h => h hcommit
    revert hrow
    rcases run.completeHook stage (some {}) with ⟨exc | result, row⟩
    · rintro rfl
      rw [stillStarted_failHook_iff]
      exact fun h => hdone h.1
    · rintro rfl
      exact hdone

/-- Which sources a scrape loses its run over. -/
theorem scrapeResult_error_iff :
    (∃ exc, run.sources.mapM run.scrapeResult = .error exc) ↔
      ∃ source ∈ run.sources, source.scrape.Escapes run.allowPartial :=
  error_mapM_iff.trans (exists_congr fun _ =>
    and_congr_right fun _ => error_sourceResult_iff ScrapeCalls.ends_scrapeSource _)

/-- And a normalize run. -/
theorem normalizeResult_error_iff {sources : List PipelineSource} :
    (∃ exc, sources.mapM run.normalizeResult = .error exc) ↔
      ∃ source ∈ sources, source.normalize.Escapes run.settings :=
  error_mapM_iff.trans (exists_congr fun _ =>
    and_congr_right fun _ => error_sourceResult_iff NormalizeCalls.ends_normalizeSource _)

/-- A stage that is started is left running exactly when it does not finish. -/
theorem stillStarted_iff
    (hstage : stage ∈ RunStage.scrape.value :: RunStage.normalize.value :: hookStages) :
    StillStarted (run.row stage) ↔
      run.starting.commit = none ∧ (run.starting.refresh ≠ none ∨ ¬ run.StageFinishes stage) := by
  unfold row runStage StageFinishes
  split
  · unfold runScrape
    rw [stillStarted_starting_iff, stillStarted_finishStage_iff, scrapeResult_error_iff]
    simp only [not_and_or, not_forall, not_not, exists_prop, ne_eq]
  · split
    · unfold runNormalize
      rw [stillStarted_starting_iff, stillStarted_finishStage_iff, normalizeResult_error_iff]
      simp only [not_and_or, not_forall, not_not, exists_prop, ne_eq]
    · next hscrape hnormalize =>
      have hhook : stage ∈ hookStages := by
        simpa [hscrape, hnormalize] using hstage
      rw [if_pos hhook]
      unfold runHookStage
      rw [stillStarted_starting_iff, stillStarted_hook_iff]
      simp only [not_or, not_and_or, not_forall, not_not, ne_eq]

end StageRun

/-- BUG: `run_scrape` and `run_normalize` finish their run only if no source raises, and a source
    raises from its gate, from its database work and from its last commit. A run is never left
    running exactly when it finishes. -/
theorem StageRun.never_left_running_iff (run : StageRun) (stage : String) :
    (∀ record, run.row stage = some record → record.status ≠ .started) ↔ run.Finishes stage := by
  have hrow : (∀ record, run.row stage = some record → record.status ≠ .started) ↔
      ¬ StillStarted (run.row stage) := by
    unfold StillStarted
    simp
  rw [hrow]
  unfold Finishes
  by_cases hstage : stage ∈ RunStage.scrape.value :: RunStage.normalize.value :: hookStages
  · rw [stillStarted_iff hstage]
    simp only [hstage, true_imp_iff, not_and_or, not_or, not_not]
    exact ⟨fun h hcommit => h.resolve_left fun hne => hne hcommit, fun h => by
      by_cases hcommit : run.starting.commit = none
      · exact .inr (h hcommit)
      · exact .inl hcommit⟩
  · refine iff_of_true ?_ fun h => absurd h hstage
    have hraise : run.row stage = none := by
      unfold row runStage
      simp only [List.mem_cons, not_or] at hstage
      rw [if_neg hstage.1, if_neg hstage.2.1, if_neg hstage.2.2]
      rfl
    rw [hraise]
    rintro ⟨record, heq, -⟩
    cases heq

/-! ### The same of the scrape stage under every schedule -/

/-- The calls of a source that has the outcome of its fetcher. -/
def ScrapeSource.calls (source : ScrapeSource) (env : ScrapeEnv)
    (outcome : Except PyException PaginatedFetchResult) : ScrapeCalls where
  started := source.sourcePipelineResultFrom
  recencyMode := source.live.recencyMode
  fetchRawJobs := outcome.bind (source.live.fetchRawJobs env.dates)
  paginationReport := outcome.toOption.map PaginatedFetchResult.report
  upsertRawJob i := do
    let fetched ← outcome.toOption
    let jobs ← (source.live.fetchRawJobs env.dates fetched).toOption
    let job ← (orderFetchedRawJobs source.live.recencyMode jobs)[i]?
    source.writeError job.externalId
  commit := source.commitError

/-- Its `try` block fails exactly when it meets an exception. -/
theorem ScrapeSource.bodyFails_calls_iff (source : ScrapeSource) (env : ScrapeEnv)
    (outcome : Except PyException PaginatedFetchResult) :
    (source.calls env outcome).BodyFails ↔ source.firstError env outcome ≠ none := by
  rcases outcome with exc | fetched
  · exact iff_of_true trivial nofun
  · have hfetch : (source.calls env (.ok fetched)).fetchRawJobs
        = source.live.fetchRawJobs env.dates fetched := rfl
    unfold ScrapeCalls.BodyFails firstError
    rw [hfetch]
    dsimp only
    cases hjobs : source.live.fetchRawJobs env.dates fetched with
    | error exc => exact iff_of_true trivial nofun
    | ok jobs =>
      dsimp only
      change ((∃ entry ∈ (orderFetchedRawJobs source.live.recencyMode jobs).zipIdx,
        ((source.live.fetchRawJobs env.dates fetched).toOption.bind fun jobs =>
          (orderFetchedRawJobs source.live.recencyMode jobs)[entry.2]?.bind fun job =>
            source.writeError job.externalId) ≠ none) ∨ source.commitError ≠ none) ↔ _
      rw [hjobs]
      change ((∃ entry ∈ (orderFetchedRawJobs source.live.recencyMode jobs).zipIdx,
          ((orderFetchedRawJobs source.live.recencyMode jobs)[entry.2]?.bind fun job =>
            source.writeError job.externalId) ≠ none) ∨ source.commitError ≠ none) ↔
        ((orderFetchedRawJobs source.live.recencyMode jobs).findSome? fun job =>
          source.writeError job.externalId).or source.commitError ≠ none
      rw [exists_zipIdx_ne_none_iff, ne_eq, ne_eq, ne_eq, Option.or_eq_none_iff, not_and_or]

/-- Under every schedule, a scrape run whose sources are done is left running exactly when one of
    them lets an exception out. -/
theorem ScrapeRun.runRecord_started_iff {n : ℕ} (run : ScrapeRun n)
    (hinj : Function.Injective run.env.host.newId)
    (hfresh : FreshIds run.env.host { tables := run.tables, ticks := 0 }) (schedule : List (Fin n))
    (hdone : (run.execute schedule).Finished) :
    (run.execute schedule).runRecord.status = .started ↔
      ∃ i blocked outcome result raised,
        (run.execute schedule).tasks i = .done blocked outcome result raised ∧
          ((run.sources i).calls run.env outcome).Escapes run.env.allowPartial := by
  have hescapes : ∀ i blocked outcome result raised,
      (run.execute schedule).tasks i = .done blocked outcome result raised →
        (((run.sources i).calls run.env outcome).Escapes run.env.allowPartial ↔ raised ≠ none) := by
    intro i blocked outcome result raised htask
    have hsound := (sound_execute hinj hfresh schedule).tasks i
    rw [htask] at hsound
    unfold ScrapeCalls.Escapes
    rw [ScrapeSource.bodyFails_calls_iff]
    cases hsound.2 with
    | scraped hnone _ hraised =>
      rw [hnone, hraised]
      simp
    | gaveUp exc hsome _ hraised =>
      rw [hsome, hraised]
      cases run.env.allowPartial <;> simp [ScrapeSource.calls]
  constructor
  · intro hstarted
    by_contra hnone
    have hraised : ∀ i, ((run.execute schedule).tasks i).raised = none := by
      intro i
      by_contra hne
      cases htask : (run.execute schedule).tasks i with
      | done blocked outcome result raised =>
        rw [htask] at hne
        exact hnone ⟨i, blocked, outcome, result, raised, htask,
          (hescapes i _ _ _ _ htask).mpr hne⟩
      | waiting =>
        rw [htask] at hne
        exact hne rfl
      | fetching =>
        rw [htask] at hne
        exact hne rfl
      | fetched blocked outcome =>
        rw [htask] at hne
        exact hne rfl
    rw [ScrapeState.runRecord_of_not_raised hraised hdone] at hstarted
    exact finishStageRun_finished _ hstarted
  · rintro ⟨i, blocked, outcome, result, raised, htask, hout⟩
    obtain ⟨exc, hexc⟩ := Option.ne_none_iff_exists'.mp ((hescapes i _ _ _ _ htask).mp hout)
    have hraised : ((run.execute schedule).tasks i).raised = some exc := by
      rw [htask, hexc]
      rfl
    exact ScrapeState.runRecord_of_raised hraised

/-! ### A normalize run whose backend lookup fails -/

/-- The production wiring: the gate asks the backend, and cannot do without its answer. -/
def gatedSettings : StageSettings where
  isoformat := fun _ => ""
  eligibilityResolver := some asciiText
  hasBackendIdentityLookup := true
  requireBackendIdentityLookup := true
  hasAiClient := true

/-- One source with one raw job. The backend cannot be reached. -/
def unreachableRun : StageRun where
  settings := gatedSettings
  sources :=
    [{ scrape :=
        { started := { sourcePlatform := "glints", status := .started }
          recencyMode := "native"
          fetchRawJobs := .ok [] }
       normalize :=
        { sourcePlatform := "glints"
          rawJobs := .ok [capitalRaw]
          findExisting := some (.plain "BackendIdentityLookupError" "backend database unreachable") } }]

/-- The normalize run raises, partial runs allowed or not, and its row is still started. -/
theorem unreachable_backend_leaves_running :
    (unreachableRun.runStage "normalize" none).1.isOk = false ∧
      (unreachableRun.row "normalize").map RunRecord.status = some .started := by
  constructor <;> decide +kernel

end Bisakerja
