import BisakerjaScraper.Sync.Events

/-! The ids of the stage runs.

    A full run appends a stage suffix to its run id; the commands that look at a run afterwards, and
    the stages that look for the scrape before them, strip one off again. Stripping undoes
    appending for every run id. But the commands also strip the run id they are given, so that the
    id of a stage names its whole run, and `run_full` appends to it as it is. -/

namespace Bisakerja

/-- The stages of a full run, under the names their run ids end in. -/
inductive PipelineStage where | scrape | normalize | enrich | sync | notify
  deriving DecidableEq

/-- The suffix of a stage run id. -/
def PipelineStage.suffix : PipelineStage → String
  | .scrape => "scrape"
  | .normalize => "normalize"
  | .enrich => "enrich"
  | .sync => "sync"
  | .notify => "notify"

/-- `suffixed_run_id`. -/
def suffixedRunId (runIdPrefix : Option String) (suffix : String) : Option String :=
  match runIdPrefix with
  | some "" => none
  | some runIdPrefix => some (runIdPrefix ++ "-" ++ suffix)
  | none => none

/-- `base_run_id_without_stage_suffix`. -/
def baseRunIdWithoutStageSuffix (runId : String) : String :=
  match stageSuffixes.find? fun suffix => endsWith runId ("-" ++ suffix) with
  | some suffix => dropLast runId ("-" ++ suffix).toList.length
  | none => runId

/-- `scrape_run_id_from_stage_run_id`. -/
def scrapeRunIdFromStageRunId (runId : String) : Option String :=
  let baseRunId := baseRunIdWithoutStageSuffix runId
  if baseRunId ≠ runId then some (baseRunId ++ "-scrape") else none

/-- `scrape_run_id_for_normalize_run`. -/
def scrapeRunIdForNormalizeRun (runId : String) : Option String :=
  if endsWith runId "-normalize" then some (dropLast runId "-normalize".toList.length ++ "-scrape")
  else none

/-- `stage_run_ids`. -/
def stageRunIds (runId : String) : List String :=
  let baseRunId := baseRunIdWithoutStageSuffix runId
  ["scrape", "normalize", "enrich", "sync", "notify"].map fun suffix => baseRunId ++ "-" ++ suffix

/-- `stage_id_map_from`. -/
def stageIdMapFrom (runIds : List String) : List (String × String) :=
  ["scrape", "normalize", "enrich", "sync", "notify"].zip runIds

/-- The id under which `run_full` runs a stage; none leaves the choice of an id to the table. -/
def runFullStageId (runIdPrefix : String) (stage : PipelineStage) : Option String :=
  suffixedRunId (some runIdPrefix) stage.suffix

/-- The id under which `run_stage` runs a single stage. -/
def runSingleStageId (runId : String) (stage : PipelineStage) : Option String :=
  suffixedRunId (some (baseRunIdWithoutStageSuffix runId)) stage.suffix

/-- The id the verify and report commands look for a stage under. -/
def verifiedStageId (runId : String) (stage : PipelineStage) : Option String :=
  (stageIdMapFrom (stageRunIds runId)).lookup stage.suffix

/-! ### Appending and stripping -/

theorem suffixedRunId_of_ne {runIdPrefix : String} (h : runIdPrefix ≠ "") (suffix : String) :
    suffixedRunId (some runIdPrefix) suffix = some (runIdPrefix ++ "-" ++ suffix) := by
  unfold suffixedRunId
  split
  · next heq => exact absurd (Option.some.inj heq) h
  · next heq => rw [Option.some.inj heq]
  · next heq => cases heq

/-- The first suffix that matches a stage run id is that of its stage. -/
theorem find_stageSuffix (p : String) (stage : PipelineStage) :
    stageSuffixes.find? (fun suffix => endsWith (p ++ "-" ++ stage.suffix) ("-" ++ suffix))
      = some stage.suffix := by
  cases stage <;>
    simp [stageSuffixes, endsWith, List.isSuffixOf, List.isPrefixOf, PipelineStage.suffix]

theorem dropLast_append (p t : String) : dropLast (p ++ t) t.toList.length = p := by
  unfold dropLast
  rw [String.toList_append, List.length_append, Nat.add_sub_cancel, List.take_left,
    String.ofList_toList]

theorem append_dash (p suffix : String) : p ++ "-" ++ suffix = p ++ ("-" ++ suffix) :=
  String.append_assoc

/-- Stripping a stage run id gives back the run id. -/
theorem base_stageRunId (p : String) (stage : PipelineStage) :
    baseRunIdWithoutStageSuffix (p ++ "-" ++ stage.suffix) = p := by
  unfold baseRunIdWithoutStageSuffix
  rw [find_stageSuffix, append_dash]
  exact dropLast_append p _

theorem stageRunId_ne (p : String) (stage : PipelineStage) : p ++ "-" ++ stage.suffix ≠ p := by
  intro h
  have hlen := congrArg (fun s => s.toList.length) h
  simp only [String.toList_append, List.length_append] at hlen
  have hdash : "-".toList.length = 1 := rfl
  omega

theorem scrapeRunIdFromStageRunId_eq (p : String) (stage : PipelineStage) :
    scrapeRunIdFromStageRunId (p ++ "-" ++ stage.suffix) = some (p ++ "-scrape") := by
  unfold scrapeRunIdFromStageRunId
  dsimp only
  rw [base_stageRunId, if_pos (stageRunId_ne p stage).symm]

theorem scrapeScopeRunId_eq (p : String) (stage : PipelineStage) :
    scrapeScopeRunId (p ++ "-" ++ stage.suffix) = p ++ "-scrape" := by
  unfold scrapeScopeRunId
  rw [find_stageSuffix, append_dash]
  dsimp only
  rw [dropLast_append]

theorem scrapeRunIdForNormalizeRun_eq (p : String) :
    scrapeRunIdForNormalizeRun (p ++ "-" ++ PipelineStage.normalize.suffix)
      = some (p ++ "-scrape") := by
  have hends : endsWith (p ++ "-normalize") "-normalize" = true := by
    simp [endsWith, List.isSuffixOf, List.isPrefixOf]
  rw [append_dash]
  unfold scrapeRunIdForNormalizeRun
  rw [show "-" ++ PipelineStage.normalize.suffix = "-normalize" from rfl, hends, if_pos rfl,
    dropLast_append]

/-! ### What the commands look for -/

theorem verifiedStageId_eq (runId : String) (stage : PipelineStage) :
    verifiedStageId runId stage
      = some (baseRunIdWithoutStageSuffix runId ++ "-" ++ stage.suffix) := by
  cases stage <;> rfl

/-- A single stage runs under the id the commands look for, whatever run id it is given. -/
theorem runSingleStageId_eq {runId : String} (h : baseRunIdWithoutStageSuffix runId ≠ "")
    (stage : PipelineStage) : runSingleStageId runId stage = verifiedStageId runId stage := by
  unfold runSingleStageId
  rw [suffixedRunId_of_ne h, verifiedStageId_eq]

/-- No stage suffix ends the run id. -/
def Unsuffixed (runId : String) : Prop :=
  ∀ suffix ∈ stageSuffixes, endsWith runId ("-" ++ suffix) = false

theorem base_eq_iff (runId : String) :
    baseRunIdWithoutStageSuffix runId = runId ↔ Unsuffixed runId := by
  unfold baseRunIdWithoutStageSuffix Unsuffixed
  constructor
  · intro h suffix hmem
    by_contra hends
    obtain ⟨found, hfound⟩ : ∃ found, stageSuffixes.find?
        (fun suffix => endsWith runId ("-" ++ suffix)) = some found :=
      Option.isSome_iff_exists.mp (List.find?_isSome.mpr ⟨suffix, hmem, by simpa using hends⟩)
    have hmatch : endsWith runId ("-" ++ found) = true :=
      List.find?_some (p := fun suffix => endsWith runId ("-" ++ suffix)) hfound
    obtain ⟨front, hsplit⟩ := List.isSuffixOf_iff_suffix.mp hmatch
    have hstripped := congrArg (fun s => s.toList.length) h
    rw [hfound] at hstripped
    have hlen := congrArg List.length hsplit
    have hdash : "-".toList.length = 1 := rfl
    simp only [dropLast, String.toList_ofList, List.length_take, List.length_append,
      String.toList_append] at hstripped hlen
    omega
  · intro h
    rw [List.find?_eq_none.mpr fun suffix hmem => by simp [h suffix hmem]]

/-- For a run id, the stages of a full run and what is computed from their ids agree: each stage
    runs under the id the commands look for, and every resolver it is given to leads back to the
    scrape. -/
def AgreesOnRunIds (runId : String) : Prop :=
  ∀ stage, ∃ id, runFullStageId runId stage = some id ∧
    verifiedStageId runId stage = some id ∧
    scrapeRunIdFromStageRunId id = runFullStageId runId .scrape ∧
    some (scrapeScopeRunId id) = runFullStageId runId .scrape ∧
    (stage = .normalize → scrapeRunIdForNormalizeRun id = runFullStageId runId .scrape)

/-- BUG: `run_full` appends the stage to the run id it is given, and the commands append it to the
    run id without its stage suffix; they agree exactly on the run ids without one. -/
theorem agreesOnRunIds_iff (runId : String) :
    AgreesOnRunIds runId ↔ runId ≠ "" ∧ Unsuffixed runId := by
  constructor
  · intro h
    obtain ⟨id, hrun, hverified, -⟩ := h .scrape
    have hne : runId ≠ "" := by
      rintro rfl
      cases hrun
    rw [runFullStageId, suffixedRunId_of_ne hne, append_dash] at hrun
    rw [verifiedStageId_eq, append_dash] at hverified
    have hsame := Option.some.inj (hverified.trans hrun.symm)
    have hbase : baseRunIdWithoutStageSuffix runId = runId := by
      rw [← dropLast_append (baseRunIdWithoutStageSuffix runId)
        ("-" ++ PipelineStage.scrape.suffix), hsame, dropLast_append]
    exact ⟨hne, (base_eq_iff runId).mp hbase⟩
  · rintro ⟨hne, hunsuffixed⟩ stage
    have hscrape : runFullStageId runId .scrape = some (runId ++ "-scrape") :=
      (suffixedRunId_of_ne hne _).trans (by rw [append_dash]; rfl)
    refine ⟨runId ++ "-" ++ stage.suffix, suffixedRunId_of_ne hne _, ?_, ?_, ?_, ?_⟩
    · rw [verifiedStageId_eq, (base_eq_iff runId).mpr hunsuffixed]
    · rw [hscrape, scrapeRunIdFromStageRunId_eq]
    · rw [hscrape, scrapeScopeRunId_eq]
    · rintro rfl
      rw [hscrape, scrapeRunIdForNormalizeRun_eq]

/-- A run called `daily-sync` scrapes under `daily-sync-scrape`; the commands look under
    `daily-scrape`. -/
theorem not_agreesOnRunIds_daily_sync : ¬ AgreesOnRunIds "daily-sync" := by
  intro h
  obtain ⟨id, hrun, hverified, -⟩ := h .scrape
  have hrun' : runFullStageId "daily-sync" .scrape = some "daily-sync-scrape" := by decide +kernel
  have hverified' : verifiedStageId "daily-sync" .scrape = some "daily-scrape" := by decide +kernel
  rw [hrun'] at hrun
  rw [hverified', ← hrun] at hverified
  exact absurd hverified (by decide)

end Bisakerja
