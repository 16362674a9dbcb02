import BisakerjaScraper.Cli.Daemon
import BisakerjaScraper.Core.Errors
import BisakerjaScraper.Schemes.Hoare

/-! The two ways to build the runner.

    The command selects its sources and hands the selection to `ManualPipelineRunner`; the scheduled
    trigger builds the same runner without one. All parameters of the runner are keyword-only and
    have no default, so the trigger ends where it builds it. -/

namespace Bisakerja
open Schemes

/-- `Settings`, as far as the runner is built from it. -/
structure Settings where
  deallsEnabled : Bool
  glintsEnabled : Bool
  jobstreetEnabled : Bool
  kalibrrEnabled : Bool
  kitalulusEnabled : Bool
  scraperKeywords : List String
  scraperMaxItemsPerKeyword : ℤ
  scraperRecencyMode : String
  scraperRecencyDays : ℤ

/-- `SourceSelection`. -/
structure SourceSelection where
  requested : List String
  executed : List String
  skipped : List (String × String)

/-- `CliInputError`. -/
def cliInputError (message : String) : PyException := .plain "CliInputError" message

/-- `PLATFORM_SOURCES`. -/
def platformSources : List String := ["dealls", "glints", "jobstreet", "kalibrr", "kitalulus"]

/-- `source_enabled`. -/
def sourceEnabled (platform : String) (settings : Settings) : Except PyException (Bool × String) :=
  match platform with
  | "dealls" => .ok (settings.deallsEnabled, "DEALLS_ENABLED")
  | "glints" => .ok (settings.glintsEnabled, "GLINTS_ENABLED")
  | "jobstreet" => .ok (settings.jobstreetEnabled, "JOBSTREET_ENABLED")
  | "kalibrr" => .ok (settings.kalibrrEnabled, "KALIBRR_ENABLED")
  | "kitalulus" => .ok (settings.kitalulusEnabled, "KITALULUS_ENABLED")
  | _ => .error (cliInputError ("unsupported source: " ++ platform))

/-- The loop of `select_sources`. -/
def splitSources (settings : Settings) (execute : Bool) :
    List String → Except PyException (List String × List (String × String))
  | [] => .ok ([], [])
  | platform :: rest => do
    let (enabled, envKey) ← sourceEnabled platform settings
    let (executed, skipped) ← splitSources settings execute rest
    if execute && !enabled then
      pure (executed, (platform, "disabled (" ++ envKey ++ "=false)") :: skipped)
    else pure (platform :: executed, skipped)

/-- `select_sources`. -/
def selectSources (source : String) (settings : Settings) (execute : Bool) :
    Except PyException SourceSelection := do
  let requested := if source = "all" then platformSources else [source]
  let (executed, skipped) ← splitSources settings execute requested
  if executed.isEmpty then
    match skipped with
    | [(platform, reason)] =>
      .error (cliInputError ("source " ++ platform ++ " " ++ reason ++
        ". Use --dry-run for fixture validation or enable the source."))
    | _ =>
      .error (cliInputError ("no executable sources for mode " ++
        (if execute then "execute" else "dry-run") ++ ": " ++
        (if skipped.isEmpty then source else ", ".intercalate (skipped.map Prod.fst))))
  else pure { requested, executed, skipped }

/-- `ManualPipelineRunner`: what it is built with, besides its session. -/
structure Cli.ManualPipelineRunner where
  settings : Settings
  stage : String
  source : String
  keywords : List String
  fixtureRoot : String
  limit : ℤ
  recencyMode : String
  recencyDays : ℤ
  execute : Bool
  runId : Option String
  sourceSelection : SourceSelection

/-- The keyword arguments of a call of `ManualPipelineRunner`; none is one that is not passed. -/
structure RunnerKeywords where
  settings : Option Settings := none
  stage : Option String := none
  source : Option String := none
  keywords : Option (List String) := none
  fixtureRoot : Option String := none
  limit : Option ℤ := none
  recencyMode : Option String := none
  recencyDays : Option ℤ := none
  execute : Option Bool := none
  runId : Option (Option String) := none
  sourceSelection : Option SourceSelection := none

/-- The parameters that a call misses. -/
def RunnerKeywords.missing (kw : RunnerKeywords) : List String :=
  ([("settings", kw.settings.isSome), ("stage", kw.stage.isSome), ("source", kw.source.isSome),
    ("keywords", kw.keywords.isSome), ("fixture_root", kw.fixtureRoot.isSome),
    ("limit", kw.limit.isSome), ("recency_mode", kw.recencyMode.isSome),
    ("recency_days", kw.recencyDays.isSome), ("execute", kw.execute.isSome),
    ("run_id", kw.runId.isSome), ("source_selection", kw.sourceSelection.isSome)].filter
      fun parameter => !parameter.2).map Prod.fst

/-- Names as an error message lists them. -/
def listNames : List String → String
  | [] => ""
  | [name] => name
  | [name, other] => name ++ " and " ++ other
  | names => ", ".intercalate names.dropLast ++ ", and " ++ names.getLastD ""

/-- The `TypeError` of a call that misses parameters. -/
def missingArguments (missing : List String) : PyException :=
  .plain "TypeError" ("ManualPipelineRunner.__init__() missing " ++ toString missing.length ++
    " required keyword-only argument" ++ (if missing.length = 1 then "" else "s") ++ ": " ++
    listNames (missing.map fun name => "'" ++ name ++ "'"))

/-- `ManualPipelineRunner.__init__`. -/
def Cli.ManualPipelineRunner.init :
    RunnerKeywords → Except PyException Cli.ManualPipelineRunner
  | ⟨some settings, some stage, some source, some keywords, some fixtureRoot, some limit,
      some recencyMode, some recencyDays, some execute, some runId, some sourceSelection⟩ =>
    .ok { settings, stage, source, keywords, fixtureRoot, limit, recencyMode, recencyDays, execute,
          runId, sourceSelection }
  | kw => .error (missingArguments kw.missing)

/-- The flags of `run`, with the keyword flags parsed; none is a flag that is not given. -/
structure RunArgs where
  stage : String
  source : String
  keywords : Option (List String) := none
  limit : Option ℤ := none
  latest : Bool := false
  recencyDays : Option ℤ := none
  fixtureRoot : String
  execute : Bool
  runId : Option String := none

/-- `value or default` of a number. -/
def orNumber (value : Option ℤ) (default : ℤ) : ℤ :=
  match value with
  | some n => if n = 0 then default else n
  | none => default

/-- `run_pipeline`, over what the runner does when it runs its stage. -/
def runPipeline {σ : Type} (runStage : Cli.ManualPipelineRunner → Stateful σ PyException PUnit)
    (settings : Settings) (args : RunArgs) : Stateful σ PyException PUnit := do
  let sourceSelection ← .ofExcept (selectSources args.source settings args.execute)
  let runner ← .ofExcept (Cli.ManualPipelineRunner.init
    { settings := settings
      stage := args.stage
      source := args.source
      keywords := args.keywords.getD settings.scraperKeywords
      fixtureRoot := args.fixtureRoot
      limit := orNumber args.limit settings.scraperMaxItemsPerKeyword
      recencyMode := if args.latest then "latest" else settings.scraperRecencyMode
      recencyDays := orNumber args.recencyDays settings.scraperRecencyDays
      execute := args.execute
      runId := some args.runId
      sourceSelection := sourceSelection })
  runStage runner

section Trigger

variable {σ : Type} (runs : σ → ScrapeRuns)
  (runStage : Cli.ManualPipelineRunner → Stateful σ PyException PUnit) (settings : Settings)
  (fixtureRoot : String) (trigger : Trigger)

/-- `DeploymentStageRunner.run_stage`, over what the runner does when it runs its stage. -/
def deploymentRunStage : Stateful σ PyException PUnit := fun s =>
  match trigger.runId (runs s) with
  | none => (.ok ⟨⟩, s)
  | some runId =>
    Stateful.bind (.ofExcept (Cli.ManualPipelineRunner.init
      { settings := settings
        stage := trigger.stage.value
        source := "all"
        keywords := settings.scraperKeywords
        fixtureRoot := fixtureRoot
        limit := settings.scraperMaxItemsPerKeyword
        recencyMode := settings.scraperRecencyMode
        recencyDays := settings.scraperRecencyDays
        execute := some true
        runId := some (some runId) })) runStage s

/-- The flags of the command that the trigger stands for. -/
def commandArgs (runId : String) : RunArgs where
  stage := trigger.stage.value
  source := "all"
  fixtureRoot := fixtureRoot
  execute := true
  runId := some runId

/-- A trigger that is not skipped starts a run of its stage, and does what the command does under the
    same run id. -/
structure RefinesCommand (s : σ) (runId : String) : Prop where
  startsRun : ∃ row ∈ (runs (deploymentRunStage runs runStage settings fixtureRoot trigger s).2).rows,
    (runs s).find? row.id = none ∧ row.stage = trigger.stage.value
  sameAsCommand : deploymentRunStage runs runStage settings fixtureRoot trigger s
    = runPipeline runStage settings (commandArgs fixtureRoot trigger runId) s

/-- The trigger ends where it builds the runner, with the session as it was. -/
theorem deploymentRunStage_eq {s : σ} {runId : String}
    (h : trigger.runId (runs s) = some runId) :
    deploymentRunStage runs runStage settings fixtureRoot trigger s
      = (.error (missingArguments ["source_selection"]), s) := by
  simp only [deploymentRunStage, h]
  rfl

/-- BUG: the trigger does not pass `source_selection`. Whatever the settings and the database, a
    stage that has not completed is not started: the trigger raises before a run row is written. -/
theorem trigger_never_refines {s : σ} {runId : String}
    (h : trigger.runId (runs s) = some runId) :
    deploymentRunStage runs runStage settings fixtureRoot trigger s
      = (.error (missingArguments ["source_selection"]), s) ∧
    ¬ RefinesCommand runs runStage settings fixtureRoot trigger s runId := by
  have hraises := deploymentRunStage_eq runs runStage settings fixtureRoot trigger h
  refine ⟨hraises, fun hrefines => ?_⟩
  obtain ⟨row, hrow, hnew, -⟩ := hrefines.startsRun
  rw [hraises] at hrow
  rw [Table.find?_of_mem hrow] at hnew
  cases hnew

end Trigger

/-! ### A scrape on a fresh database -/

/-- Settings with one source enabled. -/
def oneSource : Settings where
  deallsEnabled := true
  glintsEnabled := false
  jobstreetEnabled := false
  kalibrrEnabled := false
  kitalulusEnabled := false
  scraperKeywords := ["go"]
  scraperMaxItemsPerKeyword := 10
  scraperRecencyMode := "latest"
  scraperRecencyDays := 7

/-- A runner that completes its stage under its run id. -/
def completeRun (runner : Cli.ManualPipelineRunner) : Stateful ScrapeRuns PyException PUnit :=
  .change fun runs => runs.insert ⟨runner.runId.getD "", runner.stage, .completed⟩

/-- The scrape of the day. -/
def scheduledScrape : Trigger := ⟨.scrape, fourthOfMay, none⟩

/-- The command starts the run, the trigger does not. -/
theorem scheduled_scrape_not_started :
    ¬ RefinesCommand id completeRun oneSource "fixtures" scheduledScrape (Table.empty _)
      "scheduled-20260504-scrape" ∧
    (runPipeline completeRun oneSource
      (commandArgs "fixtures" scheduledScrape "scheduled-20260504-scrape") (Table.empty _)).2.rows.map
        ScrapeRunRow.id = ["scheduled-20260504-scrape"] := by
  refine ⟨fun h => ?_, by decide +kernel⟩
  obtain ⟨row, hrow, -⟩ := h.startsRun
  have hnone : (deploymentRunStage id completeRun oneSource "fixtures" scheduledScrape
      (Table.empty _)).2.rows.map ScrapeRunRow.id = [] := by decide +kernel
  have hmem := List.mem_map_of_mem (f := ScrapeRunRow.id) hrow
  rw [show (id (deploymentRunStage id completeRun oneSource "fixtures" scheduledScrape
    (Table.empty _)).2).rows.map ScrapeRunRow.id = [] from hnone] at hmem
  cases hmem

theorem trigger_never_refines_scrape :
    deploymentRunStage id completeRun oneSource "fixtures" scheduledScrape (Table.empty _)
      = (.error (missingArguments ["source_selection"]), Table.empty _) ∧
    ¬ RefinesCommand id completeRun oneSource "fixtures" scheduledScrape (Table.empty _)
      "scheduled-20260504-scrape" :=
  trigger_never_refines id completeRun oneSource "fixtures" scheduledScrape (by decide +kernel)

end Bisakerja
