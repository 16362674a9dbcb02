import BisakerjaScraper.Core.Errors
import BisakerjaScraper.Persistence.Models

/-! What the stages report: counts and errors of each source, and their merge into one run. -/

namespace Bisakerja

/-- `RunCounts`. -/
structure RunCounts where
  fetched : ℕ := 0
  parsed : ℕ := 0
  normalized : ℕ := 0
  persisted : ℕ := 0
  skipped : ℕ := 0

/-- `RunErrorSummary`. -/
structure RunErrorSummary where
  sourcePlatform : String
  category : String
  message : String
  externalId : Option String := none
  retryable : Option Bool := none

/-- `error_summary`. -/
def errorSummary (sourcePlatform : String) : PyException → RunErrorSummary
  | .scraper errorClass message externalId retryable _ =>
    { sourcePlatform, category := errorClass.code, message, externalId, retryable := some retryable }
  | .other className message _ _ => { sourcePlatform, category := className, message }

theorem errorSummary_sourcePlatform (sourcePlatform : String) (exc : PyException) :
    (errorSummary sourcePlatform exc).sourcePlatform = sourcePlatform := by
  cases exc <;> rfl

/-- The status of a source result. -/
inductive SourceStatus where | started | completed | failed
  deriving DecidableEq

/-- `SourcePipelineResult`. -/
structure SourcePipelineResult where
  sourcePlatform : String
  status : SourceStatus
  keyword : Option String := none
  requestedLimit : Option ℤ := none
  recencyMode : Option String := none
  recencyDays : Option ℤ := none
  newestSourceTimestamp : Option Time := none
  oldestSourceTimestamp : Option Time := none
  truncatedCount : ℤ := 0
  pagesAttempted : Option ℤ := none
  pagesSucceeded : Option ℤ := none
  pagesFailed : Option ℤ := none
  stopReason : Option String := none
  dedupedCount : Option ℤ := none
  totalAvailable : Option ℤ := none
  counts : RunCounts := {}
  errors : List RunErrorSummary := []

/-- `RunSummary`; of the counts by source only the keys and counts in order are kept. -/
structure RunSummary where
  counts : RunCounts := {}
  errors : List RunErrorSummary := []
  sourceCounts : List (String × RunCounts) := []

/-- The sum of two counts. -/
def RunCounts.add (a b : RunCounts) : RunCounts where
  fetched := a.fetched + b.fetched
  parsed := a.parsed + b.parsed
  normalized := a.normalized + b.normalized
  persisted := a.persisted + b.persisted
  skipped := a.skipped + b.skipped

/-- The key a source result is counted under. -/
def SourcePipelineResult.sourceKey (result : SourcePipelineResult) : String :=
  match result.keyword with
  | some keyword =>
    if keyword = "" then result.sourcePlatform else result.sourcePlatform ++ ":" ++ keyword
  | none => result.sourcePlatform

/-- `counts[key] = value` on a dict in insertion order. -/
def setCounts (counts : List (String × RunCounts)) (key : String) (value : RunCounts) :
    List (String × RunCounts) :=
  if (counts.lookup key).isSome then counts.map fun e => if e.1 = key then (key, value) else e
  else counts ++ [(key, value)]

/-- One turn of `merge_source_results`. -/
def RunSummary.merge (summary : RunSummary) (result : SourcePipelineResult) : RunSummary where
  counts := summary.counts.add result.counts
  errors := summary.errors ++ result.errors
  sourceCounts := setCounts summary.sourceCounts result.sourceKey result.counts

/-- `merge_source_results`. -/
def mergeSourceResults (results : List SourcePipelineResult) : RunSummary :=
  results.foldl RunSummary.merge {}

/-- Every error of a source is an error of the run, and no other. -/
theorem mergeSourceResults_errors (results : List SourcePipelineResult) :
    (mergeSourceResults results).errors = results.flatMap SourcePipelineResult.errors := by
  have hfold : ∀ (results : List SourcePipelineResult) (summary : RunSummary),
      (results.foldl RunSummary.merge summary).errors
        = summary.errors ++ results.flatMap SourcePipelineResult.errors := by
    intro results
    induction results with
    | nil => simp
    | cons result rest ih =>
      intro summary
      rw [List.foldl_cons, ih, List.flatMap_cons, ← List.append_assoc]
      rfl
  exact hfold results {}

end Bisakerja
