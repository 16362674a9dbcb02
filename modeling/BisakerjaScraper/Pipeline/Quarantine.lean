import BisakerjaScraper.Pipeline.NormalizeBooks

/-! The quarantine over a history of normalize runs.

    Sources are normalized one after the other, each with its own mapper, AI and configuration, and
    in between anything may happen to the other tables. The quarantine then is the book of the
    attempts made so far: a raw job has an open row exactly when its last attempt failed. -/

namespace Bisakerja
open Schemes

/-- A source normalized with a quarantine on a database that does not fail. -/
structure QuarantinedSource where
  orchestrator : PipelineOrchestrator
  runId : String
  calls : ℕ
  ticks : ℕ
  hasQuarantine : orchestrator.hasQuarantine = true
  neverFails : orchestrator.NeverFails

namespace QuarantinedSource

variable (source : QuarantinedSource) (tables : StageTables)

/-- The session the source begins with. -/
def session : StageSession :=
  .begin tables source.orchestrator.sourcePlatform source.calls source.ticks

/-- The tables after `_normalize_source`; what it did not commit is rolled back. -/
def after : StageTables :=
  (source.orchestrator.normalizeSource source.runId (source.session tables)).2.committed

/-- The attempts of the source; none where its gate raises. -/
def attempts : List (Trial (Option String)) :=
  match source.orchestrator.eligibleOf source.runId tables with
  | some eligible => source.orchestrator.attempts eligible source.calls
  | none => []

variable {source tables}

/-- A source enters its attempts in the quarantine. -/
theorem book_after :
    (source.after tables).book = bookTrials tables.book (source.attempts tables) := by
  have hcloses : Triple _ (source.orchestrator.normalizeSource source.runId) _ _ :=
    PipelineOrchestrator.closes_normalizeSource (source.session tables)
  have hrun := hcloses _ rfl
  unfold after attempts
  revert hrun
  rcases source.orchestrator.normalizeSource source.runId (source.session tables) with ⟨_ | _, s⟩
  · rintro (hfailed | ⟨hnone, hcommitted⟩)
    · exact absurd source.neverFails hfailed
    · change source.orchestrator.eligibleOf source.runId tables = none at hnone
      rw [hnone, hcommitted]
      rfl
  · rintro ⟨eligible, hclosed⟩
    have hthrough : source.orchestrator.eligibleOf source.runId tables = some eligible :=
      hclosed.letThrough
    rw [hthrough, hclosed.committed]
    exact hclosed.book source.hasQuarantine source.neverFails

end QuarantinedSource

/-- What may happen in between: a source is normalized, or the other tables change. -/
inductive QuarantineStep where
  | normalize (source : QuarantinedSource)
  | elsewhere (jobs : JobTables) (decisions : EligibilityDecisions)
      (aiRequestLogs : List AIRequestLog)

namespace QuarantineStep

/-- The tables after a step. -/
def apply (tables : StageTables) : QuarantineStep → StageTables
  | .normalize source => source.after tables
  | .elsewhere jobs decisions aiRequestLogs =>
    { jobs, decisions, aiRequestLogs, quarantine := tables.quarantine }

/-- The attempts of a step. -/
def attempts (tables : StageTables) : QuarantineStep → List (Trial (Option String))
  | .normalize source => source.attempts tables
  | .elsewhere _ _ _ => []

theorem book_apply (tables : StageTables) (step : QuarantineStep) :
    (step.apply tables).book = bookTrials tables.book (step.attempts tables) := by
  cases step with
  | normalize source => exact QuarantinedSource.book_after
  | elsewhere jobs decisions aiRequestLogs => rfl

end QuarantineStep

namespace StageTables

/-- The tables after a history. -/
def along (tables : StageTables) (history : List QuarantineStep) : StageTables :=
  history.foldl QuarantineStep.apply tables

/-- All attempts of a history, in order. -/
def attemptsAlong (tables : StageTables) : List QuarantineStep → List (Trial (Option String))
  | [] => []
  | step :: history => step.attempts tables ++ attemptsAlong (step.apply tables) history

theorem along_append (tables : StageTables) (earlier later : List QuarantineStep) :
    tables.along (earlier ++ later) = (tables.along earlier).along later :=
  List.foldl_append

/-- The quarantine is the book of all attempts made. -/
theorem book_along (tables : StageTables) (history : List QuarantineStep) :
    (tables.along history).book = bookTrials tables.book (tables.attemptsAlong history) := by
  induction history generalizing tables with
  | nil => rfl
  | cons step history ih =>
    change ((step.apply tables).along history).book = _
    rw [ih, QuarantineStep.book_apply, attemptsAlong, bookTrials_append]

theorem getElem?_book (tables : StageTables) (i : ℕ) :
    tables.book[i]? = tables.quarantine[i]?.map fun row => ⟨row.rawJobId, row.isOpen⟩ :=
  List.getElem?_map

/-- A raw job has an open row. -/
def HasOpenRow (tables : StageTables) (rawJobId : String) : Prop :=
  ∃ row ∈ tables.quarantine, row.rawJobId = some rawJobId ∧ row.isOpen = true

theorem hasOpenRow_iff (tables : StageTables) (rawJobId : String) :
    tables.HasOpenRow rawJobId ↔ HasOpen tables.book (some rawJobId) := by
  unfold HasOpenRow HasOpen book
  simp

end StageTables

/-- From an empty quarantine, over every history: a raw job has an open row exactly when its last
    attempt failed, the rows are those of the failed attempts one by one, and a row that was
    resolved at some point is resolved ever after. -/
theorem quarantine_mirrors_attempts (tables : StageTables) (history : List QuarantineStep) :
    let start := { tables with quarantine := [] }
    let attempts := start.attemptsAlong history
    (∀ rawJobId, (start.along history).HasOpenRow rawJobId ↔
      ∃ attempt, lastTrial attempts (some rawJobId) = some attempt ∧ attempt.succeeded = false) ∧
    (start.along history).quarantine.map NormalizationQuarantine.rawJobId
      = (attempts.filter (!·.succeeded)).map Trial.key ∧
    ∀ earlier later, history = earlier ++ later → ∀ (i : ℕ) (row : NormalizationQuarantine),
      (start.along earlier).quarantine[i]? = some row → row.isOpen = false →
        ∃ row', (start.along history).quarantine[i]? = some row' ∧ row'.rawJobId = row.rawJobId ∧
          row'.isOpen = false := by
  intro start attempts
  have hbook : (start.along history).book = bookTrials [] attempts := start.book_along history
  refine ⟨fun rawJobId => ?_, ?_, ?_⟩
  · rw [StageTables.hasOpenRow_iff, hbook]
    exact hasOpen_bookTrials_iff attempts (some rawJobId)
  · have hkeys := keys_bookTrials [] attempts
    rw [← hbook] at hkeys
    simpa [StageTables.book, Function.comp_def] using hkeys
  · rintro earlier later rfl i row hrow hclosed
    have hticket : (start.along earlier).book[i]? = some ⟨row.rawJobId, row.isOpen⟩ := by
      rw [StageTables.getElem?_book, hrow]
      rfl
    obtain ⟨ticket', hget, hkey, hstays⟩ :=
      getElem?_bookTrials ((start.along earlier).attemptsAlong later) hticket
    rw [← StageTables.book_along, ← StageTables.along_append, StageTables.getElem?_book] at hget
    obtain ⟨row', hrow', rfl⟩ := Option.map_eq_some_iff.mp hget
    exact ⟨row', hrow', hkey, hstays hclosed⟩

end Bisakerja
