import BisakerjaScraper.Pipeline.RunIds
import BisakerjaScraper.Pipeline.Scrape
import BisakerjaScraper.Pipeline.TriggerGuard

/-! The scheduled stage runs of a day.

    A trigger looks for the run of its stage and day: a completed one is not repeated, any other one
    gets a retry id. The runner then strips and appends the stage suffix once more, so a retry runs
    under an id that carries the stage twice. -/

namespace Bisakerja
open Schemes

/-- `ScheduledStage.value`. -/
def ScheduledStage.value : ScheduledStage → String
  | .scrape => "scrape"
  | .normalize => "normalize"
  | .enrich => "enrich"
  | .sync => "sync"
  | .notifyHandoff => "notify-handoff"

/-- The stage under the name its run ids end in. -/
def ScheduledStage.pipelineStage : ScheduledStage → PipelineStage
  | .scrape => .scrape
  | .normalize => .normalize
  | .enrich => .enrich
  | .sync => .sync
  | .notifyHandoff => .notify

/-- A number with leading zeros up to a width. -/
def zeroPadded (width n : ℕ) : String :=
  String.ofList (List.replicate (width - (Nat.toDigits 10 n).length) '0' ++ Nat.toDigits 10 n)

/-- A date in the scheduler's timezone. -/
structure Day where
  year : ℕ
  month : ℕ
  day : ℕ
  year_ge : 1000 ≤ year := by decide
  year_lt : year < 10000 := by decide
  month_lt : month < 13 := by decide
  day_lt : day < 32 := by decide

/-- `current.strftime("%Y%m%d")`. -/
def Day.stamp (date : Day) : String :=
  zeroPadded 4 date.year ++ zeroPadded 2 date.month ++ zeroPadded 2 date.day

/-- `scheduled_run_id`. -/
def scheduledRunId (stage : ScheduledStage) (date : Day) : String :=
  "scheduled-" ++ date.stamp ++ "-" ++ stage.pipelineStage.suffix

/-- A `scrape_runs` row, as far as the daemon reads it. -/
structure ScrapeRunRow where
  id : String
  stage : String
  status : RunStatus

/-- The run rows, by primary key. -/
abbrev ScrapeRuns := Table ScrapeRunRow ScrapeRunRow.id

/-- The length of the column `scrape_runs.id`. -/
def runIdLength : ℕ := 36

/-- `next_retry_run_id`. -/
def nextRetryRunId (runs : ScrapeRuns) (baseRunId : String) : String :=
  let runIdPrefix := baseRunId ++ "-retry-"
  let existing := runs.rows.countP fun row => runIdPrefix.toList.isPrefixOf row.id.toList
  runIdPrefix ++ zeroPadded 2 (existing + 1)

/-- A trigger of a stage. The run it starts ends before a row is written, or with a row of some
    status. -/
structure Trigger where
  stage : ScheduledStage
  date : Day
  outcome : Option RunStatus

namespace Trigger

variable (trigger : Trigger)

/-- The id `run_stage` hands to the runner; none where the stage is skipped. -/
def runId (runs : ScrapeRuns) : Option String :=
  let runId := scheduledRunId trigger.stage trigger.date
  match runs.find? runId with
  | some existing =>
    if existing.status = .completed then none else some (nextRetryRunId runs runId)
  | none => some runId

/-- The id under which the runner runs the stage. -/
def stageRunId (runs : ScrapeRuns) : Option String :=
  (trigger.runId runs).bind fun runId => runSingleStageId runId trigger.stage.pipelineStage

/-- The run rows after the trigger. -/
def next (runs : ScrapeRuns) : ScrapeRuns :=
  match trigger.stageRunId runs, trigger.outcome with
  | some id, some status => runs.insert ⟨id, trigger.stage.value, status⟩
  | _, _ => runs

/-- The trigger finds a run of its stage and day that has not completed. -/
def Retries (runs : ScrapeRuns) : Prop :=
  ∃ existing, runs.find? (scheduledRunId trigger.stage trigger.date) = some existing ∧
    existing.status ≠ .completed

end Trigger

/-- The run rows after a sequence of triggers. -/
def afterTriggers (runs : ScrapeRuns) (triggers : List Trigger) : ScrapeRuns :=
  triggers.foldl (fun runs trigger => trigger.next runs) runs

/-! ### Lengths -/

theorem length_zeroPadded {width n : ℕ} (hwidth : 0 < width) (h : n < 10 ^ width) :
    (zeroPadded width n).length = width := by
  have hle := (Nat.length_toDigits_le_iff (by decide) hwidth).mpr h
  simp only [zeroPadded, String.length_ofList, List.length_append, List.length_replicate]
  omega

theorem le_length_zeroPadded (width n : ℕ) : width ≤ (zeroPadded width n).length := by
  simp only [zeroPadded, String.length_ofList, List.length_append, List.length_replicate]
  omega

theorem Day.length_stamp (date : Day) : date.stamp.length = 8 := by
  simp only [Day.stamp, String.length_append, @length_zeroPadded 4 _ (by decide) date.year_lt,
    @length_zeroPadded 2 date.month (by decide) (by have := date.month_lt; omega),
    @length_zeroPadded 2 date.day (by decide) (by have := date.day_lt; omega)]

theorem PipelineStage.length_suffix (stage : PipelineStage) :
    4 ≤ stage.suffix.length ∧ stage.suffix.length ≤ 9 := by
  cases stage <;> decide

theorem length_scheduledRunId (stage : ScheduledStage) (date : Day) :
    (scheduledRunId stage date).length = 19 + stage.pipelineStage.suffix.length := by
  simp only [scheduledRunId, String.length_append, date.length_stamp]
  rfl

/-- The id of a day fits the column. -/
theorem length_scheduledRunId_le (stage : ScheduledStage) (date : Day) :
    (scheduledRunId stage date).length ≤ runIdLength := by
  have hsuffix := stage.pipelineStage.length_suffix
  rw [length_scheduledRunId, runIdLength]
  omega

theorem isDigit_getLast? (front : String) (width n : ℕ) {c : Char}
    (h : (front ++ zeroPadded width n).toList.getLast? = some c) : c.isDigit = true := by
  have hdigits : Nat.toDigits 10 n ≠ [] := Nat.toDigits_ne_nil
  simp only [zeroPadded, String.toList_append, String.toList_ofList, List.getLast?_append,
    List.getLast?_eq_some_getLast hdigits, Option.some_or, Option.some.injEq] at h
  subst h
  exact Nat.isDigit_of_mem_toDigits (by decide) (by decide) (List.getLast_mem hdigits)

/-- What ends in a digit has no stage suffix. -/
theorem unsuffixed_of_digits (front : String) (width n : ℕ) :
    Unsuffixed (front ++ zeroPadded width n) := by
  intro suffix hsuffix
  by_contra hends
  obtain ⟨rest, hrest⟩ := List.isSuffixOf_iff_suffix.mp (Bool.eq_true_of_not_eq_false hends)
  have hlast : ∀ c, ("-" ++ suffix).toList.getLast? = some c → c.isDigit = true := by
    intro c hc
    refine isDigit_getLast? front width n ?_
    rw [← hrest, List.getLast?_append, hc, Option.some_or]
  simp only [stageSuffixes, List.mem_cons, List.not_mem_nil, or_false] at hsuffix
  rcases hsuffix with rfl | rfl | rfl | rfl | rfl | rfl <;>
    exact absurd (hlast _ rfl) (by decide)

/-- A retry runs under its id with the stage appended once more. -/
theorem runSingleStageId_retry (runs : ScrapeRuns) (stage : ScheduledStage) (date : Day) :
    runSingleStageId (nextRetryRunId runs (scheduledRunId stage date)) stage.pipelineStage
      = some (nextRetryRunId runs (scheduledRunId stage date) ++ "-" ++
          stage.pipelineStage.suffix) := by
  unfold runSingleStageId
  have hbase : baseRunIdWithoutStageSuffix (nextRetryRunId runs (scheduledRunId stage date))
      = nextRetryRunId runs (scheduledRunId stage date) :=
    (base_eq_iff _).mpr (unsuffixed_of_digits _ _ _)
  rw [hbase, suffixedRunId_of_ne]
  intro h
  have hlen := congrArg String.length h
  simp only [nextRetryRunId, String.length_append, length_scheduledRunId] at hlen
  have hempty : "".length = 0 := rfl
  omega

/-- The id a retry runs under does not fit the column. -/
theorem runIdLength_lt_retry (runs : ScrapeRuns) (stage : ScheduledStage) (date : Day) :
    runIdLength < (nextRetryRunId runs (scheduledRunId stage date) ++ "-" ++
      stage.pipelineStage.suffix).length := by
  have hsuffix := stage.pipelineStage.length_suffix
  have hcount := le_length_zeroPadded 2 (runs.rows.countP (fun row =>
    (scheduledRunId stage date ++ "-retry-").toList.isPrefixOf row.id.toList) + 1)
  have hretry : "-retry-".length = 7 := rfl
  have hdash : "-".length = 1 := rfl
  simp only [nextRetryRunId, String.length_append, length_scheduledRunId, runIdLength, hretry, hdash]
  omega

/-- The first run of a day runs under the id of the day. -/
theorem runSingleStageId_scheduled (stage : ScheduledStage) (date : Day) :
    runSingleStageId (scheduledRunId stage date) stage.pipelineStage
      = some (scheduledRunId stage date) := by
  unfold runSingleStageId scheduledRunId
  rw [base_stageRunId, suffixedRunId_of_ne]
  intro h
  have hlen := congrArg String.length h
  simp only [String.length_append, date.length_stamp] at hlen
  have hempty : "".length = 0 := rfl
  omega

/-- The scrape id of a day is the prefix of its stage ids with `-scrape`. -/
theorem scheduledRunId_scrape (date : Day) :
    scheduledRunId .scrape date = "scheduled-" ++ date.stamp ++ "-scrape" := by
  unfold scheduledRunId
  rw [append_dash]
  rfl

theorem scrapeRunIdForNormalizeRun_scheduled (date : Day) :
    scrapeRunIdForNormalizeRun (scheduledRunId .normalize date)
      = some (scheduledRunId .scrape date) := by
  rw [scheduledRunId_scrape]
  exact scrapeRunIdForNormalizeRun_eq ("scheduled-" ++ date.stamp)

theorem scrapeScopeRunId_scheduled (date : Day) :
    scrapeScopeRunId (scheduledRunId .sync date) = scheduledRunId .scrape date := by
  rw [scheduledRunId_scrape]
  exact scrapeScopeRunId_eq ("scheduled-" ++ date.stamp) .sync

/-! ### Connected days -/

/-- What a trigger has to do after the triggers before it: the ids fit the column, a stage that has
    completed for the day is skipped, and the rows of the last scrape are the ones the normalize
    and the sync stage of the day select. -/
structure Connected (runs : ScrapeRuns) (before : List Trigger) (trigger : Trigger) : Prop where
  idsFit : ∀ id, trigger.runId (afterTriggers runs before) = some id ∨
    trigger.stageRunId (afterTriggers runs before) = some id → id.length ≤ runIdLength
  completedSkipped : ∀ earlier other rest, before = earlier ++ other :: rest →
    other.stage = trigger.stage → other.date = trigger.date → other.outcome = some .completed →
    (other.stageRunId (afterTriggers runs earlier)).isSome = true →
    trigger.runId (afterTriggers runs before) = none
  scrapeSelected : ∀ earlier scrape rest, before = earlier ++ scrape :: rest →
    scrape.stage = .scrape → scrape.date = trigger.date →
    (∀ other ∈ rest, other.stage = .scrape → other.date ≠ trigger.date) →
    ∀ scrapeId, scrape.stageRunId (afterTriggers runs earlier) = some scrapeId →
    ∀ id, trigger.stageRunId (afterTriggers runs before) = some id →
    (trigger.stage = .normalize → scrapeRunIdForNormalizeRun id = some scrapeId) ∧
    (trigger.stage = .sync → scrapeScopeRunId id = scrapeId)

theorem afterTriggers_append (runs : ScrapeRuns) (before rest : List Trigger) :
    afterTriggers runs (before ++ rest) = afterTriggers (afterTriggers runs before) rest :=
  List.foldl_append

namespace Trigger

variable {trigger : Trigger} {runs : ScrapeRuns}

/-- A trigger that retries hands a retry id to the runner. -/
theorem runId_of_retries (h : trigger.Retries runs) : trigger.runId runs
    = some (nextRetryRunId runs (scheduledRunId trigger.stage trigger.date)) := by
  obtain ⟨existing, hfind, hstatus⟩ := h
  simp [runId, hfind, hstatus]

/-- A trigger that does not retry is skipped, or runs under the id of the day. -/
theorem runId_of_not_retries (h : ¬ trigger.Retries runs) {id : String}
    (hid : trigger.runId runs = some id) : id = scheduledRunId trigger.stage trigger.date ∧
      runs.find? (scheduledRunId trigger.stage trigger.date) = none := by
  unfold runId at hid
  cases hfind : runs.find? (scheduledRunId trigger.stage trigger.date) with
  | none =>
    simp only [hfind, Option.some.injEq] at hid
    exact ⟨hid.symm, rfl⟩
  | some existing =>
    have hcompleted : existing.status = .completed := by
      by_contra hne
      exact h ⟨existing, hfind, hne⟩
    simp [hfind, hcompleted] at hid

theorem stageRunId_of_not_retries (h : ¬ trigger.Retries runs) {id : String}
    (hid : trigger.stageRunId runs = some id) : id = scheduledRunId trigger.stage trigger.date ∧
      runs.find? (scheduledRunId trigger.stage trigger.date) = none := by
  obtain ⟨runId, hrun, hstage⟩ := Option.bind_eq_some_iff.mp hid
  obtain ⟨rfl, hnone⟩ := runId_of_not_retries h hrun
  rw [runSingleStageId_scheduled] at hstage
  exact ⟨(Option.some.inj hstage).symm, hnone⟩

/-- A run row stays. -/
theorem find?_next {id : String} {row : ScrapeRunRow} (h : runs.find? id = some row) :
    (trigger.next runs).find? id = some row := by
  unfold next
  split
  · exact runs.find?_insert_of_some h
  · exact h

theorem find?_afterTriggers (runs : ScrapeRuns) {triggers : List Trigger} {id : String}
    {row : ScrapeRunRow} (h : runs.find? id = some row) :
    (afterTriggers runs triggers).find? id = some row := by
  induction triggers generalizing runs with
  | nil => exact h
  | cons trigger rest ih => exact ih _ (find?_next h)

/-- A first run that completes is found by every later trigger. -/
theorem find?_of_completed (h : ¬ trigger.Retries runs) (houtcome : trigger.outcome = some .completed)
    (hrun : (trigger.stageRunId runs).isSome = true) (rest : List Trigger) :
    (afterTriggers runs (trigger :: rest)).find? (scheduledRunId trigger.stage trigger.date)
      = some ⟨scheduledRunId trigger.stage trigger.date, trigger.stage.value, .completed⟩ := by
  obtain ⟨id, hid⟩ := Option.isSome_iff_exists.mp hrun
  obtain ⟨rfl, hnone⟩ := stageRunId_of_not_retries h hid
  refine find?_afterTriggers (trigger.next runs) ?_
  simp only [next, hid, houtcome]
  exact runs.find?_insert_self (r := ⟨scheduledRunId trigger.stage trigger.date,
    trigger.stage.value, .completed⟩) hnone

end Trigger

/-- The fourth of May 2026. -/
def fourthOfMay : Day := { year := 2026, month := 5, day := 4 }

/-- A scrape that fails, its retry, and the normalize stage. -/
def retriedScrape : List Trigger :=
  [⟨.scrape, fourthOfMay, some .failed⟩, ⟨.scrape, fourthOfMay, some .completed⟩,
    ⟨.normalize, fourthOfMay, some .completed⟩]

end Bisakerja
