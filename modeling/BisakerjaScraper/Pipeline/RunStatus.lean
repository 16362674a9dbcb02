import BisakerjaScraper.Pipeline.Scrape

/-! What the status of a scrape run says about its sources.

    A run is read after all its tasks are done, under any schedule. Whatever a task does, the tasks
    that are done before it keep their results and their rows, so each task can be judged on its
    own: it has either stored all it fetched or recorded the first exception it met. A page that
    failed is neither, and the status of the run does not know of it. -/

namespace Bisakerja
open Schemes

/-! ### Each task on its own -/

namespace ScrapeSource

variable {source : ScrapeSource} {env : ScrapeEnv}

/-- Rows that stay stored keep a source scraped. -/
theorem Scraped.mono {outcome : Except PyException PaginatedFetchResult}
    {result : SourcePipelineResult} {tables tables' : JobTables}
    (h : source.Scraped env outcome result tables)
    (hkept : ∀ identity, tables.StoredBy env.runId identity → tables'.StoredBy env.runId identity) :
    source.Scraped env outcome result tables' :=
  { h with stored := fun fetched jobs hfetched hjobs job hjob =>
      hkept _ (h.stored fetched jobs hfetched hjobs job hjob) }

/-- A source that found a challenge fetches nothing. -/
theorem fetchRawJobs_blockedResult (live : LivePipelineSource) (dates : DateText)
    (challenge : ChallengeState) : live.fetchRawJobs dates challenge.blockedResult = .ok [] := by
  have hslice : sliceTo ([] : List RawSourceJob) live.requestedLimit = [] := by
    unfold sliceTo
    split <;> exact List.take_nil
  unfold LivePipelineSource.fetchRawJobs ChallengeState.blockedResult
  simp only [hslice]
  rfl

/-- A source that found a challenge has nothing to store; only its commit can raise. -/
theorem firstError_blockedResult (challenge : ChallengeState) :
    source.firstError env (.ok challenge.blockedResult) = source.commitError := by
  have horder : orderFetchedRawJobs source.live.recencyMode [] = [] := by
    unfold orderFetchedRawJobs
    split <;> rfl
  unfold firstError storeError
  simp only [fetchRawJobs_blockedResult, horder]
  rfl

end ScrapeSource

namespace ScrapeRun

variable {n : ℕ} (run : ScrapeRun n)

/-- What the page loop of a source returns. -/
def outcome (i : Fin n) : Except PyException PaginatedFetchResult :=
  ((run.sources i).feed.fetchPages run.env.settings (run.sources i).live.requestedLimit).map
    PageState.fetchResult

/-- A page that the source asks for fails. -/
def PageFails (i : Fin n) : Prop :=
  (run.sources i).feed.PageFails run.env.settings (run.sources i).live.requestedLimit

/-- A fetch ended in one of two ways: by the challenge state or by the page loop. -/
def FetchedBy (i : Fin n) (blocked : Bool) (outcome : Except PyException PaginatedFetchResult) :
    Prop :=
  if blocked then ∃ challenge : ChallengeState, outcome = .ok challenge.blockedResult
  else outcome = run.outcome i

/-- A task that is done has stored what it fetched, or recorded the exception it met. -/
inductive Judged (i : Fin n) (tables : JobTables) (outcome : Except PyException PaginatedFetchResult)
    (result : SourcePipelineResult) (raised : Option PyException) : Prop
  | scraped (hnone : (run.sources i).firstError run.env outcome = none)
      (hscraped : (run.sources i).Scraped run.env outcome result tables) (hraised : raised = none)
  | gaveUp (exc : PyException) (hsome : (run.sources i).firstError run.env outcome = some exc)
      (hgaveUp : (run.sources i).GaveUp exc result)
      (hraised : raised = if run.env.allowPartial then none else some exc)

/-- What is known of a task. -/
def TaskSound (tables : JobTables) (i : Fin n) : SourceTask → Prop
  | .waiting => True
  | .fetching => True
  | .fetched blocked outcome => run.FetchedBy i blocked outcome
  | .done blocked outcome result raised =>
    run.FetchedBy i blocked outcome ∧ run.Judged i tables outcome result raised

/-- The invariant of a run. -/
structure Sound (s : ScrapeState n) : Prop where
  fresh : FreshIds run.env.host { tables := s.tables, ticks := s.ticks }
  tasks : ∀ i, run.TaskSound s.tables i (s.tasks i)

variable {run}

theorem TaskSound.mono {tables tables' : JobTables} {i : Fin n} {task : SourceTask}
    (h : run.TaskSound tables i task)
    (hkept : ∀ identity, tables.StoredBy run.env.runId identity →
      tables'.StoredBy run.env.runId identity) : run.TaskSound tables' i task := by
  cases task with
  | waiting => trivial
  | fetching => trivial
  | fetched blocked outcome => exact h
  | done blocked outcome result raised =>
    refine ⟨h.1, ?_⟩
    cases h.2 with
    | scraped hnone hscraped hraised => exact .scraped hnone (hscraped.mono hkept) hraised
    | gaveUp exc hsome hgaveUp hraised => exact .gaveUp exc hsome hgaveUp hraised

/-- Moving one task leaves what is known of the others alone. -/
theorem tasks_setTask {s : ScrapeState n} {tables : JobTables} {i : Fin n} {task : SourceTask}
    (htasks : ∀ j, run.TaskSound tables j (s.tasks j)) (htask : run.TaskSound tables i task)
    (j : Fin n) : run.TaskSound tables j ((s.setTask i task).tasks j) := by
  change run.TaskSound tables j (Function.update s.tasks i task j)
  by_cases hj : j = i
  · subst hj
    rw [Function.update_self]
    exact htask
  · rw [Function.update_of_ne hj]
    exact htasks j

/-- A fetch hands over what the page loop returns. -/
theorem sound_fetching {s : ScrapeState n} (h : run.Sound s) {i : Fin n}
    (htask : s.tasks i = .fetching) : run.Sound (run.advance s i) := by
  unfold advance
  simp only [htask]
  have hfetched : ∀ outcome, run.outcome i = outcome →
      run.TaskSound s.tables i (.fetched false outcome) := by
    rintro outcome rfl
    rfl
  cases hpages : (run.sources i).feed.fetchPages run.env.settings
      (run.sources i).live.requestedLimit with
  | error exc =>
    have houtcome : run.outcome i = .error exc := by
      unfold outcome
      rw [hpages]
      rfl
    exact ⟨h.fresh, tasks_setTask h.tasks (hfetched _ houtcome)⟩
  | ok pages =>
    have houtcome : run.outcome i = .ok pages.fetchResult := by
      unfold outcome
      rw [hpages]
      rfl
    exact ⟨h.fresh, tasks_setTask h.tasks (hfetched _ houtcome)⟩

/-- Storing a source judges it, and keeps what was stored before. -/
theorem sound_fetched (hinj : Function.Injective run.env.host.newId) {s : ScrapeState n}
    (h : run.Sound s) {i : Fin n} {blocked : Bool} {outcome : Except PyException PaginatedFetchResult}
    (htask : s.tasks i = .fetched blocked outcome) : run.Sound (run.advance s i) := by
  have hfetched : run.FetchedBy i blocked outcome := by
    have := h.tasks i
    rw [htask] at this
    exact this
  have htriple : Triple (fun session => session = run.session i s)
      ((run.sources i).scrapeSource run.env outcome) _ _ :=
    ScrapeSource.triple_scrapeSource hinj h.fresh rfl
      (run.sources i).sourcePipelineResultFrom_start.1
      (run.sources i).sourcePipelineResultFrom_start.2 outcome
  have hended := htriple (run.session i s) rfl
  unfold advance
  simp only [htask]
  revert hended
  rcases (run.sources i).scrapeSource run.env outcome (run.session i s) with ⟨exc | _, session⟩
  · rintro ⟨hsettled, hsome, hallowed, hgaveUp⟩
    have hjudged : run.Judged i session.committed outcome session.result (some exc) :=
      .gaveUp exc hsome hgaveUp (by rw [hallowed]; rfl)
    exact ⟨hsettled.fresh, tasks_setTask (fun j => (h.tasks j).mono hsettled.kept)
      ⟨hfetched, hjudged⟩⟩
  · rintro ⟨hsettled, hjudged⟩
    have hjudged : run.Judged i session.committed outcome session.result none := by
      rcases hjudged with ⟨hnone, hscraped⟩ | ⟨exc, hsome, hallowed, hgaveUp⟩
      · exact .scraped hnone hscraped rfl
      · exact .gaveUp exc hsome hgaveUp (by rw [hallowed]; rfl)
    exact ⟨hsettled.fresh, tasks_setTask (fun j => (h.tasks j).mono hsettled.kept)
      ⟨hfetched, hjudged⟩⟩

/-- Whatever task goes on, the run stays sound. -/
theorem sound_advance (hinj : Function.Injective run.env.host.newId) {s : ScrapeState n}
    (h : run.Sound s) (i : Fin n) : run.Sound (run.advance s i) := by
  cases htask : s.tasks i with
  | waiting =>
    unfold advance
    simp only [htask]
    split
    · exact ⟨h.fresh, tasks_setTask h.tasks ⟨s.challenge, rfl⟩⟩
    · exact ⟨h.fresh, tasks_setTask h.tasks trivial⟩
  | fetching => exact sound_fetching h htask
  | fetched blocked outcome => exact sound_fetched hinj h htask
  | done blocked outcome result raised =>
    unfold advance
    simp only [htask]
    exact h

/-- A run is sound under every schedule. -/
theorem sound_execute (hinj : Function.Injective run.env.host.newId)
    (hfresh : FreshIds run.env.host { tables := run.tables, ticks := 0 }) (schedule : List (Fin n)) :
    run.Sound (run.execute schedule) :=
  List.foldlRecOn schedule run.advance ⟨hfresh, fun _ => trivial⟩ fun _ h i _ =>
    sound_advance hinj h i

end ScrapeRun

/-! ### Reading the row of the run -/

namespace ScrapeState

variable {n : ℕ} {s : ScrapeState n}

theorem mem_sourceResults {result : SourcePipelineResult} :
    result ∈ s.sourceResults ↔ ∃ i, (s.tasks i).result = some result := by
  unfold sourceResults
  rw [List.mem_filterMap]
  constructor
  · rintro ⟨task, hmem, hresult⟩
    obtain ⟨i, rfl⟩ := (List.mem_ofFn' _ _).mp hmem
    exact ⟨i, hresult⟩
  · rintro ⟨i, hresult⟩
    exact ⟨s.tasks i, (List.mem_ofFn' _ _).mpr ⟨i, rfl⟩, hresult⟩

/-- A run that a source left by an exception stays as it was started. -/
theorem runRecord_of_raised {i : Fin n} {exc : PyException}
    (h : (s.tasks i).raised = some exc) : s.runRecord.status = .started := by
  unfold runRecord
  cases hfind : (List.ofFn s.tasks).findSome? SourceTask.raised with
  | some _ => rfl
  | none =>
    have := List.findSome?_eq_none_iff.mp hfind (s.tasks i) ((List.mem_ofFn' _ _).mpr ⟨i, rfl⟩)
    rw [h] at this
    cases this

/-- A run that no source left is finished with the results of its sources. -/
theorem runRecord_of_not_raised (h : ∀ i, (s.tasks i).raised = none) (hdone : s.Finished) :
    s.runRecord = finishStageRun s.sourceResults := by
  have hfind : (List.ofFn s.tasks).findSome? SourceTask.raised = none := by
    rw [List.findSome?_eq_none_iff]
    intro task hmem
    obtain ⟨i, rfl⟩ := (List.mem_ofFn' _ _).mp hmem
    exact h i
  unfold runRecord
  rw [hfind]
  exact if_pos hdone

/-- A completed run was finished, and no source left it by an exception. -/
theorem finished_of_completed (h : s.runRecord.status = .completed) :
    s.Finished ∧ ∀ i, (s.tasks i).raised = none := by
  constructor
  · by_contra hdone
    unfold runRecord at h
    rw [if_neg hdone] at h
    split at h <;> cases h
  · intro i
    by_contra hne
    obtain ⟨exc, hexc⟩ := Option.ne_none_iff_exists'.mp hne
    rw [runRecord_of_raised hexc] at h
    cases h

end ScrapeState

/-- A finished run keeps the merged summary. -/
theorem finishStageRun_summary (results : List SourcePipelineResult) :
    (finishStageRun results).summary = mergeSourceResults results := by
  unfold finishStageRun
  dsimp only
  split <;> rfl

/-- A finished run is partial when a source has an error. -/
theorem finishStageRun_of_error {results : List SourcePipelineResult} {error : RunErrorSummary}
    (h : error ∈ (mergeSourceResults results).errors) :
    (finishStageRun results).status = .partialRun := by
  unfold finishStageRun
  dsimp only
  split
  · next hnil =>
    rw [hnil] at h
    cases h
  · rfl

/-- A finished run is completed when no source has an error. -/
theorem errors_of_completed {results : List SourcePipelineResult}
    (h : (finishStageRun results).status = .completed) {result : SourcePipelineResult}
    (hresult : result ∈ results) : result.errors = [] := by
  unfold finishStageRun at h
  dsimp only at h
  split at h
  · next hnil =>
    rw [mergeSourceResults_errors] at hnil
    exact List.flatMap_eq_nil_iff.mp hnil result hresult
  · cases h

/-! ### When the status is honest -/

/-- A regular stop reason is reported. -/
theorem reportedStopReason_of_regular {reason : String} (h : reason ∈ regularStopReasons) :
    reportedStopReason reason = some reason := by
  unfold regularStopReasons at h
  simp only [List.mem_cons, List.not_mem_nil, or_false] at h
  rcases h with rfl | rfl | rfl <;> decide

namespace ScrapeRun

variable {n : ℕ} (run : ScrapeRun n)

/-- A source that ran as it should: no failed page, a regular stop reason, and every job it fetched
    counted and stored. -/
structure Clean (s : ScrapeState n) (i : Fin n) (outcome : Except PyException PaginatedFetchResult)
    (result : SourcePipelineResult) : Prop where
  pagesFailed : result.pagesFailed = some 0
  stopReason : ∃ reason ∈ regularStopReasons, result.stopReason = some reason
  persisted : result.counts.persisted = result.counts.fetched
  stored : ∀ fetched jobs, outcome = .ok fetched →
    (run.sources i).live.fetchRawJobs run.env.dates fetched = .ok jobs →
    ∀ job ∈ jobs, s.tables.StoredBy run.env.runId job.identity

/-- The status of a run whose sources are all done is honest: a degraded source is never reported
    as a clean one. -/
structure Honest (s : ScrapeState n) : Prop where
  /-- A completed run has clean sources only. -/
  completed : s.runRecord.status = .completed → ∀ i blocked outcome result raised,
    s.tasks i = .done blocked outcome result raised → run.Clean s i outcome result
  /-- A completed source without an error is clean. -/
  sourceCompleted : ∀ i blocked outcome result raised,
    s.tasks i = .done blocked outcome result raised → result.status = .completed →
    result.errors = [] → run.Clean s i outcome result
  /-- A failed page makes the run partial or failed, with an error of its source. -/
  pageFailed : ∀ i blocked fetched result raised,
    s.tasks i = .done blocked (.ok fetched) result raised → 0 < fetched.pagesFailed →
    (s.runRecord.status = .partialRun ∨ s.runRecord.status = .failed) ∧
      ∃ error ∈ result.errors, error ∈ s.runRecord.summary.errors ∧
        error.sourcePlatform = (run.sources i).sourcePlatform

/-- A degraded source meets an exception of its own: with a challenge remembered, that of its
    commit; with a failing page, any that is recorded rather than raised. -/
def ErrsWhenDegraded (s : ScrapeState n) (i : Fin n) : Prop :=
  ∀ blocked outcome result raised, s.tasks i = .done blocked outcome result raised →
    if blocked then (run.sources i).commitError ≠ none
    else run.PageFails i →
      (run.sources i).firstError run.env (run.outcome i) ≠ none ∧ run.env.allowPartial = true

variable {run} {s : ScrapeState n} {i : Fin n} {outcome : Except PyException PaginatedFetchResult}
  {result : SourcePipelineResult} {raised : Option PyException}

/-- The pages of a fetch that came through. -/
theorem fetchedPages (houtcome : outcome = run.outcome i) {fetched : PaginatedFetchResult}
    (hfetched : outcome = .ok fetched) :
    ∃ pages, (run.sources i).feed.fetchPages run.env.settings
      (run.sources i).live.requestedLimit = .ok pages ∧ pages.fetchResult = fetched :=
  ok_map_iff.mp (houtcome.symm.trans hfetched)

/-- A scraped source without a failing page is clean. -/
theorem clean_of_not_pageFails (houtcome : outcome = run.outcome i)
    (hscraped : (run.sources i).Scraped run.env outcome result s.tables)
    (hnone : (run.sources i).firstError run.env outcome = none) (hpage : ¬ run.PageFails i) :
    run.Clean s i outcome result := by
  cases hfetched : outcome with
  | error exc =>
    rw [hfetched] at hnone
    cases hnone
  | ok fetched =>
    obtain ⟨pages, hpages, rfl⟩ := fetchedPages houtcome hfetched
    have hregular := ((run.sources i).feed.fetchSpec run.env.settings
      (run.sources i).live.requestedLimit).regular hpage pages hpages
    obtain ⟨hfailed, hreason⟩ := hscraped.reported _ hfetched
    rw [hfetched] at hscraped
    refine ⟨?_, ⟨pages.stopReason, hregular.stopReason, ?_⟩, hscraped.persisted, hscraped.stored⟩
    · rw [hfailed]
      change some ((pages.pagesFailed : ℕ) : ℤ) = some 0
      rw [hregular.pagesFailed]
      rfl
    · rw [hreason]
      exact reportedStopReason_of_regular hregular.stopReason

/-- A scraped source that found a challenge is not clean. -/
theorem not_clean_blockedResult {challenge : ChallengeState}
    (hscraped : (run.sources i).Scraped run.env (.ok challenge.blockedResult) result s.tables) :
    ¬ run.Clean s i (.ok challenge.blockedResult) result := by
  intro hclean
  obtain ⟨reason, hregular, hreason⟩ := hclean.stopReason
  rw [(hscraped.reported _ rfl).2] at hreason
  have htext : reportedStopReason challenge.blockedResult.stopReason
      = some challenge.reason.text := by
    change reportedStopReason challenge.reason.text = _
    cases challenge.reason <;> decide
  rw [htext] at hreason
  cases hreason
  exact challengeReason_not_regular challenge.reason hregular

/-- What a sound run knows of a task that is done. -/
theorem Sound.done (h : run.Sound s) {blocked : Bool}
    (htask : s.tasks i = .done blocked outcome result raised) :
    run.FetchedBy i blocked outcome ∧ run.Judged i s.tables outcome result raised := by
  have hsound := h.tasks i
  rw [htask] at hsound
  exact hsound

/-- A failing page is among what the source returns. -/
theorem pagesFailed_of_pageFails (h : run.PageFails i) :
    ∃ fetched, run.outcome i = .ok fetched ∧ 0 < fetched.pagesFailed := by
  obtain ⟨pages, hpages, hfailed, -⟩ := ((run.sources i).feed.fetchSpec run.env.settings
    (run.sources i).live.requestedLimit).fails h
  refine ⟨pages.fetchResult, ?_, ?_⟩
  · unfold outcome
    rw [hpages]
    rfl
  · change 0 < pages.pagesFailed
    omega

/-- A source with a failed page has a page that fails. -/
theorem pageFails_of_pagesFailed {fetched : PaginatedFetchResult}
    (houtcome : Except.ok fetched = run.outcome i) (hpos : 0 < fetched.pagesFailed) :
    run.PageFails i := by
  by_contra h
  obtain ⟨pages, hpages, rfl⟩ := fetchedPages houtcome rfl
  have hregular := ((run.sources i).feed.fetchSpec run.env.settings
    (run.sources i).live.requestedLimit).regular h pages hpages
  change 0 < pages.pagesFailed at hpos
  rw [hregular.pagesFailed] at hpos
  exact Nat.lt_irrefl 0 hpos

/-- An honest status leaves no degraded source without an exception of its own. -/
theorem errsWhenDegraded_of_honest (hsound : run.Sound s) (h : run.Honest s) (i : Fin n) :
    run.ErrsWhenDegraded s i := by
  intro blocked outcome result raised htask
  obtain ⟨hfetched, hjudged⟩ := hsound.done htask
  cases blocked with
  | true =>
    obtain ⟨challenge, rfl⟩ := hfetched
    intro hcommit
    have hnone : (run.sources i).firstError run.env (.ok challenge.blockedResult) = none :=
      (ScrapeSource.firstError_blockedResult challenge).trans hcommit
    cases hjudged with
    | scraped _ hscraped _ =>
      exact not_clean_blockedResult hscraped
        (h.sourceCompleted i _ _ _ _ htask hscraped.status hscraped.errors)
    | gaveUp exc hsome _ _ =>
      rw [hnone] at hsome
      cases hsome
  | false =>
    have houtcome : outcome = run.outcome i := hfetched
    intro hpage
    obtain ⟨fetched, hok, hpos⟩ := pagesFailed_of_pageFails hpage
    rw [houtcome, hok] at htask
    obtain ⟨hstatus, error, herror, -⟩ := h.pageFailed i _ _ _ _ htask hpos
    cases hjudged with
    | scraped _ hscraped _ =>
      rw [hscraped.errors] at herror
      cases herror
    | gaveUp exc hsome _ hraised =>
      refine ⟨by rw [← houtcome, hsome]; exact Option.some_ne_none exc, ?_⟩
      by_contra hallowed
      rw [if_neg hallowed] at hraised
      have hstarted : s.runRecord.status = .started :=
        ScrapeState.runRecord_of_raised (by rw [htask]; exact hraised)
      rw [hstarted] at hstatus
      rcases hstatus with hstatus | hstatus <;> cases hstatus

/-- A scraped source whose degradation would have met an exception is clean. -/
theorem clean_of_errsWhenDegraded (hsound : run.Sound s) (h : run.ErrsWhenDegraded s i)
    {blocked : Bool} (htask : s.tasks i = .done blocked outcome result raised)
    (herrors : result.errors = []) : run.Clean s i outcome result := by
  obtain ⟨hfetched, hjudged⟩ := hsound.done htask
  have hcond := h _ _ _ _ htask
  cases hjudged with
  | gaveUp exc _ hgaveUp _ =>
    rw [hgaveUp.errors] at herrors
    cases herrors
  | scraped hnone hscraped _ =>
    cases blocked with
    | true =>
      obtain ⟨challenge, rfl⟩ := hfetched
      exact absurd ((ScrapeSource.firstError_blockedResult challenge).symm.trans hnone) hcond
    | false =>
      have houtcome : outcome = run.outcome i := hfetched
      refine clean_of_not_pageFails houtcome hscraped hnone fun hpage => ?_
      exact (hcond hpage).1 (houtcome ▸ hnone)

/-- Degraded sources that meet an exception of their own leave an honest status. -/
theorem honest_of_errsWhenDegraded (hsound : run.Sound s) (hdone : s.Finished)
    (h : ∀ i, run.ErrsWhenDegraded s i) : run.Honest s where
  completed hstatus i blocked outcome result raised htask := by
    refine clean_of_errsWhenDegraded hsound (h i) htask ?_
    have hraised := (ScrapeState.finished_of_completed hstatus).2
    rw [ScrapeState.runRecord_of_not_raised hraised hdone] at hstatus
    exact errors_of_completed hstatus
      (ScrapeState.mem_sourceResults.mpr ⟨i, by rw [htask]; rfl⟩)
  sourceCompleted i _ _ _ _ htask _ herrors := clean_of_errsWhenDegraded hsound (h i) htask herrors
  pageFailed i blocked fetched result raised htask hpos := by
    obtain ⟨hfetched, hjudged⟩ := hsound.done htask
    have hcond := h i _ _ _ _ htask
    cases blocked with
    | true =>
      obtain ⟨challenge, hblocked⟩ := hfetched
      cases hblocked
      cases hpos
    | false =>
      have houtcome : Except.ok fetched = run.outcome i := hfetched
      obtain ⟨hne, hallowed⟩ := hcond (pageFails_of_pagesFailed houtcome hpos)
      cases hjudged with
      | scraped hnone _ _ => exact absurd (houtcome ▸ hnone) hne
      | gaveUp exc _ hgaveUp _ =>
        have hraised : ∀ j, (s.tasks j).raised = none := by
          intro j
          cases htaskj : s.tasks j with
          | done blocked' outcome' result' raised' =>
            cases (hsound.done htaskj).2 with
            | scraped _ _ hraised => exact hraised
            | gaveUp _ _ _ hraised => exact hraised.trans (if_pos hallowed)
          | waiting => rfl
          | fetching => rfl
          | fetched blocked' outcome' => rfl
        have hresult : result ∈ s.sourceResults :=
          ScrapeState.mem_sourceResults.mpr ⟨i, by rw [htask]; rfl⟩
        have herror : errorSummary (run.sources i).sourcePlatform exc ∈ result.errors := by
          rw [hgaveUp.errors]
          exact List.mem_cons_self
        have hmerged : errorSummary (run.sources i).sourcePlatform exc
            ∈ (mergeSourceResults s.sourceResults).errors := by
          rw [mergeSourceResults_errors]
          exact List.mem_flatMap.mpr ⟨result, hresult, herror⟩
        rw [ScrapeState.runRecord_of_not_raised hraised hdone, finishStageRun_summary]
        exact ⟨.inl (finishStageRun_of_error hmerged), _, herror, hmerged,
          errorSummary_sourcePlatform _ exc⟩

/-- The status of a finished run is honest exactly when every degraded source of it has met an
    exception of its own. -/
theorem honest_iff (hinj : Function.Injective run.env.host.newId)
    (hfresh : FreshIds run.env.host { tables := run.tables, ticks := 0 })
    (schedule : List (Fin n)) (hdone : (run.execute schedule).Finished) :
    run.Honest (run.execute schedule) ↔ ∀ i, run.ErrsWhenDegraded (run.execute schedule) i :=
  ⟨errsWhenDegraded_of_honest (sound_execute hinj hfresh schedule),
    honest_of_errsWhenDegraded (sound_execute hinj hfresh schedule) hdone⟩

end ScrapeRun

/-! ### One source, one page -/

/-- A host whose ids grow longer. -/
def tallyHost : Host where
  utcNow n := n
  newId n := String.ofList (List.replicate n 'r')
  latencyMs _ := 0

theorem tallyHost_newId_injective : Function.Injective tallyHost.newId := by
  intro a b h
  have hlength := congrArg (fun id : String => id.toList.length) h
  simpa [tallyHost] using hlength

/-- The settings of a small run. -/
def smallSettings : ScraperSettings where
  scraperMaxItemsPerKeyword := 2
  scraperMaxItemsPerSourceRun := 2
  scraperMaxPagesPerKeyword := 3
  deallsPageSize := 20
  glintsPageSize := 30
  jobstreetPageSize := 32
  kalibrrPageSize := 30
  kitalulusPageSize := 30
  jobstreetBearerToken := none
  jobstreetCookie := none

/-- A run of one source over empty tables. -/
def lonelyRun (feed : SourceFeed) : ScrapeRun 1 where
  env :=
    { host := tallyHost, hash := plainHash, isoformat := fun _ => "", dates := mayDates
      settings := smallSettings, runId := "run" }
  sources _ := { live := maySource feed.platform, feed, samePlatform := rfl }
  tables := { rawJobs := Table.empty RawJob.id, normalizedJobs := Table.empty NormalizedJob.id }

/-- Glints with one page of one job. -/
def onePage : SourceFeed :=
  .glints
    { listPage := fun _ _ _ => .ok
        { pagination := { hasMore := false }
          rawJobs := [{ sourcePlatform := "glints", externalId := "1", sourceUrl := "u", rawPayload := [] }] }
      detail := fun _ _ => notFound }

/-- A run whose page is answered has an honest status. -/
theorem honest_iff_onePage : (lonelyRun onePage).Honest ((lonelyRun onePage).execute [0, 0, 0]) := by
  have hfresh : FreshIds (lonelyRun onePage).env.host
      { tables := (lonelyRun onePage).tables, ticks := 0 } := nofun
  refine (ScrapeRun.honest_iff tallyHost_newId_injective hfresh [0, 0, 0] (by decide)).mpr ?_
  intro i blocked outcome result raised htask
  obtain rfl : i = 0 := Subsingleton.elim i 0
  have hdone : ((lonelyRun onePage).execute [0, 0, 0]).tasks 0 = .done false _ _ _ := rfl
  rw [hdone] at htask
  cases htask
  rintro ⟨s, exc, -, -, hpage, -⟩
  cases hpage

/-- Dealls, whose first page answers 503. -/
def pageDown : SourceFeed :=
  .dealls
    { listPage := fun _ _ _ => .error (.scraper .fetch "source request returned error status" none true
        [("statusCode", .int 503)])
      detail := fun _ _ => notFound }

/-- The only page of the only source fails: the run is completed, and so is the source, without an
    error. -/
theorem failed_page_completed :
    let s := (lonelyRun pageDown).execute [0, 0, 0]
    s.Finished ∧ s.runRecord.status = .completed ∧ s.runRecord.summary.errors = [] ∧
      (∃ result, s.sourceResults = [result] ∧ result.status = .completed ∧ result.errors = [] ∧
        result.pagesFailed = some 1 ∧ result.stopReason = some "source_unavailable") ∧
      ¬ (lonelyRun pageDown).Honest s := by
  refine ⟨by decide, by decide, rfl, ⟨_, rfl, rfl, rfl, rfl, rfl⟩, fun hhonest => ?_⟩
  have hclean := hhonest.completed (by decide) 0 _ _ _ _ rfl
  have hpages := hclean.pagesFailed
  cases hpages

end Bisakerja
