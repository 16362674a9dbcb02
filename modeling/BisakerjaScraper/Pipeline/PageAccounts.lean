import BisakerjaScraper.Pipeline.SourcePages

/-! What a page loop accounts for.

    A run of a loop is told by the answers to its page requests. The counters of its state are
    counts of these answers, and the jobs it collects are the rows of the parsed pages, the first of
    each external id, in their order. -/

namespace Bisakerja
open Schemes

/-! ### New jobs -/

/-- What `dedupe_new_jobs` makes of the jobs of a page. -/
structure Deduped (jobs : List RawSourceJob) (seen : List String)
    (result : List RawSourceJob × List String × ℕ) : Prop where
  ids : result.2.1 = seen ++ result.1.map RawSourceJob.externalId
  nodup : (result.1.map RawSourceJob.externalId).Nodup
  fresh : ∀ job ∈ result.1, job.externalId ∉ seen
  order : result.1.Sublist jobs
  count : result.1.length + result.2.2 = jobs.length
  kept : ∀ job ∈ jobs, job.externalId ∈ result.2.1

theorem deduped_dedupeNewJobs (jobs : List RawSourceJob) (seen : List String) :
    Deduped jobs seen (dedupeNewJobs jobs seen) := by
  induction jobs generalizing seen with
  | nil =>
    refine ⟨?_, List.nodup_nil, ?_, List.Sublist.refl _, rfl, ?_⟩ <;> simp [dedupeNewJobs]
  | cons job rest ih =>
    by_cases hseen : job.externalId ∈ seen
    · have h := ih seen
      simp only [dedupeNewJobs, hseen, if_true]
      refine ⟨h.ids, h.nodup, h.fresh, h.order.cons _, ?_, ?_⟩
      · simp [← h.count, Nat.add_assoc]
      · intro other hother
        rcases List.mem_cons.mp hother with rfl | hother
        · rw [h.ids]
          exact List.mem_append_left _ hseen
        · exact h.kept other hother
    · have h := ih (seen ++ [job.externalId])
      simp only [dedupeNewJobs, hseen, if_false]
      refine ⟨?_, ?_, ?_, h.order.cons_cons _, ?_, ?_⟩
      · simp [h.ids]
      · refine List.nodup_cons.mpr ⟨fun hmem => ?_, h.nodup⟩
        obtain ⟨other, hother, hid⟩ := List.mem_map.mp hmem
        exact h.fresh other hother (by simp [hid])
      · intro other hother
        rcases List.mem_cons.mp hother with rfl | hother
        · exact hseen
        · exact fun hmem => h.fresh other hother (List.mem_append_left _ hmem)
      · simp [← h.count, Nat.add_right_comm]
      · intro other hother
        rcases List.mem_cons.mp hother with rfl | hother
        · simp [h.ids]
        · exact h.kept other hother

/-- Enriching a job keeps its external id. -/
theorem externalId_enrichJob {platform : SourcePlatform} {answer : DetailAnswer}
    {job merged : RawSourceJob} (h : enrichJob platform answer job = .ok merged) :
    merged.externalId = job.externalId := by
  cases platform with
  | dealls =>
    unfold enrichJob deallsFetchEnrichedJob at h
    dsimp only at h
    repeat' split at h
    all_goals first | (cases h; rfl) | cases h
  | glints =>
    cases h
    rfl
  | jobstreet =>
    unfold enrichJob jobstreetFetchEnrichedJob at h
    dsimp only at h
    split at h
    all_goals first | (cases h; rfl) | cases h
  | kalibrr =>
    obtain ⟨detail, -, rfl⟩ := ok_map_iff.mp h
    rfl
  | kitalulus =>
    obtain ⟨slug, -, h⟩ := ok_bind_iff.mp h
    split at h
    all_goals first | (cases h; rfl) | cases h

/-! ### The answers of a run -/

/-- The rows of the pages that were parsed, in order. -/
def parsedRows (answers : List (Except PyException (List RawSourceJob))) : List RawSourceJob :=
  answers.flatMap fun answer => answer.toOption.getD []

/-- What the state of a loop says about the answers so far. -/
structure PageTally (answers : List (Except PyException (List RawSourceJob))) (s : PageState) :
    Prop where
  attempted : s.pagesAttempted = answers.length
  succeeded : s.pagesSucceeded = answers.countP fun answer => answer.isOk
  failed : s.pagesFailed = answers.countP fun answer => !answer.isOk
  distinct : (s.collected.map RawSourceJob.externalId).Nodup
  order : (s.collected.map RawSourceJob.externalId).Sublist
    ((parsedRows answers).map RawSourceJob.externalId)
  total : s.collected.length + s.dedupedCount = (parsedRows answers).length
  kept : ∀ row ∈ parsedRows answers, row.externalId ∈ s.collected.map RawSourceJob.externalId

/-- What a run accounts for: its page requests, its jobs and its end. -/
structure PagesAccounted (targetLimit : ℤ) (maxPages : ℕ)
    (answers : List (Except PyException (List RawSourceJob))) (s : PageState) : Prop
    extends PageTally answers s where
  bounded : answers.length ≤ maxPages
  balanced : s.pagesAttempted = s.pagesSucceeded + s.pagesFailed
  reached : s.stopReason = "target_reached" ↔ targetLimit ≤ s.collected.length

theorem PageTally.balanced {answers : List (Except PyException (List RawSourceJob))} {s : PageState}
    (h : PageTally answers s) : s.pagesAttempted = s.pagesSucceeded + s.pagesFailed := by
  rw [h.attempted, h.succeeded, h.failed, List.length_eq_countP_add_countP fun answer =>
    answer.isOk]
  simp

namespace PageLoop

variable {π : Type} (loop : PageLoop π)

/-- The rows a state is answered with when it asks for its page. -/
def rowsAnswered (s : PageState) : Except PyException (List RawSourceJob) :=
  (loop.answers.listPage (s.pagesAttempted + 1) s.position loop.pageSize).map ListResult.rawJobs

/-- The answers to the page requests of a run, in order. -/
def pageAnswers : List (Except PyException (List RawSourceJob)) :=
  (loop.pages.taken loop.maxPages loop.init).map loop.rowsAnswered

/-- The answers so far, while the loop goes on. -/
structure Going (answers : List (Except PyException (List RawSourceJob))) (s : PageState) : Prop
    extends PageTally answers s where
  seen : s.seenExternalIds = s.collected.map RawSourceJob.externalId
  reason : s.stopReason = "target_reached"

variable {loop} {answers : List (Except PyException (List RawSourceJob))} {s s' : PageState}

theorem going_init : Going [] loop.init :=
  ⟨⟨rfl, rfl, rfl, List.nodup_nil, List.Sublist.refl _, rfl, by simp [parsedRows]⟩, rfl, rfl⟩

/-- A page that fails is one more answer. -/
theorem Going.fail (h : Going answers s) (exc : PyException) :
    PageTally (answers ++ [.error exc])
      (loop.failed exc { s with pagesAttempted := s.pagesAttempted + 1 }) := by
  have hrows : parsedRows (answers ++ [.error exc]) = parsedRows answers := by
    simp [parsedRows, Except.toOption]
  refine ⟨?_, ?_, ?_, h.distinct, ?_, ?_, ?_⟩
  · simp [failed, h.attempted]
  · simp [failed, h.succeeded, Except.isOk, Except.toBool]
  · simp [failed, h.failed, Except.isOk, Except.toBool]
  · rw [hrows]
    exact h.order
  · rw [hrows]
    exact h.total
  · rw [hrows]
    exact h.kept

/-- A page that is collected is one more answer, and its rows are. -/
theorem Going.collect {result : ListResult π} (h : Going answers s)
    (hcollect : loop.collect result { s with pagesAttempted := s.pagesAttempted + 1 } = .ok s') :
    Going (answers ++ [.ok result.rawJobs]) s' := by
  unfold PageLoop.collect at hcollect
  obtain ⟨enriched, henriched, rfl⟩ := ok_map_iff.mp hcollect
  dsimp only at henriched ⊢
  have hpage := deduped_dedupeNewJobs result.rawJobs s.seenExternalIds
  revert henriched
  generalize dedupeNewJobs result.rawJobs s.seenExternalIds = page at hpage ⊢
  intro henriched
  have hids : enriched.map RawSourceJob.externalId = page.1.map RawSourceJob.externalId :=
    map_eq_of_mapM_ok (fun _ _ => externalId_enrichJob) henriched
  have hlength : enriched.length = page.1.length := by
    simpa using congrArg List.length hids
  have hrows : parsedRows (answers ++ [.ok result.rawJobs]) = parsedRows answers ++ result.rawJobs := by
    simp [parsedRows, Except.toOption]
  have hfresh : ∀ job ∈ page.1, job.externalId ∉ s.collected.map RawSourceJob.externalId := by
    rw [← h.seen]
    exact hpage.fresh
  refine ⟨⟨?_, ?_, ?_, ?_, ?_, ?_, ?_⟩, ?_, h.reason⟩
  · simp [h.attempted]
  · simp [h.succeeded, Except.isOk, Except.toBool]
  · simp [h.failed, Except.isOk, Except.toBool]
  · rw [List.map_append, hids]
    refine h.distinct.append hpage.nodup ?_
    intro id hcollected hnew
    obtain ⟨job, hjob, rfl⟩ := List.mem_map.mp hnew
    exact hfresh job hjob hcollected
  · rw [hrows, List.map_append, List.map_append, hids]
    exact h.order.append (hpage.order.map _)
  · have hcount := hpage.count
    have htotal := h.total
    change (s.collected ++ enriched).length + (s.dedupedCount + page.2.2) = _
    rw [hrows, List.length_append, List.length_append, hlength]
    omega
  · intro row hrow
    rw [hrows] at hrow
    rw [List.map_append, hids]
    rcases List.mem_append.mp hrow with hold | hnew
    · exact List.mem_append_left _ (h.kept row hold)
    · have hmem := hpage.kept row hnew
      rwa [hpage.ids, h.seen] at hmem
  · rw [List.map_append, hids, hpage.ids, h.seen]

/-- A turn that does not end the loop collects its page. -/
theorem Going.next (h : Going answers s) (hturn : loop.turn s = .ok (.next s')) :
    Going (answers ++ [loop.rowsAnswered s]) s' := by
  unfold turn at hturn
  dsimp only at hturn
  unfold rowsAnswered
  cases hpage : loop.answers.listPage (s.pagesAttempted + 1) s.position loop.pageSize with
  | error exc =>
    rw [hpage] at hturn
    dsimp only at hturn
    split at hturn <;> cases hturn
  | ok result =>
    rw [hpage] at hturn
    obtain ⟨s₁, hcollect, hsettle⟩ := ok_map_iff.mp hturn
    have hgoing := h.collect hcollect
    unfold settle at hsettle
    split at hsettle
    · cases hsettle
    · split at hsettle
      · cases hsettle
      · cases hsettle
        exact ⟨⟨hgoing.attempted, hgoing.succeeded, hgoing.failed, hgoing.distinct, hgoing.order,
          hgoing.total, hgoing.kept⟩, hgoing.seen, hgoing.reason⟩

/-- No failure of a page is a regular end. -/
theorem failed_not_regular (exc : PyException) (s : PageState) :
    (loop.failed exc s).stopReason ∉ regularStopReasons := by
  unfold PageLoop.failed
  dsimp only
  cases loop.challenge exc with
  | none => exact stopReasonFromException_not_regular exc
  | some reason => exact challengeReason_not_regular reason

theorem failed_reason_ne (exc : PyException) (s : PageState) :
    (loop.failed exc s).stopReason ≠ "target_reached" := by
  intro heq
  have hregular : (loop.failed exc s).stopReason ∈ regularStopReasons := by
    rw [heq]
    exact List.mem_cons_self
  exact failed_not_regular exc s hregular

/-- A turn that ends the loop: the answer counts, and the stop reason tells whether the target was
    reached. -/
theorem Going.stop (h : Going answers s) (htest : loop.pages.test s = true)
    (hturn : loop.turn s = .ok (.stop s')) :
    PageTally (answers ++ [loop.rowsAnswered s]) s' ∧
      (s'.stopReason = "target_reached" ↔ loop.targetLimit ≤ s'.collected.length) := by
  unfold turn at hturn
  dsimp only at hturn
  unfold rowsAnswered
  cases hpage : loop.answers.listPage (s.pagesAttempted + 1) s.position loop.pageSize with
  | error exc =>
    rw [hpage] at hturn
    dsimp only at hturn
    split at hturn
    · cases hturn
      refine ⟨h.fail exc, iff_of_false (failed_reason_ne exc _) ?_⟩
      exact not_le.mpr (test_iff.mp htest).1
    · cases hturn
  | ok result =>
    rw [hpage] at hturn
    obtain ⟨s₁, hcollect, hsettle⟩ := ok_map_iff.mp hturn
    have hgoing := h.collect hcollect
    have htally : ∀ reason, PageTally (answers ++ [.ok result.rawJobs]) { s₁ with stopReason := reason } :=
      fun _ => ⟨hgoing.attempted, hgoing.succeeded, hgoing.failed, hgoing.distinct, hgoing.order,
        hgoing.total, hgoing.kept⟩
    unfold settle at hsettle
    split at hsettle
    · next hreached =>
      cases hsettle
      exact ⟨htally _, iff_of_true rfl hreached⟩
    · next hshort =>
      split at hsettle
      · cases hsettle
        have hother : "source_exhausted" ≠ "target_reached" := by decide
        exact ⟨htally _, iff_of_false hother hshort⟩
      · cases hsettle

/-- A turn raises because its page fails in a way that is not caught, or because the enrichment of
    a job of its page does. -/
theorem turn_error {exc : PyException} (h : loop.turn s = .error exc) :
    (loop.rowsAnswered s = .error exc ∧ exc.isFetchOrParse = false) ∨
      ∃ result, loop.answers.listPage (s.pagesAttempted + 1) s.position loop.pageSize = .ok result ∧
        ∃ job ∈ (dedupeNewJobs result.rawJobs s.seenExternalIds).1, ∃ exc,
          enrichJob loop.platform (loop.answers.detail (s.pagesAttempted + 1) job) job
            = .error exc := by
  unfold turn at h
  dsimp only at h
  unfold rowsAnswered
  cases hpage : loop.answers.listPage (s.pagesAttempted + 1) s.position loop.pageSize with
  | error exc' =>
    rw [hpage] at h
    dsimp only at h
    split at h
    · cases h
    · next hexc =>
      cases h
      exact .inl ⟨rfl, Bool.eq_false_iff.mpr hexc⟩
  | ok result =>
    rw [hpage] at h
    refine .inr ⟨result, rfl, error_mapM_iff.mp ?_⟩
    unfold PageLoop.collect at h
    dsimp only at h
    cases henriched : (dedupeNewJobs result.rawJobs s.seenExternalIds).1.mapM fun job =>
        enrichJob loop.platform (loop.answers.detail (s.pagesAttempted + 1) job) job with
    | error exc' => exact ⟨exc', rfl⟩
    | ok enriched =>
      rw [henriched] at h
      cases h

/-- A loop ends in a state that agrees with the answers so far, the last one left out where the test
    fails. -/
theorem exists_ends_going (loop : PageLoop π) : ∃ (done : List PageState) (s : PageState),
    Going (done.map loop.rowsAnswered) s ∧ loop.pages.Ends s loop.run ∧
    loop.pageAnswers = if loop.pages.test s = true then
      done.map loop.rowsAnswered ++ [loop.rowsAnswered s] else done.map loop.rowsAnswered := by
  obtain ⟨done, s, hgoing, hends, htaken⟩ := While.exists_ends_taken pages_lowersRank
    (I := fun done s => Going (done.map loop.rowsAnswered) s)
    (fun done s s' hI _ hnext => by simpa using hI.next hnext)
    loop.maxPages loop.init [] rank_init going_init
  refine ⟨done, s, hgoing, hends, ?_⟩
  rw [List.nil_append] at htaken
  rw [pageAnswers, htaken]
  split <;> simp

/-- A loop that returns accounts for what it was answered. -/
theorem accounted_of_run (hrun : loop.run = .ok s) :
    PagesAccounted loop.targetLimit loop.maxPages loop.pageAnswers s := by
  obtain ⟨done, s', hgoing, hends, hanswers⟩ := exists_ends_going loop
  have hbounded : loop.pageAnswers.length ≤ loop.maxPages := by
    simpa [pageAnswers] using While.length_taken_le loop.maxPages loop.init
  rw [hrun] at hends
  cases hends with
  | stop htest hstop =>
    rw [if_pos htest] at hanswers
    obtain ⟨htally, hreason⟩ := hgoing.stop htest hstop
    rw [← hanswers] at htally
    exact ⟨htally, hbounded, htally.balanced, hreason⟩
  | exit htest =>
    rw [if_neg (by simp [htest])] at hanswers
    rw [hanswers] at hbounded ⊢
    change PagesAccounted _ _ _ (if _ then _ else _)
    split
    · next hshort =>
      have hother : "max_pages_reached" ≠ "target_reached" := by decide
      exact ⟨⟨hgoing.attempted, hgoing.succeeded, hgoing.failed, hgoing.distinct, hgoing.order,
        hgoing.total, hgoing.kept⟩, hbounded, hgoing.balanced,
        iff_of_false hother (not_le.mpr hshort)⟩
    · next hreached =>
      exact ⟨hgoing.toPageTally, hbounded, hgoing.balanced,
        iff_of_true hgoing.reason (not_lt.mp hreached)⟩

/-- A loop that is answered with pages, with errors it catches and with jobs that can be enriched
    returns, and accounts for what it was answered. -/
theorem accounted (hpages : ∀ exc, .error exc ∈ loop.pageAnswers → exc.isFetchOrParse = true)
    (henrich : ∀ n position result, loop.answers.listPage n position loop.pageSize = .ok result →
      ∀ job ∈ result.rawJobs, ∀ exc,
        enrichJob loop.platform (loop.answers.detail n job) job ≠ .error exc) :
    ∃ s, loop.run = .ok s ∧ PagesAccounted loop.targetLimit loop.maxPages loop.pageAnswers s := by
  cases hrun : loop.run with
  | ok s => exact ⟨s, rfl, accounted_of_run hrun⟩
  | error exc =>
    obtain ⟨done, s, -, hends, hanswers⟩ := exists_ends_going loop
    rw [hrun] at hends
    cases hends with
    | raise htest hraise =>
      rw [if_pos htest] at hanswers
      rcases turn_error hraise with ⟨hanswer, hexc⟩ | ⟨result, hpage, job, hjob, exc', hjobError⟩
      · have hmem : .error exc ∈ loop.pageAnswers := by
          rw [hanswers, ← hanswer]
          exact List.mem_append_right _ List.mem_cons_self
        rw [hpages exc hmem] at hexc
        cases hexc
      · have hrow := (deduped_dedupeNewJobs result.rawJobs s.seenExternalIds).order.subset hjob
        exact absurd hjobError (henrich _ _ _ hpage job hrow exc')

end PageLoop

/-! ### The five fetchers -/

/-- The answers to the page requests of a fetcher, in order. -/
def SourceFeed.pageAnswers (settings : ScraperSettings) (limit : ℤ) :
    SourceFeed → List (Except PyException (List RawSourceJob))
  | .dealls answers => (deallsLoop settings limit answers).pageAnswers
  | .glints answers => (glintsLoop settings limit answers).pageAnswers
  | .jobstreet answers => (jobstreetLoop settings limit answers).pageAnswers
  | .kalibrr answers => (kalibrrLoop settings limit answers).pageAnswers
  | .kitalulus answers => (kitalulusLoop settings limit answers).pageAnswers

namespace SourcePayloads

variable (payloads : SourcePayloads) (settings : ScraperSettings) (limit : ℤ)

/-- Every failure of the source is a `FetchError` or a `ParseError`: of the pages that are asked
    for, and of the details. -/
structure FailsAsExpected : Prop where
  pages : ∀ exc, .error exc ∈ payloads.feed.pageAnswers settings limit → exc.isFetchOrParse = true
  details : ∀ n job, ¬ DetailEscapes payloads.platform job (payloads.detail n job)

/-- JobStreet is configured: its fetcher refuses to start without a bearer token. -/
def Configured : Prop :=
  payloads.platform = .jobstreet → strip (settings.jobstreetBearerToken.getD "") ≠ ""

variable {payloads settings limit}

/-- Every fetcher returns what it collected, within its pages, and accounts for every row it was
    sent and every page it asked for. -/
theorem pagination_accounted (hfails : payloads.FailsAsExpected settings limit)
    (hconfigured : payloads.Configured settings) :
    ∃ s, payloads.feed.fetchPages settings limit = .ok s ∧
      PagesAccounted (settings.targetLimit limit) settings.scraperMaxPagesPerKeyword
        (payloads.feed.pageAnswers settings limit) s := by
  obtain ⟨platform, page, detail⟩ := payloads
  have hjob : ∀ {n : ℕ} {job : RawSourceJob}, job.Accepted platform → ∀ exc,
      enrichJob platform (detail n job) job ≠ .error exc := by
    intro n job haccepted exc henrich
    exact hfails.details n job ((enrichJob_error_iff _ haccepted).mp ⟨exc, henrich⟩)
  have hpages := hfails.pages
  cases platform with
  | dealls =>
    refine PageLoop.accounted hpages fun n position result hpage job hmem => hjob ?_
    exact accepted_of_page parseDeallsListPayload_accepted hpage job hmem
  | glints =>
    refine PageLoop.accounted hpages fun n position result hpage job hmem => hjob ?_
    exact accepted_of_page parseGlintsListPayload_accepted hpage job hmem
  | jobstreet =>
    unfold feed SourceFeed.fetchPages
    dsimp only
    rw [if_neg (hconfigured rfl)]
    refine PageLoop.accounted hpages fun n position result hpage job hmem => hjob ?_
    exact accepted_of_page parseJobstreetListPayload_accepted hpage job hmem
  | kalibrr =>
    refine PageLoop.accounted hpages fun n position result hpage job hmem => hjob ?_
    exact accepted_of_page parseKalibrrListPayload_accepted hpage job hmem
  | kitalulus =>
    refine PageLoop.accounted hpages fun n position result hpage job hmem => hjob ?_
    exact accepted_of_page parseKitalulusListPayload_accepted hpage job hmem

end SourcePayloads

/-! ### One page and an error -/

/-- Settings for at most five jobs and four pages. -/
def fewPages : ScraperSettings where
  scraperMaxItemsPerKeyword := 5
  scraperMaxItemsPerSourceRun := 5
  scraperMaxPagesPerKeyword := 4
  deallsPageSize := 20
  glintsPageSize := 30
  jobstreetPageSize := 32
  kalibrrPageSize := 30
  kitalulusPageSize := 30
  jobstreetBearerToken := some "token"
  jobstreetCookie := none

/-- A request that timed out. -/
def timedOut : PyException := .scraper .fetch "source request timed out" none true []

/-- A Glints source with one job on its first page, whose second page times out. -/
def brokenGlints : SourcePayloads where
  platform := .glints
  page n _ _ :=
    if n = 1 then .ok [("data", .dict [("searchJobsV3", .dict
      [("jobsInPage", .list [.dict [("id", .str "g1")]]), ("hasMore", .bool true)])])]
    else .error timedOut
  detail _ _ := .error timedOut

theorem pagination_accounted_brokenGlints :
    ∃ s, brokenGlints.feed.fetchPages fewPages 5 = .ok s ∧
      PagesAccounted (fewPages.targetLimit 5) fewPages.scraperMaxPagesPerKeyword
        (brokenGlints.feed.pageAnswers fewPages 5) s := by
  refine SourcePayloads.pagination_accounted ⟨?_, ?_⟩ fun h => by cases h
  · intro exc hexc
    have hanswers : brokenGlints.feed.pageAnswers fewPages 5 = [.ok _, .error timedOut] := rfl
    rw [hanswers] at hexc
    simp only [List.mem_cons, List.not_mem_nil, or_false, reduceCtorEq, false_or] at hexc
    cases hexc
    rfl
  · rintro n job ⟨exc, hdetail, -⟩
    cases hdetail

end Bisakerja
