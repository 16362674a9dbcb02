import BisakerjaScraper.Pipeline.Live
import BisakerjaScraper.Schemes.While
import BisakerjaScraper.Sources.Lists

/-! The page loops of the five live sources.

    A fetcher asks for list pages until it has enough jobs, the source has no more, or the pages
    run out. A `FetchError` or `ParseError` of a page ends the loop with a count and a stop reason;
    any other exception leaves the fetcher. The answers to the requests are parameters: one answer
    for each list request, in order, and one for each detail request. -/

namespace Bisakerja
open Schemes

/-- The settings the fetchers read. -/
structure ScraperSettings where
  scraperMaxItemsPerKeyword : ℤ
  scraperMaxItemsPerSourceRun : ℤ
  scraperMaxPagesPerKeyword : ℕ
  deallsPageSize : ℤ
  glintsPageSize : ℤ
  jobstreetPageSize : ℤ
  kalibrrPageSize : ℤ
  kitalulusPageSize : ℤ
  jobstreetBearerToken : Option String
  jobstreetCookie : Option String

/-- `target_limit`. -/
def ScraperSettings.targetLimit (settings : ScraperSettings) (limit : ℤ) : ℤ :=
  min limit (min settings.scraperMaxItemsPerKeyword settings.scraperMaxItemsPerSourceRun)

/-- The answers of a source: to the `n`-th list request, at a position and with a page size, and to
    the detail request for a job of the `n`-th page. -/
structure SourceAnswers (π : Type) where
  listPage : ℕ → ℤ → ℤ → Except PyException (ListResult π)
  detail : ℕ → RawSourceJob → DetailAnswer

/-- `dedupe_new_jobs`: the jobs with a new external id, the ids seen, the number of jobs left out. -/
def dedupeNewJobs : List RawSourceJob → List String → List RawSourceJob × List String × ℕ
  | [], seen => ([], seen, 0)
  | job :: rest, seen =>
    if job.externalId ∈ seen then
      let (selected, seen, deduped) := dedupeNewJobs rest seen
      (selected, seen, deduped + 1)
    else
      let (selected, seen, deduped) := dedupeNewJobs rest (seen ++ [job.externalId])
      (job :: selected, seen, deduped)

/-- `exc.details.get("blocker") == "cloudflare_challenge"`. -/
def isCloudflareChallenge (details : Dict) : Bool :=
  match details.get "blocker" with
  | .str blocker => blocker = "cloudflare_challenge"
  | _ => false

/-- `stop_reason_from_exception`; the HTTP client gives the status code as an integer. -/
def stopReasonFromException : PyException → String
  | .scraper .parse _ _ _ _ => "parse_error"
  | .scraper .fetch _ _ _ details =>
    if isCloudflareChallenge details then "cloudflare_challenge"
    else match details.get "statusCode" with
      | .int code =>
        if code = 400 then "invalid_request"
        else if code = 401 ∨ code = 403 then "auth_required"
        else if code = 429 then "rate_limited"
        else if 500 ≤ code then "source_unavailable"
        else "fetch_error"
      | _ => "fetch_error"
  | _ => "source_error"

/-- The stop reasons of a loop that ran as it should. -/
def regularStopReasons : List String := ["target_reached", "source_exhausted", "max_pages_reached"]

/-- The reasons a challenge is remembered by. -/
inductive ChallengeReason where | challenge | cookieRequired
  deriving DecidableEq

/-- The text of `challenge_state["reason"]`. -/
def ChallengeReason.text : ChallengeReason → String
  | .challenge => "cloudflare_challenge"
  | .cookieRequired => "cloudflare_challenge_cookie_required"

/-- The local variables of a fetcher. `challenge` is the reason it puts into the challenge state
    that the JobStreet sources share. -/
structure PageState where
  position : ℤ
  seenExternalIds : List String := []
  collected : List RawSourceJob := []
  dedupedCount : ℕ := 0
  pagesAttempted : ℕ := 0
  pagesSucceeded : ℕ := 0
  pagesFailed : ℕ := 0
  stopReason : String := "target_reached"
  totalAvailable : Option ℤ := none
  emptyPages : ℕ := 0
  challenge : Option ChallengeReason := none

/-- What a page loop is run with, and what it does its own way. -/
structure PageLoop (π : Type) where
  platform : SourcePlatform
  targetLimit : ℤ
  pageSize : ℤ
  maxPages : ℕ
  answers : SourceAnswers π
  /-- The first page, or the first offset. -/
  first : ℤ
  /-- `total_available` after a page. -/
  available : ℤ → ListResult π → Option ℤ → ℤ
  /-- The source has no page after this one. -/
  exhausted : ℤ → ListResult π → Bool
  /-- The next page, or the next offset. -/
  advance : ℤ → ListResult π → ℤ
  /-- The reason a challenge is remembered by, if the failure of a page is one. -/
  challenge : PyException → Option ChallengeReason := fun _ => none

namespace PageLoop

variable {π : Type} (loop : PageLoop π)

/-- The `except` branch of a page. -/
def failed (exc : PyException) (s : PageState) : PageState :=
  { s with
    pagesFailed := s.pagesFailed + 1
    stopReason := ((loop.challenge exc).map ChallengeReason.text).getD (stopReasonFromException exc)
    challenge := loop.challenge exc }

/-- A page that was answered: its new jobs are enriched and collected. -/
def collect (result : ListResult π) (s : PageState) : Except PyException PageState :=
  let (pageJobs, seen, dedupedNow) := dedupeNewJobs result.rawJobs s.seenExternalIds
  (pageJobs.mapM fun job => enrichJob loop.platform (loop.answers.detail s.pagesAttempted job) job).map
    fun enriched =>
      { s with
        pagesSucceeded := s.pagesSucceeded + 1
        seenExternalIds := seen
        dedupedCount := s.dedupedCount + dedupedNow
        totalAvailable := some (loop.available s.position result s.totalAvailable)
        emptyPages := if pageJobs.isEmpty then s.emptyPages + 1 else 0
        collected := s.collected ++ enriched }

/-- Whether the loop goes on after a page. -/
def settle (result : ListResult π) (s : PageState) : Turn PageState :=
  if loop.targetLimit ≤ s.collected.length then .stop { s with stopReason := "target_reached" }
  else if 2 ≤ s.emptyPages ∨ loop.exhausted s.position result then
    .stop { s with stopReason := "source_exhausted" }
  else .next { s with position := loop.advance s.position result }

/-- One page. -/
def turn (s : PageState) : Except PyException (Turn PageState) :=
  let s := { s with pagesAttempted := s.pagesAttempted + 1 }
  match loop.answers.listPage s.pagesAttempted s.position loop.pageSize with
  | .error exc => if exc.isFetchOrParse then .ok (.stop (loop.failed exc s)) else .error exc
  | .ok result => (loop.collect result s).map (loop.settle result)

/-- `while len(collected) < target_limit and pages_attempted < max_pages`. -/
def pages : While PyException PageState where
  test s := (s.collected.length : ℤ) < loop.targetLimit && s.pagesAttempted < loop.maxPages
  turn := loop.turn
  exit s :=
    if (s.collected.length : ℤ) < loop.targetLimit then { s with stopReason := "max_pages_reached" }
    else s

/-- The state before the first page. -/
def init : PageState where position := loop.first

/-- The loop from its first page to its last. -/
def run : Except PyException PageState := loop.pages.run loop.maxPages loop.init

end PageLoop

/-- The `PaginatedFetchResult` a fetcher returns. -/
def PageState.fetchResult (s : PageState) : PaginatedFetchResult where
  rawJobs := s.collected
  pagesAttempted := s.pagesAttempted
  pagesSucceeded := s.pagesSucceeded
  pagesFailed := s.pagesFailed
  stopReason := s.stopReason
  dedupedCount := s.dedupedCount
  totalAvailable := s.totalAvailable

/-! ### The five loops -/

section

variable (settings : ScraperSettings) (limit : ℤ)

/-- The loop of `build_live_dealls_source`. -/
def deallsLoop (answers : SourceAnswers DeallsPagination) : PageLoop DeallsPagination where
  platform := .dealls
  targetLimit := settings.targetLimit limit
  pageSize := min settings.deallsPageSize (min (max (settings.targetLimit limit) 1) 20)
  maxPages := settings.scraperMaxPagesPerKeyword
  answers := answers
  first := 1
  available _ result _ := result.pagination.totalDocs
  exhausted page result := result.pagination.totalPages ≠ 0 ∧ result.pagination.totalPages ≤ page
  advance page _ := page + 1

/-- The loop of `build_live_glints_source`. -/
def glintsLoop (answers : SourceAnswers GlintsPagination) : PageLoop GlintsPagination where
  platform := .glints
  targetLimit := settings.targetLimit limit
  pageSize := min settings.glintsPageSize (max (settings.targetLimit limit) 1)
  maxPages := settings.scraperMaxPagesPerKeyword
  answers := answers
  first := 1
  available page result total :=
    max (total.getD 0) ((page - 1) * min settings.glintsPageSize (max (settings.targetLimit limit) 1)
      + result.rawJobs.length)
  exhausted _ result := !result.pagination.hasMore
  advance page _ := page + 1

/-- The reason a challenge of JobStreet is remembered by. -/
def jobstreetChallenge : PyException → Option ChallengeReason
  | .scraper .fetch _ _ _ details =>
    if isCloudflareChallenge details then
      some (if strip (settings.jobstreetCookie.getD "") = "" then .cookieRequired else .challenge)
    else none
  | _ => none

/-- The loop of `build_live_jobstreet_source`. -/
def jobstreetLoop (answers : SourceAnswers JobStreetPagination) : PageLoop JobStreetPagination where
  platform := .jobstreet
  targetLimit := settings.targetLimit limit
  pageSize := min settings.jobstreetPageSize (max (settings.targetLimit limit) 1)
  maxPages := settings.scraperMaxPagesPerKeyword
  answers := answers
  first := 1
  available _ result _ := result.pagination.totalCount
  exhausted page result := result.pagination.totalPages ≠ 0 ∧ result.pagination.totalPages ≤ page
  advance page _ := page + 1
  challenge := jobstreetChallenge settings

/-- The loop of `build_live_kalibrr_source`. -/
def kalibrrLoop (answers : SourceAnswers KalibrrPagination) : PageLoop KalibrrPagination where
  platform := .kalibrr
  targetLimit := settings.targetLimit limit
  pageSize := min settings.kalibrrPageSize (min (max (settings.targetLimit limit) 1) 100)
  maxPages := settings.scraperMaxPagesPerKeyword
  answers := answers
  first := 0
  available _ result _ := result.pagination.totalCount
  exhausted offset result := (result.pagination.totalCount : ℤ) ≤ offset + result.rawJobs.length
  advance offset result := offset + min (max result.pagination.limit 1)
    (min settings.kalibrrPageSize (min (max (settings.targetLimit limit) 1) 100))

/-- The loop of `build_live_kitalulus_source`. -/
def kitalulusLoop (answers : SourceAnswers KitalulusPagination) : PageLoop KitalulusPagination where
  platform := .kitalulus
  targetLimit := settings.targetLimit limit
  pageSize := min settings.kitalulusPageSize (min (max (settings.targetLimit limit) 1) 100)
  maxPages := settings.scraperMaxPagesPerKeyword
  answers := answers
  first := 1
  available _ result _ := result.pagination.totalCount
  exhausted _ result := !result.pagination.hasNextPage
  advance page _ := page + 1

end

/-! ### The fetchers -/

/-- The challenge state that the JobStreet sources of a run share. -/
structure ChallengeState where
  blocked : Bool := false
  reason : ChallengeReason := .challenge

/-- What a JobStreet fetcher returns when a challenge is remembered. -/
def ChallengeState.blockedResult (state : ChallengeState) : PaginatedFetchResult where
  rawJobs := []
  pagesAttempted := 0
  pagesSucceeded := 0
  pagesFailed := 0
  stopReason := state.reason.text
  dedupedCount := 0

/-- The `ConfigError` of `build_jobstreet_default_headers`. -/
def bearerTokenRequired : PyException :=
  .scraper .config "JobStreet bearer token is required" none false
    [("configKey", .str "JOBSTREET_BEARER_TOKEN")]

/-- The answers one of the five sources gives. -/
inductive SourceFeed where
  | dealls (answers : SourceAnswers DeallsPagination)
  | glints (answers : SourceAnswers GlintsPagination)
  | jobstreet (answers : SourceAnswers JobStreetPagination)
  | kalibrr (answers : SourceAnswers KalibrrPagination)
  | kitalulus (answers : SourceAnswers KitalulusPagination)

namespace SourceFeed

/-- `source_platform`. -/
def platform : SourceFeed → SourcePlatform
  | .dealls _ => .dealls
  | .glints _ => .glints
  | .jobstreet _ => .jobstreet
  | .kalibrr _ => .kalibrr
  | .kitalulus _ => .kitalulus

variable (settings : ScraperSettings) (limit : ℤ)

/-- The fetcher past the challenge state: JobStreet builds its clients first. -/
def fetchPages : SourceFeed → Except PyException PageState
  | .dealls answers => (deallsLoop settings limit answers).run
  | .glints answers => (glintsLoop settings limit answers).run
  | .jobstreet answers =>
    if strip (settings.jobstreetBearerToken.getD "") = "" then .error bearerTokenRequired
    else (jobstreetLoop settings limit answers).run
  | .kalibrr answers => (kalibrrLoop settings limit answers).run
  | .kitalulus answers => (kitalulusLoop settings limit answers).run

end SourceFeed

/-! ### How a loop ends -/

namespace PageLoop

variable {π : Type} (loop : PageLoop π)

/-- A page that is asked for fails: its answer is a `FetchError` or a `ParseError`. -/
def PageFails : Prop :=
  ∃ s exc, loop.pages.Reaches loop.init s ∧ loop.pages.test s = true ∧
    loop.answers.listPage (s.pagesAttempted + 1) s.position loop.pageSize = .error exc ∧
    exc.isFetchOrParse = true

/-- A state without a failed page, whose jobs are enriched list jobs. -/
structure Undisturbed (s : PageState) : Prop where
  pagesFailed : s.pagesFailed = 0
  challenge : s.challenge = none
  stopReason : s.stopReason ∈ regularStopReasons

/-- The jobs collected are enriched list jobs. -/
def Enriched (s : PageState) : Prop :=
  ∃ entries : List (RawSourceJob × DetailAnswer),
    entries.mapM (fun entry => enrichJob loop.platform entry.2 entry.1) = .ok s.collected

variable {loop}

/-- A collected page leaves the count of failures and the stop reason alone. -/
theorem collect_ok {result : ListResult π} {s s' : PageState} (h : loop.collect result s = .ok s') :
    s'.pagesAttempted = s.pagesAttempted ∧ s'.pagesFailed = s.pagesFailed ∧
      s'.challenge = s.challenge ∧ s'.stopReason = s.stopReason ∧ s'.position = s.position ∧
      (loop.Enriched s → loop.Enriched s') := by
  unfold collect at h
  obtain ⟨enriched, henriched, rfl⟩ := ok_map_iff.mp h
  refine ⟨rfl, rfl, rfl, rfl, rfl, ?_⟩
  rintro ⟨entries, hentries⟩
  refine ⟨entries ++ (dedupeNewJobs result.rawJobs s.seenExternalIds).1.map fun job =>
    (job, loop.answers.detail s.pagesAttempted job), ?_⟩
  rw [List.mapM_append, hentries, List.mapM_map]
  exact ok_bind_iff.mpr ⟨_, rfl, ok_bind_iff.mpr ⟨_, henriched, rfl⟩⟩

/-- A turn whose page fails breaks the loop. -/
theorem turn_of_fails {s : PageState} {exc : PyException}
    (hpage : loop.answers.listPage (s.pagesAttempted + 1) s.position loop.pageSize = .error exc)
    (hexc : exc.isFetchOrParse = true) :
    loop.turn s = .ok (.stop (loop.failed exc { s with pagesAttempted := s.pagesAttempted + 1 })) := by
  unfold turn
  simp only [hpage, hexc, if_true]

/-- A page that was answered is collected, and the loop may end. -/
theorem turn_of_answered {s : PageState} {result : ListResult π}
    (hpage : loop.answers.listPage (s.pagesAttempted + 1) s.position loop.pageSize = .ok result) :
    loop.turn s = (loop.collect result { s with pagesAttempted := s.pagesAttempted + 1 }).map
      (loop.settle result) := by
  unfold turn
  simp only [hpage]

/-- A turn that does not raise either fails a page or collects one. -/
theorem turn_ok {s : PageState} {next : Turn PageState} (h : loop.turn s = .ok next) :
    (∃ exc, loop.answers.listPage (s.pagesAttempted + 1) s.position loop.pageSize = .error exc ∧
        exc.isFetchOrParse = true) ∨
      ∃ result s', loop.collect result { s with pagesAttempted := s.pagesAttempted + 1 } = .ok s' ∧
        next = loop.settle result s' := by
  unfold turn at h
  dsimp only at h
  cases hpage : loop.answers.listPage (s.pagesAttempted + 1) s.position loop.pageSize with
  | error exc =>
    rw [hpage] at h
    dsimp only at h
    split at h
    · next hexc => exact .inl ⟨exc, rfl, hexc⟩
    · cases h
  | ok result =>
    rw [hpage] at h
    obtain ⟨s', hcollect, rfl⟩ := ok_map_iff.mp h
    exact .inr ⟨result, s', hcollect, rfl⟩

/-- The loop goes on only after a page it collected. -/
theorem turn_next {s s' : PageState} (h : loop.turn s = .ok (.next s')) :
    s'.pagesAttempted = s.pagesAttempted + 1 ∧ s'.pagesFailed = s.pagesFailed ∧
      s'.challenge = s.challenge ∧ s'.stopReason = s.stopReason ∧
      (loop.Enriched s → loop.Enriched s') := by
  rcases turn_ok h with ⟨exc, hpage, hexc⟩ | ⟨result, s₁, hcollect, hnext⟩
  · rw [turn_of_fails hpage hexc] at h
    cases h
  · obtain ⟨hattempted, hfailed, hchallenge, hreason, -, henriched⟩ := collect_ok hcollect
    unfold settle at hnext
    split at hnext
    · cases hnext
    · split at hnext
      · cases hnext
      · cases hnext
        exact ⟨hattempted, hfailed, hchallenge, hreason, henriched⟩

/-- What the test of the loop says. -/
theorem test_iff {s : PageState} : loop.pages.test s = true ↔
    (s.collected.length : ℤ) < loop.targetLimit ∧ s.pagesAttempted < loop.maxPages := by
  unfold pages
  simp only [Bool.and_eq_true, decide_eq_true_eq]

/-- Every turn uses up a page. -/
theorem pages_lowersRank : loop.pages.LowersRank fun s => loop.maxPages - s.pagesAttempted := by
  intro s htest
  have hlt := (test_iff.mp htest).2
  dsimp only
  refine ⟨by omega, fun s' hturn => ?_⟩
  have hattempted := (turn_next hturn).1
  omega

/-- Before a page is asked for, no page has failed. -/
theorem undisturbed_of_reaches {s : PageState} (h : loop.pages.Reaches loop.init s) :
    Undisturbed s ∧ loop.Enriched s := by
  refine h.inv (I := fun s => Undisturbed s ∧ loop.Enriched s) ?_ ?_
  · exact ⟨⟨rfl, rfl, List.mem_cons_self⟩, [], rfl⟩
  · rintro s s' ⟨hs, henriched⟩ - hturn
    obtain ⟨-, hfailed, hchallenge, hreason, hkeeps⟩ := turn_next hturn
    exact ⟨⟨hfailed.trans hs.pagesFailed, hchallenge.trans hs.challenge, hreason ▸ hs.stopReason⟩,
      hkeeps henriched⟩

/-- The rank of the first state is the number of pages. -/
theorem rank_init : loop.maxPages - loop.init.pagesAttempted ≤ loop.maxPages := Nat.sub_le _ _

/-- A loop with a failing page returns what it collected before, with one failed page. -/
theorem run_of_pageFails (h : loop.PageFails) :
    ∃ s exc, loop.run = .ok s ∧ exc.isFetchOrParse = true ∧ s.pagesFailed = 1 ∧
      s.stopReason =
        ((loop.challenge exc).map ChallengeReason.text).getD (stopReasonFromException exc) ∧
      loop.Enriched s := by
  obtain ⟨s, exc, hreach, htest, hpage, hexc⟩ := h
  obtain ⟨hs, henriched⟩ := undisturbed_of_reaches hreach
  have hrun : loop.run = .ok _ :=
    While.run_eq_of_ends pages_lowersRank rank_init hreach (.stop htest (turn_of_fails hpage hexc))
  refine ⟨_, exc, hrun, hexc, ?_, rfl, henriched⟩
  change s.pagesFailed + 1 = 1
  rw [hs.pagesFailed]

/-- Settling after a page leaves a state without a failed page. -/
theorem settle_stop {result : ListResult π} {s s' : PageState}
    (h : loop.settle result s = .stop s') (hs : Undisturbed s) (henriched : loop.Enriched s) :
    Undisturbed s' ∧ loop.Enriched s' := by
  unfold settle at h
  split at h
  · cases h
    exact ⟨⟨hs.pagesFailed, hs.challenge, List.mem_cons_self⟩, henriched⟩
  · split at h
    · cases h
      have hreason : "source_exhausted" ∈ regularStopReasons := by decide
      exact ⟨⟨hs.pagesFailed, hs.challenge, hreason⟩, henriched⟩
    · cases h

/-- A loop without a failing page that returns has no failed page to report. -/
theorem run_of_not_pageFails (h : ¬ loop.PageFails) {s : PageState} (hrun : loop.run = .ok s) :
    Undisturbed s ∧ loop.Enriched s := by
  obtain ⟨s', hreach, hends⟩ := While.exists_ends pages_lowersRank loop.maxPages loop.init rank_init
  obtain ⟨hs', henriched⟩ := undisturbed_of_reaches hreach
  change loop.pages.Ends s' loop.run at hends
  rw [hrun] at hends
  cases hends with
  | stop htest hturn =>
    rcases turn_ok hturn with ⟨exc, hpage, hexc⟩ | ⟨result, s₁, hcollect, hstop⟩
    · exact absurd ⟨s', exc, hreach, htest, hpage, hexc⟩ h
    · obtain ⟨-, hfailed, hchallenge, hreason, -, hkeeps⟩ := collect_ok hcollect
      have hs₁ : Undisturbed s₁ :=
        ⟨hfailed.trans hs'.pagesFailed, hchallenge.trans hs'.challenge, hreason ▸ hs'.stopReason⟩
      exact settle_stop hstop.symm hs₁ (hkeeps henriched)
  | exit htest =>
    change Undisturbed (if _ then _ else _) ∧ loop.Enriched (if _ then _ else _)
    split
    · have hreason : "max_pages_reached" ∈ regularStopReasons := by decide
      exact ⟨⟨hs'.pagesFailed, hs'.challenge, hreason⟩, henriched⟩
    · exact ⟨hs', henriched⟩

end PageLoop

/-! ### How a fetcher ends -/

/-- A stop reason read off an exception is never one of a regular end. -/
theorem stopReasonFromException_not_regular (exc : PyException) :
    stopReasonFromException exc ∉ regularStopReasons := by
  unfold stopReasonFromException
  split
  · decide
  · split
    · decide
    · split
      · repeat' split
        all_goals decide
      · decide
  · decide

/-- A challenge is never a regular end. -/
theorem challengeReason_not_regular (reason : ChallengeReason) :
    reason.text ∉ regularStopReasons := by
  cases reason <;> decide

/-- What a fetcher returns: one failed page and its stop reason when a page fails, a regular end
    otherwise, and in both cases enriched list jobs. -/
structure FetchSpec (platform : SourcePlatform) (pageFails : Prop)
    (outcome : Except PyException PageState) : Prop where
  fails : pageFails → ∃ s, outcome = .ok s ∧ s.pagesFailed = 1 ∧ s.stopReason ∉ regularStopReasons
  regular : ¬ pageFails → ∀ s, outcome = .ok s → PageLoop.Undisturbed s
  enriched : ∀ s, outcome = .ok s → ∃ entries : List (RawSourceJob × DetailAnswer),
    entries.mapM (fun entry => enrichJob platform entry.2 entry.1) = .ok s.collected

theorem PageLoop.fetchSpec {π : Type} (loop : PageLoop π) :
    FetchSpec loop.platform loop.PageFails loop.run where
  fails h := by
    obtain ⟨s, exc, hrun, -, hfailed, hreason, -⟩ := run_of_pageFails h
    refine ⟨s, hrun, hfailed, ?_⟩
    rw [hreason]
    cases loop.challenge exc with
    | none => exact stopReasonFromException_not_regular exc
    | some reason => exact challengeReason_not_regular reason
  regular h _ hrun := (run_of_not_pageFails h hrun).1
  enriched s hrun := by
    by_cases h : loop.PageFails
    · obtain ⟨s', -, hrun', -, -, -, henriched⟩ := run_of_pageFails h
      rw [hrun] at hrun'
      cases hrun'
      exact henriched
    · exact (run_of_not_pageFails h hrun).2

namespace SourceFeed

variable (settings : ScraperSettings) (limit : ℤ)

/-- A page the fetcher asks for fails. -/
def PageFails : SourceFeed → Prop
  | .dealls answers => (deallsLoop settings limit answers).PageFails
  | .glints answers => (glintsLoop settings limit answers).PageFails
  | .jobstreet answers =>
    strip (settings.jobstreetBearerToken.getD "") ≠ "" ∧
      (jobstreetLoop settings limit answers).PageFails
  | .kalibrr answers => (kalibrrLoop settings limit answers).PageFails
  | .kitalulus answers => (kitalulusLoop settings limit answers).PageFails

theorem fetchSpec (feed : SourceFeed) : FetchSpec feed.platform (feed.PageFails settings limit)
    (feed.fetchPages settings limit) := by
  cases feed with
  | dealls answers => exact (deallsLoop settings limit answers).fetchSpec
  | glints answers => exact (glintsLoop settings limit answers).fetchSpec
  | jobstreet answers =>
    have hspec : FetchSpec .jobstreet (jobstreetLoop settings limit answers).PageFails
        (jobstreetLoop settings limit answers).run :=
      (jobstreetLoop settings limit answers).fetchSpec
    unfold fetchPages PageFails
    dsimp only
    split
    · next hblank =>
      exact ⟨fun h => absurd hblank h.1, fun _ _ h => absurd h nofun, fun _ h => absurd h nofun⟩
    · next htoken =>
      exact ⟨fun h => hspec.fails h.2, fun h => hspec.regular fun hfails => h ⟨htoken, hfails⟩,
        hspec.enriched⟩
  | kalibrr answers => exact (kalibrrLoop settings limit answers).fetchSpec
  | kitalulus answers => exact (kitalulusLoop settings limit answers).fetchSpec

end SourceFeed

end Bisakerja
