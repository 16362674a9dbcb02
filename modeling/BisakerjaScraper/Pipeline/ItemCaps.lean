import BisakerjaScraper.Pipeline.PageAccounts
import BisakerjaScraper.Pipeline.RunStatus
import Mathlib.Algebra.BigOperators.Fin
import Mathlib.Algebra.Order.BigOperators.Group.Finset

/-! The caps on the jobs of a run.

    A fetcher stops asking for pages when it has its target, the least of the limit and the two
    caps, but it takes each page as a whole, and what it returns is cut at the limit alone. Each
    keyword has its own fetcher, so the cap of a source run is counted anew for each. -/

namespace Bisakerja
open Schemes

/-! ### One page loop -/

namespace PageLoop

variable {π : Type} (loop : PageLoop π)

/-- A page that is asked for brings more new jobs than are missing to the target. -/
def Overshoots : Prop :=
  ∃ s result, loop.pages.Reaches loop.init s ∧ loop.pages.test s = true ∧
    loop.answers.listPage (s.pagesAttempted + 1) s.position loop.pageSize = .ok result ∧
    loop.targetLimit < s.collected.length +
      (dedupeNewJobs result.rawJobs s.seenExternalIds).1.length

variable {loop} {result : ListResult π} {s s' : PageState}

/-- A collected page adds its new jobs. -/
theorem length_collect (h : loop.collect result s = .ok s') : s'.collected.length
    = s.collected.length + (dedupeNewJobs result.rawJobs s.seenExternalIds).1.length := by
  unfold PageLoop.collect at h
  obtain ⟨enriched, henriched, rfl⟩ := ok_map_iff.mp h
  change (s.collected ++ enriched).length = _
  rw [List.length_append, length_of_mapM_ok henriched]

/-- Before a page is asked for, the target is not passed. -/
theorem collected_le_of_reaches (htarget : 0 ≤ loop.targetLimit)
    (h : loop.pages.Reaches loop.init s) : (s.collected.length : ℤ) ≤ loop.targetLimit := by
  refine h.inv (I := fun s => (s.collected.length : ℤ) ≤ loop.targetLimit) htarget ?_
  intro s s' _ _ hturn
  change loop.turn s = _ at hturn
  rcases turn_ok hturn with ⟨exc, hpage, hexc⟩ | ⟨result, s₁, -, hsettle⟩
  · rw [turn_of_fails hpage hexc] at hturn
    cases hturn
  · unfold settle at hsettle
    split at hsettle
    · cases hsettle
    · next hshort =>
      split at hsettle
      · cases hsettle
      · cases hsettle
        exact (not_le.mp hshort).le

/-- What a loop returns keeps to the target exactly when no page overshoots it. -/
theorem collected_le_iff (htarget : 0 ≤ loop.targetLimit) (hrun : loop.run = .ok s) :
    (s.collected.length : ℤ) ≤ loop.targetLimit ↔ ¬ loop.Overshoots := by
  constructor
  · rintro hle ⟨s₀, result, hreach, htest, hpage, hover⟩
    have hturn := turn_of_answered hpage
    cases hcollect : loop.collect result { s₀ with pagesAttempted := s₀.pagesAttempted + 1 } with
    | error exc =>
      rw [hcollect] at hturn
      have hraised := While.run_eq_of_ends pages_lowersRank rank_init hreach (.raise htest hturn)
      change loop.run = _ at hraised
      rw [hrun] at hraised
      cases hraised
    | ok s₁ =>
      -- the target is passed, so the loop ends with this page
      have hlength := length_collect hcollect
      dsimp only at hlength
      have hpassed : loop.targetLimit ≤ s₁.collected.length := by omega
      rw [hcollect, Except.map, settle, if_pos hpassed] at hturn
      have hends := While.run_eq_of_ends pages_lowersRank rank_init hreach (.stop htest hturn)
      change loop.run = _ at hends
      rw [hrun] at hends
      cases hends
      dsimp only at hle
      omega
  · intro hnone
    obtain ⟨s₀, hreach, hends⟩ :=
      While.exists_ends pages_lowersRank loop.maxPages loop.init rank_init
    change loop.pages.Ends s₀ loop.run at hends
    rw [hrun] at hends
    have hbefore := collected_le_of_reaches htarget hreach
    cases hends with
    | stop htest hturn =>
      change loop.turn s₀ = _ at hturn
      cases hpage : loop.answers.listPage (s₀.pagesAttempted + 1) s₀.position loop.pageSize with
      | error exc =>
        unfold turn at hturn
        simp only [hpage] at hturn
        split at hturn <;> cases hturn
        exact hbefore
      | ok result =>
        rw [turn_of_answered hpage] at hturn
        obtain ⟨s₁, hcollect, hsettle⟩ := ok_map_iff.mp hturn
        have hfits : (s₁.collected.length : ℤ) ≤ loop.targetLimit := by
          rw [length_collect hcollect]
          by_contra hover
          exact hnone ⟨s₀, result, hreach, htest, hpage, by push_cast at hover; omega⟩
        unfold settle at hsettle
        split at hsettle
        · cases hsettle
          exact hfits
        · split at hsettle <;> cases hsettle
          exact hfits
    | exit htest =>
      change ((if _ then _ else _ : PageState).collected.length : ℤ) ≤ _
      split <;> exact hbefore

end PageLoop

/-! ### One fetch -/

/-- The number of different jobs on the pages a source answers with. -/
def distinctJobs (answers : List (Except PyException (List RawSourceJob))) : ℕ :=
  ((parsedRows answers).map RawSourceJob.externalId).dedup.length

/-- A loop collects each job of its pages once. -/
theorem PageTally.length_collected {answers : List (Except PyException (List RawSourceJob))}
    {s : PageState} (h : PageTally answers s) : s.collected.length = distinctJobs answers := by
  have hmem : ∀ id, id ∈ s.collected.map RawSourceJob.externalId ↔
      id ∈ ((parsedRows answers).map RawSourceJob.externalId).dedup := by
    intro id
    rw [List.mem_dedup]
    refine ⟨fun hid => h.order.subset hid, fun hid => ?_⟩
    obtain ⟨row, hrow, rfl⟩ := List.mem_map.mp hid
    exact h.kept row hrow
  have hperm := (List.perm_ext_iff_of_nodup h.distinct (List.nodup_dedup _)).mpr hmem
  have hlength := hperm.length_eq
  rwa [List.length_map] at hlength

namespace SourceFeed

variable {settings : ScraperSettings} {limit : ℤ} {s : PageState}

/-- A page that the fetcher asks for brings more new jobs than are missing to its target. -/
def Overshoots (settings : ScraperSettings) (limit : ℤ) : SourceFeed → Prop
  | .dealls answers => (deallsLoop settings limit answers).Overshoots
  | .glints answers => (glintsLoop settings limit answers).Overshoots
  | .jobstreet answers => (jobstreetLoop settings limit answers).Overshoots
  | .kalibrr answers => (kalibrrLoop settings limit answers).Overshoots
  | .kitalulus answers => (kitalulusLoop settings limit answers).Overshoots

/-- A fetcher that returns keeps to its target exactly when no page overshoots it. -/
theorem collected_le_iff (feed : SourceFeed) (htarget : 0 ≤ settings.targetLimit limit)
    (h : feed.fetchPages settings limit = .ok s) :
    (s.collected.length : ℤ) ≤ settings.targetLimit limit ↔ ¬ feed.Overshoots settings limit := by
  cases feed with
  | dealls answers => exact PageLoop.collected_le_iff htarget h
  | glints answers => exact PageLoop.collected_le_iff htarget h
  | jobstreet answers =>
    unfold fetchPages at h
    dsimp only at h
    split at h
    · cases h
    · exact PageLoop.collected_le_iff htarget h
  | kalibrr answers => exact PageLoop.collected_le_iff htarget h
  | kitalulus answers => exact PageLoop.collected_le_iff htarget h

/-- A fetcher that returns has collected the different jobs of its pages. -/
theorem length_collected (feed : SourceFeed) (h : feed.fetchPages settings limit = .ok s) :
    s.collected.length = distinctJobs (feed.pageAnswers settings limit) := by
  cases feed with
  | dealls answers => exact (PageLoop.accounted_of_run h).length_collected
  | glints answers => exact (PageLoop.accounted_of_run h).length_collected
  | jobstreet answers =>
    unfold fetchPages at h
    dsimp only at h
    split at h
    · cases h
    · exact (PageLoop.accounted_of_run h).length_collected
  | kalibrr answers => exact (PageLoop.accounted_of_run h).length_collected
  | kitalulus answers => exact (PageLoop.accounted_of_run h).length_collected

end SourceFeed

/-- A fetch with a limit returns so many of the jobs. -/
theorem LivePipelineSource.length_fetchRawJobs {live : LivePipelineSource} {dates : DateText}
    {fetched : PaginatedFetchResult} {jobs : List LiveRawJob} (hlimit : 0 ≤ live.requestedLimit)
    (h : live.fetchRawJobs dates fetched = .ok jobs) :
    (jobs.length : ℤ) = min live.requestedLimit fetched.rawJobs.length := by
  unfold LivePipelineSource.fetchRawJobs at h
  dsimp only at h
  have hlength := length_of_mapM_ok h
  rw [sliceTo, if_pos hlimit, List.length_take] at hlength
  omega

/-! ### The fetches of a run -/

namespace ScrapeRun

variable {n : ℕ} (run : ScrapeRun n)

/-- What a source returns to a run once its fetcher is done, if no exception leaves it. -/
def returnedJobs (i : Fin n) (outcome : Except PyException PaginatedFetchResult) :
    Option (List LiveRawJob) :=
  (outcome.bind ((run.sources i).live.fetchRawJobs run.env.dates)).toOption

/-- The number of jobs a task has fetched. -/
def taskJobs (i : Fin n) : SourceTask → ℕ
  | .fetched _ outcome => ((run.returnedJobs i outcome).getD []).length
  | .done _ outcome _ _ => ((run.returnedJobs i outcome).getD []).length
  | _ => 0

/-- The number of jobs a source brings when no challenge is remembered. -/
def jobsBrought (i : Fin n) : ℕ := run.taskJobs i (.fetched false (run.outcome i))

/-- The number of jobs of a platform that are fetched in a state. -/
def platformJobs (s : ScrapeState n) (platform : SourcePlatform) : ℕ :=
  ∑ i with (run.sources i).live.platform = platform, run.taskJobs i (s.tasks i)

variable {run} {s : ScrapeState n} {i : Fin n}

theorem taskJobs_blocked (challenge : ChallengeState) (blocked : Bool) :
    run.taskJobs i (.fetched blocked (.ok challenge.blockedResult)) = 0 := by
  have hreturned : run.returnedJobs i (.ok challenge.blockedResult) = some [] := by
    change ((run.sources i).live.fetchRawJobs run.env.dates challenge.blockedResult).toOption = _
    rw [ScrapeSource.fetchRawJobs_blockedResult]
    rfl
  rw [taskJobs, hreturned]
  rfl

/-- A task moves alone. -/
theorem tasks_advance_of_ne {j : Fin n} (h : j ≠ i) : (run.advance s i).tasks j = s.tasks j := by
  unfold advance
  repeat' split
  all_goals first | rfl | exact Function.update_of_ne h _ _

/-- A fetch that is done hands over what the page loop returns. -/
theorem tasks_advance_fetching (h : s.tasks i = .fetching) :
    (run.advance s i).tasks i = .fetched false (run.outcome i) := by
  unfold advance outcome
  simp only [h]
  cases (run.sources i).feed.fetchPages run.env.settings
      (run.sources i).live.requestedLimit <;> exact Function.update_self i _ s.tasks

/-- No step makes a task bring more than its page loop does. -/
theorem taskJobs_advance (h : ∀ j, run.taskJobs j (s.tasks j) ≤ run.jobsBrought j) (i j : Fin n) :
    run.taskJobs j ((run.advance s i).tasks j) ≤ run.jobsBrought j := by
  by_cases hj : j = i
  · subst hj
    cases htask : s.tasks j with
    | waiting =>
      unfold advance
      simp only [htask]
      split
      · change run.taskJobs j (Function.update s.tasks j _ j) ≤ _
        rw [Function.update_self, taskJobs_blocked]
        exact Nat.zero_le _
      · change run.taskJobs j (Function.update s.tasks j _ j) ≤ _
        rw [Function.update_self]
        exact Nat.zero_le _
    | fetching =>
      rw [tasks_advance_fetching htask]
      exact Nat.le_refl _
    | fetched blocked outcome =>
      have hbefore := h j
      rw [htask] at hbefore
      unfold advance
      simp only [htask]
      change run.taskJobs j (Function.update s.tasks j _ j) ≤ _
      rw [Function.update_self]
      exact hbefore
    | done blocked outcome result raised =>
      unfold advance
      simp only [htask]
      exact htask ▸ h j
  · rw [tasks_advance_of_ne hj]
    exact h j

/-- Under any schedule a source brings at most what its page loop does. -/
theorem taskJobs_execute_le (schedule : List (Fin n)) (i : Fin n) :
    run.taskJobs i ((run.execute schedule).tasks i) ≤ run.jobsBrought i := by
  have hstart : ∀ j, run.taskJobs j (run.start.tasks j) ≤ run.jobsBrought j :=
    fun j => Nat.zero_le _
  exact List.foldlRecOn (motive := fun s => ∀ j, run.taskJobs j (s.tasks j) ≤ run.jobsBrought j)
    schedule run.advance hstart (fun s h i _ => taskJobs_advance h i) i

/-- A round over some tasks moves each of them once. -/
theorem tasks_round (C : ScrapeState n → Prop) (before after : Fin n → SourceTask)
    (hstep : ∀ s i, C s → s.tasks i = before i →
      C (run.advance s i) ∧ (run.advance s i).tasks i = after i)
    (round : List (Fin n)) (s : ScrapeState n) (hs : C s) (hnodup : round.Nodup)
    (hbefore : ∀ i ∈ round, s.tasks i = before i) :
    C (round.foldl run.advance s) ∧ (∀ i ∈ round, (round.foldl run.advance s).tasks i = after i) ∧
      ∀ i ∉ round, (round.foldl run.advance s).tasks i = s.tasks i := by
  induction round generalizing s with
  | nil => exact ⟨hs, nofun, fun _ _ => rfl⟩
  | cons i round ih =>
    obtain ⟨hi, hround⟩ := List.nodup_cons.mp hnodup
    obtain ⟨hfirst, hmore⟩ := List.forall_mem_cons.mp hbefore
    obtain ⟨hnext, hafter⟩ := hstep s i hs hfirst
    have hothers : ∀ j ∈ round, (run.advance s i).tasks j = before j := by
      intro j hj
      have hne : j ≠ i := fun heq => hi (heq ▸ hj)
      rw [tasks_advance_of_ne hne, hmore j hj]
    obtain ⟨hlast, hmoved, hstay⟩ := ih (run.advance s i) hnext hround hothers
    rw [List.foldl_cons]
    refine ⟨hlast, List.forall_mem_cons.mpr ⟨(hstay i hi).trans hafter, hmoved⟩, fun j hj => ?_⟩
    obtain ⟨hne, hj⟩ := not_or.mp (List.mem_cons.not.mp hj)
    rw [hstay j hj, tasks_advance_of_ne hne]

/-- Every source begins before any has an answer, and then each has its answers. -/
def atOnce (n : ℕ) : List (Fin n) := List.finRange n ++ List.finRange n

/-- When all sources begin at once, each brings what its page loop does. -/
theorem tasks_atOnce (hblocked : run.challenge.blocked = false) (i : Fin n) :
    (run.execute (atOnce n)).tasks i = .fetched false (run.outcome i) := by
  have hbegin : ∀ (s : ScrapeState n) i, s.challenge.blocked = false → s.tasks i = .waiting →
      (run.advance s i).challenge.blocked = false ∧ (run.advance s i).tasks i = .fetching := by
    intro s i hs htask
    have hadvance : run.advance s i = s.setTask i .fetching := by
      unfold advance
      simp [htask, hs]
    rw [hadvance]
    exact ⟨hs, Function.update_self i _ s.tasks⟩
  obtain ⟨-, hfetching, -⟩ := tasks_round (fun s => s.challenge.blocked = false)
    (fun _ => .waiting) (fun _ => .fetching) hbegin (List.finRange n) run.start hblocked
    (List.nodup_finRange n) fun _ _ => rfl
  obtain ⟨-, hfetched, -⟩ := tasks_round (fun _ => True) (fun _ => .fetching)
    (fun i => .fetched false (run.outcome i))
    (fun s i _ htask => ⟨trivial, tasks_advance_fetching htask⟩) (List.finRange n) _ trivial
    (List.nodup_finRange n) hfetching
  rw [execute, atOnce, List.foldl_append]
  exact hfetched i (List.mem_finRange i)

end ScrapeRun

/-! ### The live sources -/

/-- `live_sources`: a source for each platform and keyword. -/
def liveSources (selectedPlatforms : List SourcePlatform) (keywords : List String) (limit : ℤ)
    (recencyMode : String) (recencyDays : ℤ) : List LivePipelineSource :=
  selectedPlatforms.flatMap fun platform => keywords.map fun keyword =>
    { platform, keyword, requestedLimit := limit, recencyMode, recencyDays }

/-- A scrape run of live sources. The limit and the caps are positive, as their checks ask. -/
structure LiveRun (n : ℕ) extends ScrapeRun n where
  selectedPlatforms : List SourcePlatform
  keywords : List String
  limit : ℤ
  recencyMode : String
  recencyDays : ℤ
  built : List.ofFn (fun i => (sources i).live)
    = liveSources selectedPlatforms keywords limit recencyMode recencyDays
  unblocked : challenge.blocked = false
  limit_pos : 0 < limit
  perKeyword_pos : 0 < env.settings.scraperMaxItemsPerKeyword
  perSourceRun_pos : 0 < env.settings.scraperMaxItemsPerSourceRun

namespace LiveRun

variable {n : ℕ} (run : LiveRun n)

/-- The configured caps hold in a state of the run. -/
structure CapsHold (s : ScrapeState n) : Prop where
  perFetch : ∀ i, (run.taskJobs i (s.tasks i) : ℤ) ≤ min run.limit
    (min run.env.settings.scraperMaxItemsPerKeyword run.env.settings.scraperMaxItemsPerSourceRun)
  perPlatform : ∀ platform,
    (run.platformJobs s platform : ℤ) ≤ run.env.settings.scraperMaxItemsPerSourceRun

/-- The source returns its jobs unless a challenge stops it. -/
def Returns (i : Fin n) : Prop := (run.returnedJobs i (run.outcome i)).isSome = true

instance : DecidablePred run.Returns := fun _ => inferInstanceAs (Decidable (_ = true))

/-- The different jobs on the pages that a source answers with, as far as the limit goes. -/
def jobsAnswered (i : Fin n) : ℤ :=
  min run.limit (distinctJobs ((run.sources i).feed.pageAnswers run.env.settings run.limit))

/-- The limit is below the caps or no page overshoots the target, and the keywords of a platform
    together are answered with no more jobs than the cap of a source run. -/
structure WithinCaps : Prop where
  perFetch : ∀ i, run.Returns i →
    run.limit ≤ min run.env.settings.scraperMaxItemsPerKeyword
        run.env.settings.scraperMaxItemsPerSourceRun ∨
      ¬ (run.sources i).feed.Overshoots run.env.settings run.limit
  perPlatform : ∀ platform,
    ∑ i with (run.sources i).live.platform = platform ∧ run.Returns i, run.jobsAnswered i
      ≤ run.env.settings.scraperMaxItemsPerSourceRun

variable {run}

/-- Every source is asked for the same number of jobs. -/
theorem requestedLimit_sources (run : LiveRun n) (i : Fin n) :
    (run.sources i).live.requestedLimit = run.limit := by
  have hmem : (run.sources i).live ∈ List.ofFn fun i => (run.sources i).live :=
    List.mem_ofFn.mpr ⟨i, rfl⟩
  rw [run.built, liveSources] at hmem
  obtain ⟨platform, -, hmem⟩ := List.mem_flatMap.mp hmem
  obtain ⟨keyword, -, heq⟩ := List.mem_map.mp hmem
  rw [← heq]

/-- The target of a fetcher is positive. -/
theorem targetLimit_nonneg (run : LiveRun n) : 0 ≤ run.env.settings.targetLimit run.limit :=
  le_min run.limit_pos.le (le_min run.perKeyword_pos.le run.perSourceRun_pos.le)

/-- A source that returns has read its pages to the end. -/
theorem exists_pages_of_returns {i : Fin n} (h : run.Returns i) : ∃ pages,
    (run.sources i).feed.fetchPages run.env.settings run.limit = .ok pages ∧
      (run.jobsBrought i : ℤ) = min run.limit pages.collected.length := by
  obtain ⟨jobs, hjobs⟩ := Option.isSome_iff_exists.mp h
  have hbrought : run.jobsBrought i = jobs.length := by
    rw [ScrapeRun.jobsBrought, ScrapeRun.taskJobs, hjobs, Option.getD_some]
  have hreturned : (run.outcome i).bind ((run.sources i).live.fetchRawJobs run.env.dates)
      = .ok jobs := by
    unfold ScrapeRun.returnedJobs at hjobs
    revert hjobs
    cases (run.outcome i).bind ((run.sources i).live.fetchRawJobs run.env.dates) <;>
      simp [Except.toOption]
  obtain ⟨fetched, hfetched, hlive⟩ := ok_bind_iff.mp hreturned
  obtain ⟨pages, hpages, rfl⟩ := ok_map_iff.mp hfetched
  rw [requestedLimit_sources run] at hpages
  refine ⟨pages, hpages, ?_⟩
  have hlimit := requestedLimit_sources run i
  rw [hbrought, LivePipelineSource.length_fetchRawJobs (hlimit ▸ run.limit_pos.le) hlive, hlimit]
  rfl

/-- A source brings the jobs it is answered with, or none. -/
theorem jobsBrought_eq (i : Fin n) :
    (run.jobsBrought i : ℤ) = if run.Returns i then run.jobsAnswered i else 0 := by
  split
  · next hreturns =>
    obtain ⟨pages, hpages, hbrought⟩ := exists_pages_of_returns hreturns
    rw [hbrought, SourceFeed.length_collected _ hpages]
    rfl
  · next hraises =>
    have hnone : run.returnedJobs i (run.outcome i) = none :=
      Option.not_isSome_iff_eq_none.mp hraises
    rw [ScrapeRun.jobsBrought, ScrapeRun.taskJobs, hnone]
    rfl

/-- The jobs that the sources of a platform bring. -/
theorem sum_jobsBrought (platform : SourcePlatform) :
    ((∑ i with (run.sources i).live.platform = platform, run.jobsBrought i : ℕ) : ℤ)
      = ∑ i with (run.sources i).live.platform = platform ∧ run.Returns i, run.jobsAnswered i := by
  rw [Nat.cast_sum, ← Finset.filter_filter, Finset.sum_filter run.Returns]
  exact Finset.sum_congr rfl fun i _ => jobsBrought_eq i

/-- The caps hold under every schedule exactly when they hold for what the sources bring. -/
theorem capsHold_execute_iff : (∀ schedule, run.CapsHold (run.execute schedule)) ↔
    (∀ i, (run.jobsBrought i : ℤ) ≤ run.env.settings.targetLimit run.limit) ∧
      ∀ platform, ((∑ i with (run.sources i).live.platform = platform, run.jobsBrought i : ℕ) : ℤ)
        ≤ run.env.settings.scraperMaxItemsPerSourceRun := by
  constructor
  · intro hall
    have hcaps := hall (ScrapeRun.atOnce n)
    have hbrought : ∀ i, run.taskJobs i ((run.execute (ScrapeRun.atOnce n)).tasks i)
        = run.jobsBrought i := fun i => by
      rw [ScrapeRun.tasks_atOnce run.unblocked]
      rfl
    refine ⟨fun i => hbrought i ▸ hcaps.perFetch i, fun platform => ?_⟩
    have hplatform := hcaps.perPlatform platform
    rwa [ScrapeRun.platformJobs, Finset.sum_congr rfl fun i _ => hbrought i] at hplatform
  · rintro ⟨hfetch, hplatform⟩ schedule
    have hle : ∀ i, run.taskJobs i ((run.execute schedule).tasks i) ≤ run.jobsBrought i :=
      ScrapeRun.taskJobs_execute_le schedule
    refine ⟨fun i => (Int.ofNat_le.mpr (hle i)).trans (hfetch i), fun platform => ?_⟩
    refine (Int.ofNat_le.mpr ?_).trans (hplatform platform)
    exact Finset.sum_le_sum fun i _ => hle i

end LiveRun

/-! ### Two keywords -/

/-- Settings for three jobs a keyword, three jobs a run and pages of two jobs. -/
def threeJobs : ScraperSettings :=
  { smallSettings with
    scraperMaxItemsPerKeyword := 3, scraperMaxItemsPerSourceRun := 3, glintsPageSize := 2 }

/-- A Glints job. -/
def listedGlints (id : String) : RawSourceJob where
  sourcePlatform := "glints"
  externalId := id
  sourceUrl := "https://glints.com/id/opportunities/jobs/" ++ id
  rawPayload := []

/-- Glints with two pages of two jobs and more behind them. -/
def twoAPage (front : String) : SourceFeed :=
  .glints
    { listPage := fun page _ _ => .ok
        { pagination := { hasMore := true }
          rawJobs := if page = 1 then [listedGlints (front ++ "1"), listedGlints (front ++ "2")]
            else [listedGlints (front ++ "3"), listedGlints (front ++ "4")] }
      detail := fun _ _ => notFound }

/-- The keywords of the run. -/
def twoKeywords : List String := ["backend", "frontend"]

/-- A run of Glints over two keywords with a limit of ten. -/
def glintsRun : LiveRun 2 where
  env :=
    { host := tallyHost, hash := plainHash, isoformat := fun _ => "", dates := mayDates
      settings := threeJobs, runId := "run" }
  sources i :=
    { live := { maySource .glints with keyword := twoKeywords.get i, requestedLimit := 10 }
      feed := twoAPage (twoKeywords.get i), samePlatform := rfl }
  tables := { rawJobs := Table.empty RawJob.id, normalizedJobs := Table.empty NormalizedJob.id }
  selectedPlatforms := [.glints]
  keywords := twoKeywords
  limit := 10
  recencyMode := "recent"
  recencyDays := 7
  built := rfl
  unblocked := rfl
  limit_pos := by decide
  perKeyword_pos := by decide
  perSourceRun_pos := by decide

end Bisakerja
