import BisakerjaScraper.Pipeline.PageAccounts
import BisakerjaScraper.Pipeline.SourceBodies

/-! What becomes of the earlier pages when a page fails.

    A fetcher returns the jobs of the earlier pages unless a turn raises, and a turn raises where its
    page, or the detail of one of its new jobs, is broken. -/

namespace Bisakerja
open Schemes

namespace PageLoop

variable {π : Type} (loop : PageLoop π)

/-- The page that is asked for fails: its answer is an exception, or a job of it cannot be
    enriched. -/
def PageLost (s : PageState) : Prop :=
  loop.pages.test s = true ∧
    ((∃ exc, loop.answers.listPage (s.pagesAttempted + 1) s.position loop.pageSize = .error exc) ∨
      ∃ exc, loop.turn s = .error exc)

/-- The fetcher returns what it collected before any page after the first; where that page fails,
    it returns that and counts the failure. -/
def KeepsEarlierPages : Prop :=
  ∀ s, loop.pages.Reaches loop.init s → 1 ≤ s.pagesAttempted →
    ∃ s', loop.run = .ok s' ∧ s.collected <+: s'.collected ∧
      (loop.PageLost s → s'.collected = s.collected ∧ 1 ≤ s'.pagesFailed)

/-- A page after the first is asked for and is broken, or the detail of one of its new jobs is. -/
def LaterPageBroken (pageBroken : ℕ → ℤ → ℤ → Prop) (detailBroken : ℕ → RawSourceJob → Prop) :
    Prop :=
  ∃ s, loop.pages.Reaches loop.init s ∧ loop.pages.test s = true ∧ 1 ≤ s.pagesAttempted ∧
    (pageBroken (s.pagesAttempted + 1) s.position loop.pageSize ∨
      ∃ result, loop.answers.listPage (s.pagesAttempted + 1) s.position loop.pageSize = .ok result ∧
        ∃ job ∈ (dedupeNewJobs result.rawJobs s.seenExternalIds).1,
          detailBroken (s.pagesAttempted + 1) job)

variable {loop}

/-- A turn raises where its answer is not caught, or a new job of its page cannot be enriched. -/
theorem turn_raises_iff {s : PageState} : (∃ exc, loop.turn s = .error exc) ↔
    Escapes (loop.answers.listPage (s.pagesAttempted + 1) s.position loop.pageSize) ∨
      ∃ result, loop.answers.listPage (s.pagesAttempted + 1) s.position loop.pageSize = .ok result ∧
        ∃ job ∈ (dedupeNewJobs result.rawJobs s.seenExternalIds).1, ∃ exc,
          enrichJob loop.platform (loop.answers.detail (s.pagesAttempted + 1) job) job
            = .error exc := by
  unfold turn
  dsimp only
  cases hpage : loop.answers.listPage (s.pagesAttempted + 1) s.position loop.pageSize with
  | error exc => by_cases hexc : exc.isFetchOrParse = true <;> simp [hexc]
  | ok result =>
    have hcollect : ∀ s', (∃ exc, (loop.collect result s').map (loop.settle result) = .error exc) ↔
        ∃ exc, (dedupeNewJobs result.rawJobs s'.seenExternalIds).1.mapM (fun job =>
          enrichJob loop.platform (loop.answers.detail s'.pagesAttempted job) job) = .error exc := by
      intro s'
      unfold PageLoop.collect
      dsimp only
      cases (dedupeNewJobs result.rawJobs s'.seenExternalIds).1.mapM fun job =>
        enrichJob loop.platform (loop.answers.detail s'.pagesAttempted job) job <;> simp [Except.map]
    rw [hcollect, error_mapM_iff]
    simp

/-- A collected page adds to what is collected. -/
theorem collected_collect {result : ListResult π} {s s' : PageState}
    (h : loop.collect result s = .ok s') : s.collected <+: s'.collected := by
  unfold PageLoop.collect at h
  obtain ⟨enriched, -, rfl⟩ := ok_map_iff.mp h
  exact List.prefix_append s.collected enriched

/-- A turn adds to what is collected. -/
theorem collected_turn {s s' : PageState}
    (h : loop.turn s = .ok (.next s') ∨ loop.turn s = .ok (.stop s')) :
    s.collected <+: s'.collected := by
  have hadds : ∀ next, loop.turn s = .ok next → ∀ s', next = .next s' ∨ next = .stop s' →
      s.collected <+: s'.collected := by
    intro next hturn s' hnext
    rcases turn_ok hturn with ⟨exc, hpage, hexc⟩ | ⟨result, s₁, hcollect, hsettle⟩
    · rw [turn_of_fails hpage hexc] at hturn
      cases hturn
      rcases hnext with hnext | hnext
      · cases hnext
      · cases hnext
        exact List.prefix_refl _
    · have hfront := collected_collect hcollect
      subst hsettle
      unfold settle at hnext
      split at hnext
      · rcases hnext with hnext | hnext <;> cases hnext
        exact hfront
      · split at hnext <;> rcases hnext with hnext | hnext <;> cases hnext <;> exact hfront
  rcases h with h | h
  · exact hadds _ h s' (.inl rfl)
  · exact hadds _ h s' (.inr rfl)

/-- A loop none of whose later turns raises keeps what the earlier pages gave. -/
theorem keepsEarlierPages_of_no_raise (h : ∀ s, loop.pages.Reaches loop.init s →
    loop.pages.test s = true → 1 ≤ s.pagesAttempted → ∀ exc, loop.turn s ≠ .error exc) :
    loop.KeepsEarlierPages := by
  intro s hreach hattempted
  obtain ⟨turns, hturns, hrun⟩ := While.run_of_reaches pages_lowersRank rank_init hreach
  obtain ⟨last, hlast, hends⟩ := While.exists_ends pages_lowersRank turns s hturns
  have hkept : s.collected <+: last.collected ∧ 1 ≤ last.pagesAttempted := by
    refine hlast.inv (I := fun s' => s.collected <+: s'.collected ∧ 1 ≤ s'.pagesAttempted)
      ⟨List.prefix_refl _, hattempted⟩ ?_
    rintro s₁ s₂ ⟨hfront, -⟩ - hturn
    exact ⟨hfront.trans (collected_turn (.inl hturn)), by simp [(turn_next hturn).1]⟩
  have hreturns : ∃ s', loop.run = .ok s' ∧ s.collected <+: s'.collected := by
    change ∃ s', loop.pages.run loop.maxPages loop.init = .ok s' ∧ _
    rw [hrun]
    generalize loop.pages.run turns s = outcome at hends
    cases hends with
    | stop _ hturn => exact ⟨_, rfl, hkept.1.trans (collected_turn (.inr hturn))⟩
    | raise htest hturn => exact absurd hturn (h last (hreach.trans hlast) htest hkept.2 _)
    | exit _ =>
      refine ⟨_, rfl, ?_⟩
      unfold pages
      dsimp only
      split <;> exact hkept.1
  obtain ⟨s', hreturn, hfront⟩ := hreturns
  refine ⟨s', hreturn, hfront, ?_⟩
  -- the page that fails ends the loop, so what it returns is what the failure leaves
  rintro ⟨htest, ⟨exc, hpage⟩ | ⟨exc, hraise⟩⟩
  · have hexc : exc.isFetchOrParse = true := by
      by_contra hexc
      obtain ⟨exc', hraise⟩ := turn_raises_iff.mpr (.inl ⟨exc, hpage, Bool.eq_false_iff.mpr hexc⟩)
      exact h s hreach htest hattempted exc' hraise
    have hfailed := While.run_eq_of_ends pages_lowersRank rank_init hreach
      (.stop htest (turn_of_fails hpage hexc))
    change loop.run = _ at hfailed
    rw [hreturn] at hfailed
    cases hfailed
    exact ⟨rfl, Nat.le_add_left 1 _⟩
  · exact absurd hraise (h s hreach htest hattempted exc)

/-- A later turn that raises loses what the earlier pages gave. -/
theorem not_keepsEarlierPages_of_raise {s : PageState} {exc : PyException}
    (hreach : loop.pages.Reaches loop.init s) (htest : loop.pages.test s = true)
    (hattempted : 1 ≤ s.pagesAttempted) (hturn : loop.turn s = .error exc) :
    ¬ loop.KeepsEarlierPages := by
  intro hkeeps
  obtain ⟨s', hreturn, -⟩ := hkeeps s hreach hattempted
  have hraises := While.run_eq_of_ends pages_lowersRank rank_init hreach (.raise htest hturn)
  change loop.run = _ at hraises
  rw [hreturn] at hraises
  cases hraises

/-- The earlier pages are kept exactly when no later page is broken. -/
theorem keepsEarlierPages_iff_of_broken {pageBroken : ℕ → ℤ → ℤ → Prop}
    {detailBroken : ℕ → RawSourceJob → Prop}
    (hpage : ∀ n position, Escapes (loop.answers.listPage n position loop.pageSize) ↔
      pageBroken n position loop.pageSize)
    (hdetail : ∀ n position result, loop.answers.listPage n position loop.pageSize = .ok result →
      ∀ job ∈ result.rawJobs, (∃ exc, enrichJob loop.platform (loop.answers.detail n job) job
        = .error exc) ↔ detailBroken n job) :
    loop.KeepsEarlierPages ↔ ¬ loop.LaterPageBroken pageBroken detailBroken := by
  have hbroken : loop.LaterPageBroken pageBroken detailBroken ↔
      ∃ s, loop.pages.Reaches loop.init s ∧ loop.pages.test s = true ∧ 1 ≤ s.pagesAttempted ∧
        ∃ exc, loop.turn s = .error exc := by
    refine exists_congr fun s => and_congr_right fun _ => and_congr_right fun _ =>
      and_congr_right fun _ => ?_
    rw [turn_raises_iff, hpage]
    refine or_congr_right (exists_congr fun result => and_congr_right fun hresult =>
      exists_congr fun job => and_congr_right fun hjob => ?_)
    exact (hdetail _ _ _ hresult job
      ((deduped_dedupeNewJobs result.rawJobs s.seenExternalIds).order.subset hjob)).symm
  rw [hbroken]
  constructor
  · rintro hkeeps ⟨s, hreach, htest, hattempted, exc, hturn⟩
    exact not_keepsEarlierPages_of_raise hreach htest hattempted hturn hkeeps
  · intro hnone
    refine keepsEarlierPages_of_no_raise fun s hreach htest hattempted exc hturn => hnone ?_
    exact ⟨s, hreach, htest, hattempted, exc, hturn⟩

end PageLoop

/-! ### The five fetchers -/

/-- The fetcher keeps the earlier pages. JobStreet asks for no page without its token. -/
def SourceFeed.KeepsEarlierPages (settings : ScraperSettings) (limit : ℤ) : SourceFeed → Prop
  | .dealls answers => (deallsLoop settings limit answers).KeepsEarlierPages
  | .glints answers => (glintsLoop settings limit answers).KeepsEarlierPages
  | .jobstreet answers =>
    strip (settings.jobstreetBearerToken.getD "") ≠ "" →
      (jobstreetLoop settings limit answers).KeepsEarlierPages
  | .kalibrr answers => (kalibrrLoop settings limit answers).KeepsEarlierPages
  | .kitalulus answers => (kitalulusLoop settings limit answers).KeepsEarlierPages

namespace SourceBodies

variable (bodies : SourceBodies) (loads : JsonLoads) (settings : ScraperSettings) (limit : ℤ)

/-- A page after the first, or the detail of a new job on it, is asked for and is broken. -/
def LaterPageBroken : Prop :=
  match (bodies.payloads loads).feed with
  | .dealls answers => (deallsLoop settings limit answers).LaterPageBroken
      (bodies.PageBroken loads) (bodies.DetailBroken loads)
  | .glints answers => (glintsLoop settings limit answers).LaterPageBroken
      (bodies.PageBroken loads) (bodies.DetailBroken loads)
  | .jobstreet answers =>
    strip (settings.jobstreetBearerToken.getD "") ≠ "" ∧
      (jobstreetLoop settings limit answers).LaterPageBroken
        (bodies.PageBroken loads) (bodies.DetailBroken loads)
  | .kalibrr answers => (kalibrrLoop settings limit answers).LaterPageBroken
      (bodies.PageBroken loads) (bodies.DetailBroken loads)
  | .kitalulus answers => (kitalulusLoop settings limit answers).LaterPageBroken
      (bodies.PageBroken loads) (bodies.DetailBroken loads)

variable {bodies loads settings limit}

/-- A fetcher keeps the earlier pages exactly when no later page is broken. -/
theorem keepsEarlierPages_iff : (bodies.payloads loads).feed.KeepsEarlierPages settings limit ↔
    ¬ bodies.LaterPageBroken loads settings limit := by
  have hdetail : ∀ {n : ℕ} {job : RawSourceJob}, job.Accepted bodies.platform →
      ((∃ exc, enrichJob bodies.platform ((bodies.payloads loads).detail n job) job = .error exc) ↔
        bodies.DetailBroken loads n job) :=
    fun haccepted => (enrichJob_error_iff _ haccepted).trans detailEscapes_iff
  obtain ⟨platform, page, home, refreshedHome, refreshedPage, detail⟩ := bodies
  cases platform with
  | dealls =>
    refine PageLoop.keepsEarlierPages_iff_of_broken (fun n position => ?_)
      fun n position result hpage job hjob => hdetail ?_
    · refine escapes_bind_iff.trans ((or_iff_left ?_).trans escapes_requestJson_iff)
      rintro ⟨payload, -, h⟩
      exact not_escapes_parseDeallsListPayload payload h
    · exact SourcePayloads.accepted_of_page parseDeallsListPayload_accepted hpage job hjob
  | glints =>
    refine PageLoop.keepsEarlierPages_iff_of_broken (fun n position => ?_)
      fun n position result hpage job hjob => hdetail ?_
    · exact escapes_bind_iff.trans (or_congr escapes_requestJson_iff
        (exists_congr fun _ => and_congr_right fun _ => escapes_parseGlintsListPayload_iff))
    · exact SourcePayloads.accepted_of_page parseGlintsListPayload_accepted hpage job hjob
  | jobstreet =>
    refine Iff.trans (imp_congr_right fun _ => ?_) not_and.symm
    refine PageLoop.keepsEarlierPages_iff_of_broken (fun n position => ?_)
      fun n position result hpage job hjob => hdetail ?_
    · refine escapes_bind_iff.trans (or_congr ?_
        (exists_congr fun _ => and_congr_right fun _ => escapes_parseJobstreetListPayload_iff))
      exact escapes_bind_iff.trans (or_congr escapes_requestText_iff
        (exists_congr fun _ => and_congr_right fun _ =>
          escapes_jobstreetPayloadFromSearchPage_iff))
    · exact SourcePayloads.accepted_of_page parseJobstreetListPayload_accepted hpage job hjob
  | kalibrr =>
    refine PageLoop.keepsEarlierPages_iff_of_broken (fun n position => ?_)
      fun n position result hpage job hjob => hdetail ?_
    · exact escapes_bind_iff.trans (or_congr escapes_requestKalibrrData_iff
        (exists_congr fun _ => and_congr_right fun _ => escapes_parseKalibrrListPayload_iff))
    · exact SourcePayloads.accepted_of_page parseKalibrrListPayload_accepted hpage job hjob
  | kitalulus =>
    refine PageLoop.keepsEarlierPages_iff_of_broken (fun n position => ?_)
      fun n position result hpage job hjob => hdetail ?_
    · exact escapes_bind_iff.trans (or_congr escapes_requestJson_iff
        (exists_congr fun _ => and_congr_right fun _ => escapes_parseKitalulusListPayload_iff))
    · exact SourcePayloads.accepted_of_page parseKitalulusListPayload_accepted hpage job hjob

end SourceBodies

/-! ### A page without search data -/

/-- The bytes of a text. -/
def utf8 (text : String) : Body := text.toUTF8.data.toList

theorem requestText_utf8 (text : String) : requestText (.ok (utf8 text)) = .ok text := by
  have hread : String.fromUTF8? ⟨text.toUTF8.data⟩ = some text := by
    unfold String.fromUTF8?
    exact dif_pos text.isValidUTF8
  change decodeUtf8 (utf8 text) = _
  unfold decodeUtf8 utf8
  rw [Array.toArray_toList, hread]

/-- The search data of a page with one job of forty. -/
def searchData : String :=
  "\x7b\"results\":\x7b\"results\":\x7b\"jobs\":[\x7b\"id\":\"j1\"\x7d]\x7d,\"totalCount\":40\x7d\x7d"

/-- `json.loads` of the search data. -/
def searchLoads : JsonLoads where
  ofBody _ := .error (.plain "JSONDecodeError" "Expecting value")
  ofText text :=
    if text = searchData then .ok (.dict [("results", .dict [("results", .dict
      [("jobs", .list [.dict [("id", .str "j1")]])]), ("totalCount", .int 40)])])
    else .error (.plain "JSONDecodeError" "Expecting value")

/-- A JobStreet source whose pages have no search data from the second on. -/
def pageWithoutData : SourceBodies where
  platform := .jobstreet
  page n _ _ := .ok (utf8 (if n = 1 then
    "<script>window.SEEK_REDUX_DATA = " ++ searchData ++ ";</script>" else "<html></html>"))
  home := .error timedOut
  refreshedHome _ := .error timedOut
  refreshedPage _ _ _ := .error timedOut
  detail _ _ := .error timedOut

/-- The second page makes the fetcher raise, and the job of the first is lost. -/
theorem not_keepsEarlierPages_pageWithoutData :
    ¬ (pageWithoutData.payloads searchLoads).feed.KeepsEarlierPages fewPages 5 := by
  let loop := jobstreetLoop fewPages 5
    ((pageWithoutData.payloads searchLoads).answers parseJobstreetListPayload)
  have hpayload : ∀ n position html, pageWithoutData.page n position 5 = .ok (utf8 html) →
      pageWithoutData.pagePayload searchLoads n position 5
        = jobstreetPayloadFromSearchPage searchLoads html := by
    intro n position html hbody
    change (requestText (pageWithoutData.page n position 5)).bind _ = _
    rw [hbody, requestText_utf8]
    rfl
  have hlisted : ∀ n position html, pageWithoutData.page n position 5 = .ok (utf8 html) →
      loop.answers.listPage n position 5
        = (jobstreetPayloadFromSearchPage searchLoads html).bind
          (parseJobstreetListPayload position 5) :=
    fun n position html hbody => congrArg (Except.bind · _) (hpayload n position html hbody)
  have hfirst : loop.answers.listPage 1 1 5 = .ok _ := hlisted 1 1 _ rfl
  have hsecond : loop.answers.listPage 2 2 5 = .error _ := hlisted 2 2 _ rfl
  have hturn : ∃ s, loop.turn loop.init = .ok (.next s) ∧ s.pagesAttempted = 1 ∧ s.position = 2 ∧
      loop.pages.test s = true :=
    ⟨_, (PageLoop.turn_of_answered (s := loop.init) hfirst).trans rfl, rfl, rfl, rfl⟩
  obtain ⟨s, hnext, hattempted, hposition, htest⟩ := hturn
  have hreach : loop.pages.Reaches loop.init s := .next .start rfl hnext
  have hpage : Escapes
      (loop.answers.listPage (s.pagesAttempted + 1) s.position loop.pageSize) := by
    rw [hattempted, hposition]
    exact ⟨_, hsecond, rfl⟩
  obtain ⟨exc, hraise⟩ := PageLoop.turn_raises_iff.mpr (.inl hpage)
  intro hkeeps
  exact PageLoop.not_keepsEarlierPages_of_raise hreach htest hattempted.ge hraise
    (hkeeps (by decide))

end Bisakerja
