import BisakerjaScraper.Pipeline.ListWindows

/-! Servers that answer truthfully.

    A server holds a finite list of distinct jobs. Every page request is answered with the slice its
    paging assigns to it, by the page size the request carries or else by the server's own, and with
    true totals and flags. The requests of JobStreet carry no page size, and yet its list parser
    counts the pages by the page size of the settings. -/

namespace Bisakerja
open Schemes

/-- The bounds `Settings` sets to what the fetchers read. -/
structure ScraperSettings.Accepted (settings : ScraperSettings) : Prop where
  itemsPerKeyword : 1 ≤ settings.scraperMaxItemsPerKeyword ∧ settings.scraperMaxItemsPerKeyword ≤ 1000
  itemsPerSourceRun :
    1 ≤ settings.scraperMaxItemsPerSourceRun ∧ settings.scraperMaxItemsPerSourceRun ≤ 10000
  pages : 1 ≤ settings.scraperMaxPagesPerKeyword ∧ settings.scraperMaxPagesPerKeyword ≤ 500
  dealls : 1 ≤ settings.deallsPageSize ∧ settings.deallsPageSize ≤ 20
  glints : 1 ≤ settings.glintsPageSize ∧ settings.glintsPageSize ≤ 30
  jobstreet : 1 ≤ settings.jobstreetPageSize ∧ settings.jobstreetPageSize ≤ 100
  kalibrr : 1 ≤ settings.kalibrrPageSize ∧ settings.kalibrrPageSize ≤ 100
  kitalulus : 1 ≤ settings.kitalulusPageSize ∧ settings.kitalulusPageSize ≤ 100

/-! ### True answers -/

/-- The number of pages of a size. -/
def pagesOf (size count : ℕ) : ℕ := (count + size - 1) / size

/-- Dealls: the page, and how many jobs and pages of the size asked for there are. -/
def TruthfulDealls (jobs : List Json) (index size : ℕ) (payload : Dict) : Prop :=
  ∃ data : Dict, payload.get "data" = .dict data ∧ data.get "docs" = .list (pageAt size jobs index) ∧
    data.get "totalDocs" = .int jobs.length ∧
    data.get "totalPages" = .int (pagesOf size jobs.length)

/-- Glints: the page, and whether a job is behind it. -/
def TruthfulGlints (jobs : List Json) (index size : ℕ) (payload : Dict) : Prop :=
  (payload.get "errors").truthy = false ∧ ∃ data searchResult : Dict,
    payload.get "data" = .dict data ∧ data.get "searchJobsV3" = .dict searchResult ∧
    searchResult.get "jobsInPage" = .list (pageAt size jobs index) ∧
    searchResult.get "hasMore" = .bool ((index + 1) * size < jobs.length)

/-- JobStreet: the page of the server's own size, and how many jobs there are. -/
def TruthfulJobstreet (jobs : List Json) (ownSize index : ℕ) (payload : Dict) : Prop :=
  (payload.get "errors").truthy = false ∧ ∃ data searchResult : Dict,
    payload.get "data" = .dict data ∧ data.get "jobSearchV6" = .dict searchResult ∧
    searchResult.get "data" = .list (pageAt ownSize jobs index) ∧
    searchResult.get "totalCount" = .int jobs.length

/-- Kalibrr: the jobs from the offset on, as many as the server's own size, which it tells along
    with how many jobs there are. -/
def TruthfulKalibrr (jobs : List Json) (ownSize offset : ℕ) (payload : Dict) : Prop :=
  ∃ pageProps : Dict, payload.get "pageProps" = .dict pageProps ∧
    pageProps.get "jobs" = .list ((jobs.drop offset).take ownSize) ∧
    pageProps.get "count" = .int jobs.length ∧
    (pageProps.get "filters").get "offset" = .int offset ∧
    (pageProps.get "filters").get "limit" = .int ownSize

/-- Kitalulus: the page, how many jobs there are, and whether one is behind it. -/
def TruthfulKitalulus (jobs : List Json) (index size : ℕ) (payload : Dict) : Prop :=
  (payload.get "errors").truthy = false ∧ ∃ data vacancies : Dict,
    payload.get "data" = .dict data ∧ data.get "vacanciesV4" = .dict vacancies ∧
    vacancies.get "list" = .list (pageAt size jobs index) ∧
    vacancies.get "elements" = .int jobs.length ∧
    vacancies.get "page" = .int (index + 1) ∧
    vacancies.get "hasNextPage" = .bool ((index + 1) * size < jobs.length)

/-- The answer to a request at an index, the offset for Kalibrr, is true. -/
def Truthful (platform : SourcePlatform) (jobs : List Json) (ownSize index size : ℕ)
    (payload : Dict) : Prop :=
  match platform with
  | .dealls => TruthfulDealls jobs index size payload
  | .glints => TruthfulGlints jobs index size payload
  | .jobstreet => TruthfulJobstreet jobs ownSize index payload
  | .kalibrr => TruthfulKalibrr jobs ownSize index payload
  | .kitalulus => TruthfulKitalulus jobs index size payload

/-- The position that asks for an index: pages are counted from one, offsets from zero. -/
def positionOf (platform : SourcePlatform) (index : ℕ) : ℤ :=
  match platform with
  | .kalibrr => index
  | _ => index + 1

/-- A server with a finite list of distinct jobs and a page size of its own. -/
structure HonestServer where
  payloads : SourcePayloads
  jobs : List Json
  rows : List RawSourceJob
  ownSize : ℕ
  parsed : jobs.mapM (parseRawJob payloads.platform) = .ok rows
  distinct : (rows.map RawSourceJob.externalId).Nodup
  ownSize_pos : 0 < ownSize
  answers : ∀ n index size : ℕ, 0 < size → ∃ payload,
    payloads.page n (positionOf payloads.platform index) size = .ok payload ∧
      Truthful payloads.platform jobs ownSize index size payload

namespace HonestServer

variable (server : HonestServer) (settings : ScraperSettings) (limit : ℤ)

/-- A fetcher that stops because the source is exhausted has collected every job of the list. -/
def ExhaustedTruthful : Prop :=
  ∀ s, server.payloads.feed.fetchPages settings limit = .ok s →
    s.stopReason = "source_exhausted" →
      ∀ row ∈ server.rows, row.externalId ∈ s.collected.map RawSourceJob.externalId

/-- The page size `build_live_jobstreet_source` counts the pages by. -/
def jobstreetSize : ℕ := (min settings.jobstreetPageSize (max (settings.targetLimit limit) 1)).toNat

/-- JobStreet, with a token: so many pages as there were if they had the size of the settings are
    asked for, they hold neither all jobs nor as many as are wanted, and no detail request for one
    of their jobs fails in a way that its adapter does not catch. -/
def StopsEarly : Prop :=
  server.payloads.platform = .jobstreet ∧ strip (settings.jobstreetBearerToken.getD "") ≠ "" ∧
    let pages := pagesOf (jobstreetSize settings limit) server.jobs.length
    pages ≤ settings.scraperMaxPagesPerKeyword ∧ pages * server.ownSize < server.jobs.length ∧
      ((pages * server.ownSize : ℕ) : ℤ) < settings.targetLimit limit ∧
      ∀ index < pages, ∀ row ∈ pageAt server.ownSize server.rows index,
        ¬ DetailEscapes .jobstreet row (server.payloads.detail (index + 1) row)

end HonestServer

/-! ### True answers, parsed -/

section Parsed

variable {jobs : List Json} {rows : List RawSourceJob} {index size ownSize : ℕ} {payload : Dict}

theorem requireDict_of_get {d : Dict} {key : String} (h : payload.get key = .dict d)
    (message : String) : requireDict payload key message = .ok d := by
  rw [requireDict, h]

theorem requireList_of_get {xs : List Json} {key : String} (h : payload.get key = .list xs)
    (message : String) : requireList payload key message = .ok xs := by
  rw [requireList, h]

theorem requireBool_of_get {b : Bool} {key : String} (h : payload.get key = .bool b)
    (message : String) : requireBool payload key message = .ok b := by
  rw [requireBool, h]

/-- A slice of the jobs is parsed to the slice of what they are parsed to. -/
theorem mapM_window {parse : Json → Except PyException RawSourceJob} (h : jobs.mapM parse = .ok rows)
    (start width : ℕ) :
    ((jobs.drop start).take width).mapM parse = .ok ((rows.drop start).take width) :=
  mapM_take (mapM_drop h start) width

theorem TruthfulDealls.parsed (h : TruthfulDealls jobs index size payload)
    (hrows : jobs.mapM parseDeallsRawJob = .ok rows) {result : ListResult DeallsPagination}
    (hresult : parseDeallsListPayload payload = .ok result) :
    result.rawJobs = pageAt size rows index ∧
      result.pagination.totalPages = pagesOf size jobs.length := by
  obtain ⟨data, hdata, hdocs, htotal, hpages⟩ := h
  unfold parseDeallsListPayload at hresult
  rw [requireDict_of_get hdata, ok_bind, requireList_of_get hdocs, ok_bind] at hresult
  obtain ⟨⟨⟩, -, hresult⟩ := ok_bind_iff.mp hresult
  rw [pageAt, mapM_window hrows, ok_bind] at hresult
  cases hresult
  refine ⟨rfl, ?_⟩
  dsimp only
  rw [hpages, nonNegativeIntOrDefault, deallsParseInt]
  dsimp only
  rw [if_neg (by omega)]
  rfl

theorem TruthfulGlints.parsed (h : TruthfulGlints jobs index size payload)
    (hrows : jobs.mapM parseGlintsRawJob = .ok rows) {page pageSize : ℤ}
    {result : ListResult GlintsPagination}
    (hresult : parseGlintsListPayload page pageSize payload = .ok result) :
    result.rawJobs = pageAt size rows index ∧
      result.pagination.hasMore = decide ((index + 1) * size < jobs.length) := by
  obtain ⟨herrors, data, searchResult, hdata, hsearch, hjobs, hmore⟩ := h
  have hlisting : glintsListing payload
      = .ok (decide ((index + 1) * size < jobs.length), pageAt size jobs index) := by
    unfold glintsListing
    rw [herrors, requireDict_of_get hdata]
    simp only [Bool.false_eq_true, if_false, ok_bind]
    rw [requireDict_of_get hsearch, ok_bind, requireList_of_get hjobs, ok_bind,
      requireBool_of_get hmore, ok_bind]
    rfl
  unfold parseGlintsListPayload at hresult
  rw [hlisting, ok_bind] at hresult
  obtain ⟨⟨⟩, -, hresult⟩ := ok_bind_iff.mp hresult
  rw [pageAt, mapM_window hrows, ok_bind] at hresult
  cases hresult
  exact ⟨rfl, rfl⟩

theorem TruthfulJobstreet.parsed (h : TruthfulJobstreet jobs ownSize index payload)
    (hrows : jobs.mapM parseJobstreetRawJob = .ok rows) (page pageSize : ℤ) :
    parseJobstreetListPayload page pageSize payload
      = (jobstreetPagination page pageSize (.int jobs.length) (pageAt ownSize jobs index).length).map
          fun pagination => ⟨pagination, pageAt ownSize rows index⟩ := by
  obtain ⟨herrors, data, searchResult, hdata, hsearch, hjobs, htotal⟩ := h
  have hlisting : jobstreetListing payload = .ok (searchResult, pageAt ownSize jobs index) := by
    unfold jobstreetListing
    rw [herrors, requireDict_of_get hdata]
    simp only [Bool.false_eq_true, if_false, ok_bind]
    rw [requireDict_of_get hsearch, ok_bind, requireList_of_get hjobs]
    rfl
  unfold parseJobstreetListPayload
  rw [hlisting, ok_bind]
  dsimp only
  rw [htotal]
  cases jobstreetPagination page pageSize (.int jobs.length) (pageAt ownSize jobs index).length with
  | error exc => rfl
  | ok pagination =>
    rw [ok_bind, pageAt, mapM_window hrows]
    rfl

theorem TruthfulKalibrr.parsed {offset : ℕ} (h : TruthfulKalibrr jobs ownSize offset payload)
    (hrows : jobs.mapM parseKalibrrRawJob = .ok rows) {result : ListResult KalibrrPagination}
    (hresult : parseKalibrrListPayload payload = .ok result) :
    result.rawJobs = (rows.drop offset).take ownSize ∧ result.pagination.limit = ownSize ∧
      result.pagination.totalCount = jobs.length := by
  obtain ⟨pageProps, hprops, hjobs, hcount, hoffset, hlimit⟩ := h
  have hlisting : kalibrrListing payload = .ok (pageProps, (jobs.drop offset).take ownSize) := by
    unfold kalibrrListing
    rw [requireDict_of_get hprops, ok_bind, requireList_of_get hjobs]
    rfl
  unfold parseKalibrrListPayload at hresult
  rw [hlisting, ok_bind] at hresult
  obtain ⟨pagination, hpagination, hresult⟩ := ok_bind_iff.mp hresult
  rw [mapM_window hrows, ok_bind] at hresult
  cases hresult
  unfold kalibrrPagination at hpagination
  rw [hcount, hoffset, hlimit] at hpagination
  simp only [sourceOptionalInt, ok_bind] at hpagination
  obtain ⟨⟨⟩, -, hpagination⟩ := ok_bind_iff.mp hpagination
  cases hpagination
  exact ⟨rfl, rfl, rfl⟩

theorem TruthfulKitalulus.parsed (h : TruthfulKitalulus jobs index size payload)
    (hrows : jobs.mapM parseKitalulusRawJob = .ok rows) {page pageSize : ℤ}
    {result : ListResult KitalulusPagination}
    (hresult : parseKitalulusListPayload page pageSize payload = .ok result) :
    result.rawJobs = pageAt size rows index ∧
      result.pagination.hasNextPage = decide ((index + 1) * size < jobs.length) := by
  obtain ⟨herrors, data, vacancies, hdata, hvacancies, hjobs, -, -, hnext⟩ := h
  have hlisting : kitalulusListing payload = .ok (vacancies, pageAt size jobs index) := by
    unfold kitalulusListing
    rw [herrors, requireDict_of_get hdata]
    simp only [Bool.false_eq_true, if_false, ok_bind]
    rw [requireDict_of_get hvacancies, ok_bind, requireList_of_get hjobs]
    rfl
  unfold parseKitalulusListPayload at hresult
  rw [hlisting, ok_bind] at hresult
  obtain ⟨pagination, hpagination, hresult⟩ := ok_bind_iff.mp hresult
  rw [pageAt, mapM_window hrows, ok_bind] at hresult
  cases hresult
  unfold kitalulusPagination at hpagination
  obtain ⟨elements, -, hpagination⟩ := ok_bind_iff.mp hpagination
  obtain ⟨pageNumber, -, hpagination⟩ := ok_bind_iff.mp hpagination
  obtain ⟨totalPages, -, hpagination⟩ := ok_bind_iff.mp hpagination
  obtain ⟨⟨⟩, -, hpagination⟩ := ok_bind_iff.mp hpagination
  cases hpagination
  refine ⟨rfl, ?_⟩
  dsimp only
  rw [hnext]

end Parsed

/-! ### The loops over an honest server -/

theorem le_mul_of_pagesOf_le {size count pages : ℕ} (hsize : 0 < size)
    (h : pagesOf size count ≤ pages) : count ≤ pages * size :=
  (le_pages_mul hsize count).trans (Nat.mul_le_mul_right size h)

/-- A loop over pages of a size slides over them. -/
theorem PageLoop.slides_pages {π : Type} {loop : PageLoop π} {rows : List RawSourceJob} {size : ℕ}
    (hdistinct : (rows.map RawSourceJob.externalId).Nodup) (hsize : 0 < size)
    (hfirst : loop.first = 1) (hadvance : ∀ page result, loop.advance page result = page + 1)
    (hpage : ∀ (k : ℕ) result, loop.answers.listPage (k + 1) (k + 1) loop.pageSize = .ok result →
      result.rawJobs = pageAt size rows k) : loop.Slides rows size size fun k => k + 1 where
  distinct := hdistinct
  pos := hsize
  step_le := le_rfl
  first := hfirst
  window := hpage
  advance k result _ := by
    rw [hadvance]
    push_cast
    rfl

namespace HonestServer

variable {server : HonestServer} {settings : ScraperSettings} {limit : ℤ}

theorem length_rows (server : HonestServer) : server.rows.length = server.jobs.length :=
  length_of_mapM_ok server.parsed

/-- The page that was parsed is a true answer. -/
theorem truthful_of_listPage {π : Type} {parse : ℤ → ℤ → Dict → Except PyException (ListResult π)}
    {loop : PageLoop π} {n index size : ℕ} {result : ListResult π}
    (hanswers : loop.answers = server.payloads.answers parse) (hsize : 0 < size)
    (hpageSize : loop.pageSize = size)
    (h : loop.answers.listPage n (positionOf server.payloads.platform index) loop.pageSize
      = .ok result) :
    ∃ payload, Truthful server.payloads.platform server.jobs server.ownSize index size payload ∧
      parse (positionOf server.payloads.platform index) size payload = .ok result := by
  rw [hanswers, hpageSize] at h
  obtain ⟨payload, hpayload, htrue⟩ := server.answers n index size hsize
  obtain ⟨payload', hpayload', hparse⟩ := ok_bind_iff.mp h
  rw [hpayload] at hpayload'
  cases hpayload'
  exact ⟨payload, htrue, hparse⟩

theorem exists_size {pageSize : ℤ} (h : 1 ≤ pageSize) : ∃ size : ℕ, 0 < size ∧ pageSize = size :=
  ⟨pageSize.toNat, by omega, by omega⟩

/-- A loop that goes from page to page and takes none for the last that is not collects every job. -/
theorem exhaustedTruthful_of_pages {π : Type} {loop : PageLoop π} {size : ℕ} (hsize : 0 < size)
    (hfeed : server.payloads.feed.fetchPages settings limit = loop.run) (hfirst : loop.first = 1)
    (hadvance : ∀ page result, loop.advance page result = page + 1)
    (hpage : ∀ (k : ℕ) result, loop.answers.listPage (k + 1) (k + 1) loop.pageSize = .ok result →
      result.rawJobs = pageAt size server.rows k ∧
        (loop.exhausted (k + 1) result = true → server.jobs.length ≤ (k + 1) * size)) :
    server.ExhaustedTruthful settings limit := by
  intro s hrun hreason
  rw [hfeed] at hrun
  have hslides : loop.Slides server.rows size size fun k => k + 1 :=
    PageLoop.slides_pages server.distinct hsize hfirst hadvance fun k result h => (hpage k result h).1
  refine hslides.collects_all (fun count result hresult hlast => ?_) hrun hreason
  rw [server.length_rows, reach_self]
  exact (hpage count result hresult).2 hlast

section

variable (hsettings : settings.Accepted)
include hsettings

theorem dealls_exhaustedTruthful (hplatform : server.payloads.platform = .dealls) :
    server.ExhaustedTruthful settings limit := by
  let loop := deallsLoop settings limit (server.payloads.answers fun _ _ => parseDeallsListPayload)
  have hbounds := hsettings.dealls
  have hpos : 1 ≤ min settings.deallsPageSize (min (max (settings.targetLimit limit) 1) 20) := by omega
  obtain ⟨size, hsize, hpageSize⟩ := exists_size hpos
  have hfeed : server.payloads.feed.fetchPages settings limit = loop.run := by
    unfold SourcePayloads.feed
    rw [hplatform]
    rfl
  have hparsed := server.parsed
  have htruthful := @truthful_of_listPage server _ (fun _ _ => parseDeallsListPayload) loop
  rw [hplatform] at hparsed htruthful
  refine exhaustedTruthful_of_pages hsize hfeed rfl (fun _ _ => rfl) fun k result hresult => ?_
  obtain ⟨payload, htrue, hparse⟩ := htruthful rfl hsize hpageSize hresult
  obtain ⟨hrows, hpages⟩ := TruthfulDealls.parsed htrue hparsed hparse
  refine ⟨hrows, fun hlast => ?_⟩
  have hlast : result.pagination.totalPages ≠ 0 ∧ (result.pagination.totalPages : ℤ) ≤ k + 1 :=
    of_decide_eq_true hlast
  rw [hpages] at hlast
  exact le_mul_of_pagesOf_le hsize (by omega)

theorem glints_exhaustedTruthful (hplatform : server.payloads.platform = .glints) :
    server.ExhaustedTruthful settings limit := by
  let loop := glintsLoop settings limit (server.payloads.answers parseGlintsListPayload)
  have hbounds := hsettings.glints
  have hpos : 1 ≤ min settings.glintsPageSize (max (settings.targetLimit limit) 1) := by omega
  obtain ⟨size, hsize, hpageSize⟩ := exists_size hpos
  have hfeed : server.payloads.feed.fetchPages settings limit = loop.run := by
    unfold SourcePayloads.feed
    rw [hplatform]
    rfl
  have hparsed := server.parsed
  have htruthful := @truthful_of_listPage server _ parseGlintsListPayload loop
  rw [hplatform] at hparsed htruthful
  refine exhaustedTruthful_of_pages hsize hfeed rfl (fun _ _ => rfl) fun k result hresult => ?_
  obtain ⟨payload, htrue, hparse⟩ := htruthful rfl hsize hpageSize hresult
  obtain ⟨hrows, hmore⟩ := TruthfulGlints.parsed htrue hparsed hparse
  refine ⟨hrows, fun hlast => ?_⟩
  change (!result.pagination.hasMore) = true at hlast
  rw [hmore, Bool.not_eq_true', decide_eq_false_iff_not] at hlast
  exact not_lt.mp hlast

theorem kitalulus_exhaustedTruthful (hplatform : server.payloads.platform = .kitalulus) :
    server.ExhaustedTruthful settings limit := by
  let loop := kitalulusLoop settings limit (server.payloads.answers parseKitalulusListPayload)
  have hbounds := hsettings.kitalulus
  have hpos : 1 ≤ min settings.kitalulusPageSize (min (max (settings.targetLimit limit) 1) 100) := by
    omega
  obtain ⟨size, hsize, hpageSize⟩ := exists_size hpos
  have hfeed : server.payloads.feed.fetchPages settings limit = loop.run := by
    unfold SourcePayloads.feed
    rw [hplatform]
    rfl
  have hparsed := server.parsed
  have htruthful := @truthful_of_listPage server _ parseKitalulusListPayload loop
  rw [hplatform] at hparsed htruthful
  refine exhaustedTruthful_of_pages hsize hfeed rfl (fun _ _ => rfl) fun k result hresult => ?_
  obtain ⟨payload, htrue, hparse⟩ := htruthful rfl hsize hpageSize hresult
  obtain ⟨hrows, hnext⟩ := TruthfulKitalulus.parsed htrue hparsed hparse
  refine ⟨hrows, fun hlast => ?_⟩
  change (!result.pagination.hasNextPage) = true at hlast
  rw [hnext, Bool.not_eq_true', decide_eq_false_iff_not] at hlast
  exact not_lt.mp hlast

/-- The offset of Kalibrr goes on by the smaller of the two page sizes. -/
theorem kalibrr_exhaustedTruthful (hplatform : server.payloads.platform = .kalibrr) :
    server.ExhaustedTruthful settings limit := by
  let loop := kalibrrLoop settings limit (server.payloads.answers fun _ _ => parseKalibrrListPayload)
  have hbounds := hsettings.kalibrr
  have hown := server.ownSize_pos
  have hpos : 1 ≤ min settings.kalibrrPageSize (min (max (settings.targetLimit limit) 1) 100) := by
    omega
  obtain ⟨size, hsize, hpageSize⟩ := exists_size hpos
  have hfeed : server.payloads.feed.fetchPages settings limit = loop.run := by
    unfold SourcePayloads.feed
    rw [hplatform]
    rfl
  have hparsed := server.parsed
  have htruthful := @truthful_of_listPage server _ (fun _ _ => parseKalibrrListPayload) loop
  rw [hplatform] at hparsed htruthful
  let step := min server.ownSize size
  have hpage : ∀ (k : ℕ) result,
      loop.answers.listPage (k + 1) ((k * step : ℕ) : ℤ) loop.pageSize = .ok result →
        result.rawJobs = windowAt step server.ownSize server.rows k ∧
          result.pagination.limit = server.ownSize ∧
          result.pagination.totalCount = server.jobs.length := by
    intro k result hresult
    obtain ⟨payload, htrue, hparse⟩ := htruthful rfl hsize hpageSize hresult
    exact TruthfulKalibrr.parsed htrue hparsed hparse
  have hslides : loop.Slides server.rows step server.ownSize fun k => ((k * step : ℕ) : ℤ) :=
    { distinct := server.distinct
      pos := by omega
      step_le := Nat.min_le_left _ _
      first := by rw [Nat.zero_mul]; rfl
      window := fun k result h => (hpage k result h).1
      advance := by
        intro k result hresult
        obtain ⟨-, hlimit, -⟩ := hpage k result hresult
        change ((k * step : ℕ) : ℤ) + min (max result.pagination.limit 1)
          (min settings.kalibrrPageSize (min (max (settings.targetLimit limit) 1) 100)) = _
        rw [hlimit, hpageSize, Nat.succ_mul]
        omega }
  intro s hrun hreason
  rw [hfeed] at hrun
  refine hslides.collects_all (fun count result hresult hlast => ?_) hrun hreason
  obtain ⟨hrows, -, htotal⟩ := hpage count result hresult
  have hlast : (result.pagination.totalCount : ℤ)
      ≤ ((count * step : ℕ) : ℤ) + result.rawJobs.length := of_decide_eq_true hlast
  have hwidth : (windowAt step server.ownSize server.rows count).length ≤ server.ownSize :=
    List.length_take_le _ _
  rw [server.length_rows, reach]
  rw [htotal, hrows] at hlast
  omega

variable (limit) in
/-- The page size the pages of JobStreet are counted by is at least one and at most a hundred. -/
theorem jobstreetSize_spec : 0 < jobstreetSize settings limit ∧ jobstreetSize settings limit ≤ 100 ∧
    min settings.jobstreetPageSize (max (settings.targetLimit limit) 1)
      = jobstreetSize settings limit := by
  have hbounds := hsettings.jobstreet
  unfold jobstreetSize
  omega

end

/-! ### JobStreet -/

theorem totalPagesOf_eq {size count : ℕ} (hsize : 0 < size ∧ size ≤ 100) (hcount : count ≤ 2 ^ 53) :
    totalPagesOf count size = .ok (pagesOf size count) := by
  unfold totalPagesOf
  split
  · next hzero =>
    have hzero : count = 0 := by omega
    have hnone : (0 + size - 1) / size = 0 := Nat.div_eq_of_lt (by omega)
    rw [hzero, pagesOf, hnone]
  · rw [Int.natAbs_natCast, Int.natAbs_natCast]
    exact ceilTrueDiv_eq hsize.1 hcount (by omega)

/-- Where few pages are counted, the count is exact. -/
theorem pagesOf_of_totalPagesOf {size count pages : ℕ} (hsize : 0 < size ∧ size ≤ 100)
    (h : totalPagesOf count size = .ok pages) (hpages : pages ≤ 500) : pages = pagesOf size count := by
  have hcount : count ≤ 2 ^ 53 := by
    unfold totalPagesOf at h
    split at h
    · omega
    · rw [Int.natAbs_natCast, Int.natAbs_natCast] at h
      have hle := div_le_of_ceilTrueDiv h (by omega)
      have hlt := Nat.lt_div_mul_add hsize.1 (a := count)
      have hmul : count / size * size ≤ 500 * 100 := Nat.mul_le_mul (hle.trans hpages) hsize.2
      omega
  rw [totalPagesOf_eq hsize hcount] at h
  cases h
  rfl

/-- A job of a page is not among the jobs of the pages before it. -/
theorem not_mem_take_of_mem_pageAt {index : ℕ} {row : RawSourceJob}
    (hrow : row ∈ pageAt server.ownSize server.rows index) :
    row ∉ server.rows.take (reach server.ownSize server.ownSize index) := by
  rw [reach_self]
  intro hfront
  have hnodup : server.rows.Nodup := server.distinct.of_map _
  exact List.disjoint_take_drop hnodup le_rfl hfront (List.mem_of_mem_take hrow)

section Jobstreet

variable (hplatform : server.payloads.platform = .jobstreet) (hsettings : settings.Accepted)
include hplatform hsettings

/-- The pages of JobStreet: of the server's own size, and counted by the one of the settings. -/
theorem jobstreet_listPage (n k : ℕ) :
    (server.payloads.answers parseJobstreetListPayload).listPage n (k + 1)
        (min settings.jobstreetPageSize (max (settings.targetLimit limit) 1))
      = (totalPagesOf server.jobs.length (jobstreetSize settings limit)).map fun totalPages =>
          ⟨⟨server.jobs.length, totalPages⟩, pageAt server.ownSize server.rows k⟩ := by
  obtain ⟨hsize, -, hcast⟩ := jobstreetSize_spec limit hsettings
  obtain ⟨payload, hpayload, htrue⟩ := server.answers n k _ hsize
  have hparsed := server.parsed
  rw [hplatform] at hpayload htrue hparsed
  change (server.payloads.page n (k + 1) _).bind _ = _
  rw [hcast, show (k : ℤ) + 1 = positionOf .jobstreet k from rfl, hpayload]
  refine (TruthfulJobstreet.parsed htrue hparsed _ _).trans ?_
  unfold jobstreetPagination
  simp only [sourceOptionalInt, ok_bind]
  cases totalPagesOf server.jobs.length (jobstreetSize settings limit) with
  | error exc => rfl
  | ok totalPages =>
    have hmodel : (decide (1 ≤ positionOf .jobstreet k) &&
        decide ((1 : ℤ) ≤ jobstreetSize settings limit) &&
          decide ((0 : ℤ) ≤ server.jobs.length)) = true := by
      have hpage : 1 ≤ positionOf .jobstreet k := by
        change 1 ≤ (k : ℤ) + 1
        omega
      simp only [Bool.and_eq_true, decide_eq_true_eq]
      exact ⟨⟨hpage, by omega⟩, by omega⟩
    rw [ok_bind, hmodel]
    rfl

/-- The loop of `build_live_jobstreet_source` over the server. -/
theorem jobstreet_slides :
    (jobstreetLoop settings limit (server.payloads.answers parseJobstreetListPayload)).Slides
      server.rows server.ownSize server.ownSize fun k => k + 1 := by
  refine PageLoop.slides_pages server.distinct server.ownSize_pos rfl (fun _ _ => rfl) ?_
  intro k result hresult
  obtain ⟨totalPages, -, rfl⟩ :=
    ok_map_iff.mp ((jobstreet_listPage hplatform hsettings _ k).symm.trans hresult)
  rfl

omit hsettings in
theorem jobstreet_feed : server.payloads.feed.fetchPages settings limit =
    if strip (settings.jobstreetBearerToken.getD "") = "" then .error bearerTokenRequired
    else (jobstreetLoop settings limit (server.payloads.answers parseJobstreetListPayload)).run := by
  unfold SourcePayloads.feed
  rw [hplatform]
  rfl

/-- The pages that are counted are asked for, and the last of them ends the loop. -/
theorem not_exhaustedTruthful_of_stopsEarly (hstops : server.StopsEarly settings limit) :
    ¬ server.ExhaustedTruthful settings limit := by
  obtain ⟨-, htoken, hmax, hmore, hshort, hdetail⟩ := hstops
  let loop := jobstreetLoop settings limit (server.payloads.answers parseJobstreetListPayload)
  have hslides : loop.Slides server.rows server.ownSize server.ownSize fun k => k + 1 :=
    jobstreet_slides hplatform hsettings
  obtain ⟨hsize, hsizeLe, -⟩ := jobstreetSize_spec limit hsettings
  have hbound := hsettings.pages
  have hlength := server.length_rows
  have hcount := le_pages_mul hsize server.jobs.length
  have hfits : pagesOf (jobstreetSize settings limit) server.jobs.length * jobstreetSize settings limit
      ≤ 500 * 100 := Nat.mul_le_mul (hmax.trans hbound.2) hsizeLe
  have htotal := @totalPagesOf_eq _ server.jobs.length ⟨hsize, hsizeLe⟩ (by
    unfold pagesOf at hfits
    omega)
  have hpage : ∀ k : ℕ, loop.answers.listPage (k + 1) (k + 1) loop.pageSize
      = .ok ⟨⟨server.jobs.length, pagesOf (jobstreetSize settings limit) server.jobs.length⟩,
          pageAt server.ownSize server.rows k⟩ := by
    intro k
    refine (jobstreet_listPage hplatform hsettings (k + 1) k).trans ?_
    rw [htotal]
    rfl
  have hraises : ∀ index < pagesOf (jobstreetSize settings limit) server.jobs.length,
      ∀ row ∈ pageAt server.ownSize server.rows index, ∀ exc,
        enrichJob .jobstreet (server.payloads.detail (index + 1) row) row ≠ .error exc := by
    intro index hindex row hrow exc hexc
    have haccepted : row.Accepted .jobstreet := by
      have hparsed := server.parsed
      rw [hplatform] at hparsed
      exact accepted_of_mapM hparsed row (List.mem_of_mem_drop (List.mem_of_mem_take hrow))
    exact hdetail index hindex row hrow ((enrichJob_error_iff _ haccepted).mp ⟨exc, hexc⟩)
  obtain ⟨last, hlast⟩ : ∃ last, pagesOf (jobstreetSize settings limit) server.jobs.length
      = last + 1 := by
    refine Nat.exists_eq_succ_of_ne_zero fun hzero => ?_
    unfold pagesOf at hzero
    rw [hzero] at hcount
    omega
  rw [hlast] at hmax hmore hshort hpage hraises
  have hreach : reach server.ownSize server.ownSize (last + 1) = (last + 1) * server.ownSize :=
    reach_self _ _
  have hbefore := reach_lt_succ server.ownSize_pos le_rfl last
  obtain ⟨s, hs, hcovers, hposition⟩ := hslides.reaches last
    (fun index hindex => ⟨_, hpage index, decide_eq_false fun h => by
      have hle := h.2
      dsimp only at hle
      omega⟩)
    (fun index hindex row hrow _ => hraises index (by omega) row hrow) (by
      change last ≤ settings.scraperMaxPagesPerKeyword
      omega) (fun _ => by omega) (by
      change _ < settings.targetLimit limit
      omega)
  obtain ⟨s', hrun, hreason, hcollected⟩ := hslides.run_of_last hs hcovers hposition (hpage last)
    (decide_eq_true ⟨Nat.succ_ne_zero last, by push_cast; omega⟩)
    (fun row hrow _ => hraises last (by omega) row hrow) (by
      change last < settings.scraperMaxPagesPerKeyword
      omega) (by
      change _ < settings.targetLimit limit
      omega)
  intro htruthful
  have hall := htruthful s' (by
    rw [jobstreet_feed hplatform, if_neg htoken]
    exact hrun) hreason
  have hsubset : server.rows.map RawSourceJob.externalId
      ⊆ s'.collected.map RawSourceJob.externalId := by
    intro id hid
    obtain ⟨row, hrow, rfl⟩ := List.mem_map.mp hid
    exact hall row hrow
  have hle := (List.subperm_of_subset server.distinct hsubset).length_le
  rw [List.length_map, List.length_map, hcollected] at hle
  omega

/-- Where a loop ends before the end of the list, the pages were counted too low. -/
theorem stopsEarly_of_not_exhaustedTruthful (hfalse : ¬ server.ExhaustedTruthful settings limit) :
    server.StopsEarly settings limit := by
  unfold ExhaustedTruthful at hfalse
  push Not at hfalse
  obtain ⟨s, hrun, hreason, row, hrow, hmissing⟩ := hfalse
  rw [jobstreet_feed hplatform] at hrun
  split at hrun
  · cases hrun
  · next htoken =>
    have hslides := @jobstreet_slides server settings limit hplatform hsettings
    obtain ⟨count, result, s₁, hmax, hpage, hcovers, hsame, hshort, hend⟩ :=
      hslides.of_exhausted hrun hreason
    obtain ⟨hsize, hsizeLe, -⟩ := jobstreetSize_spec limit hsettings
    have hbound := hsettings.pages
    have hlength := server.length_rows
    have hbefore := reach_lt_succ server.ownSize_pos le_rfl count
    have hmore : reach server.ownSize server.ownSize (count + 1) < server.rows.length := by
      by_contra hover
      rw [hsame] at hmissing
      exact hmissing (hslides.all_collected hcovers (not_lt.mp hover) row hrow)
    obtain ⟨totalPages, htotal, rfl⟩ :=
      ok_map_iff.mp ((jobstreet_listPage hplatform hsettings _ count).symm.trans hpage)
    have hlast : totalPages ≠ 0 ∧ (totalPages : ℤ) ≤ count + 1 := by
      rcases hend with hend | hend
      · omega
      · exact of_decide_eq_true hend
    have hmax : count < settings.scraperMaxPagesPerKeyword := hmax
    have hpages := pagesOf_of_totalPagesOf ⟨hsize, hsizeLe⟩ htotal (by omega)
    have hreach : reach server.ownSize server.ownSize (count + 1) = (count + 1) * server.ownSize :=
      reach_self _ _
    have hmul : totalPages * server.ownSize ≤ (count + 1) * server.ownSize :=
      Nat.mul_le_mul_right _ (by omega)
    have hcollected := hslides.length_collected hcovers.going
    have hshort : (s₁.collected.length : ℤ) < settings.targetLimit limit := hshort
    refine ⟨hplatform, htoken, ?_⟩
    dsimp only
    rw [← hpages]
    refine ⟨by omega, by omega, by omega, fun index hindex row hrow hescapes => ?_⟩
    have haccepted : row.Accepted .jobstreet := by
      have hparsed := server.parsed
      rw [hplatform] at hparsed
      exact accepted_of_mapM hparsed row (List.mem_of_mem_drop (List.mem_of_mem_take hrow))
    obtain ⟨exc, hexc⟩ := (enrichJob_error_iff _ haccepted).mpr hescapes
    exact hcovers.enriched index (by omega) row hrow (not_mem_take_of_mem_pageAt hrow) exc hexc

end Jobstreet

/-- A fetcher that stops because the source is exhausted has collected every job of an honest server,
    but for JobStreet where it stops early. -/
theorem exhaustedTruthful_iff (server : HonestServer) {settings : ScraperSettings}
    (hsettings : settings.Accepted) (limit : ℤ) :
    server.ExhaustedTruthful settings limit ↔ ¬ server.StopsEarly settings limit := by
  cases hplatform : server.payloads.platform with
  | jobstreet =>
    exact ⟨fun h hstops => not_exhaustedTruthful_of_stopsEarly hplatform hsettings hstops h, fun h =>
      not_not.mp fun hfalse => h (stopsEarly_of_not_exhaustedTruthful hplatform hsettings hfalse)⟩
  | dealls =>
    have hother : ¬ server.StopsEarly settings limit := fun h => by
      cases hplatform.symm.trans h.1
    exact iff_of_true (dealls_exhaustedTruthful hsettings hplatform) hother
  | glints =>
    have hother : ¬ server.StopsEarly settings limit := fun h => by
      cases hplatform.symm.trans h.1
    exact iff_of_true (glints_exhaustedTruthful hsettings hplatform) hother
  | kalibrr =>
    have hother : ¬ server.StopsEarly settings limit := fun h => by
      cases hplatform.symm.trans h.1
    exact iff_of_true (kalibrr_exhaustedTruthful hsettings hplatform) hother
  | kitalulus =>
    have hother : ¬ server.StopsEarly settings limit := fun h => by
      cases hplatform.symm.trans h.1
    exact iff_of_true (kitalulus_exhaustedTruthful hsettings hplatform) hother

end HonestServer

/-- Two ads. -/
def twoAds : List Json := [.dict [("id", .str "1")], .dict [("id", .str "2")]]

/-- JobStreet with one ad a page, its details blocked. -/
def oneAdAPage : HonestServer where
  payloads :=
    { platform := .jobstreet
      page := fun _ position _ => .ok [("data", .dict [("jobSearchV6", .dict
        [("data", .list (pageAt 1 twoAds (position - 1).toNat)), ("totalCount", .int 2)])])]
      detail := fun _ _ => .error (.scraper .fetch "blocked" none false []) }
  jobs := twoAds
  rows := twoAds.filterMap fun job => (parseJobstreetRawJob job).toOption
  ownSize := 1
  parsed := rfl
  distinct := by decide
  ownSize_pos := Nat.one_pos
  answers _ index _ _ := by
    have hindex : ((index : ℤ) + 1 - 1).toNat = index := by omega
    refine ⟨_, rfl, rfl, _, _, rfl, rfl, ?_, rfl⟩
    exact congrArg (fun n => Json.list (pageAt 1 twoAds n)) hindex

theorem accepted_fewPages : fewPages.Accepted where
  itemsPerKeyword := by decide
  itemsPerSourceRun := by decide
  pages := by decide
  dealls := by decide
  glints := by decide
  jobstreet := by decide
  kalibrr := by decide
  kitalulus := by decide

/-- The settings take the two ads for one page, so the second is never asked for. -/
theorem exhausted_after_one_ad : ¬ oneAdAPage.ExhaustedTruthful fewPages 5 := by
  rw [HonestServer.exhaustedTruthful_iff oneAdAPage accepted_fewPages 5, not_not]
  refine ⟨rfl, by decide +kernel, by decide, by decide, by decide, fun index _ row _ hescapes => ?_⟩
  obtain ⟨exc, hexc, hother⟩ := hescapes
  cases hexc
  cases hother

end Bisakerja
