import BisakerjaScraper.Python.Numbers
import BisakerjaScraper.Sources.Details

/-! The list pages of the sources.

    Each parser reads the jobs of a page and what the source says about its pages. It raises a
    `ParseError` where the payload has another shape, but the numbers of the pagination may also
    make `int` or the pydantic model of the pagination raise. A raw job is built with texts that are
    never empty, so its model always accepts them. -/

namespace Bisakerja

/-- A parsed list page: its jobs and what the source says about the pages. -/
structure ListResult (π : Type) where
  pagination : π
  rawJobs : List RawSourceJob

/-- `DeallsPagination`, as far as the loop reads it. -/
structure DeallsPagination where
  totalDocs : ℕ
  totalPages : ℕ

/-- `GlintsPagination`, as far as the loop reads it. -/
structure GlintsPagination where
  hasMore : Bool

/-- `JobStreetPagination`, as far as the loop reads it. -/
structure JobStreetPagination where
  totalCount : ℕ
  totalPages : ℕ

/-- `KalibrrPagination`, as far as the loop reads it. -/
structure KalibrrPagination where
  limit : ℤ
  totalCount : ℕ

/-- `KitalulusPagination`, as far as the loop reads it. -/
structure KitalulusPagination where
  totalCount : ℕ
  hasNextPage : Bool

/-- `payload.get(key)` where it has to be a list. -/
def requireList (payload : Dict) (key message : String) : Except PyException (List Json) :=
  match payload.get key with
  | .list xs => .ok xs
  | _ => .error (parseError message)

/-- `payload.get(key)` where it has to be a boolean. -/
def requireBool (payload : Dict) (key message : String) : Except PyException Bool :=
  match payload.get key with
  | .bool b => .ok b
  | _ => .error (parseError message)

/-- A member of the list of jobs, which has to be an object. -/
def requireObject (job : Json) (message : String) : Except PyException Dict :=
  match job with
  | .dict entries => .ok entries
  | _ => .error (parseError message)

/-- `_optional_int` of JobStreet, Kalibrr and Kitalulus. Not every digit of `isdigit` is one for
    `int`. -/
def sourceOptionalInt (value : Json) (fallback : ℤ) : Except PyException ℤ :=
  match value with
  | .int n => .ok n
  | .str s =>
    if isDigitText s then
      match intOfText s with
      | some n => .ok n
      | none => .error (.plain "ValueError" "invalid literal for int()")
    else .ok fallback
  | _ => .ok fallback

/-- `ceil(total_count / page_size) if total_count else 0`. A quotient with a negative side has the
    size of the one without signs; the model of the pagination refuses it afterwards. -/
def totalPagesOf (totalCount pageSize : ℤ) : Except PyException ℕ :=
  if totalCount = 0 then .ok 0 else ceilTrueDiv totalCount.natAbs pageSize.natAbs

/-! ### Dealls -/

/-- `_parse_int`. -/
def deallsParseInt : Json → Option ℤ
  | .int n => some n
  | .str s => intOfText s
  | _ => none

/-- `_positive_int_or_default`. -/
def positiveIntOrDefault (value : Json) (default : ℤ) : ℤ :=
  match deallsParseInt value with
  | some n => if n ≤ 0 then default else n
  | none => default

/-- `_non_negative_int_or_default`. -/
def nonNegativeIntOrDefault (value : Json) (default : ℤ) : ℤ :=
  match deallsParseInt value with
  | some n => if n < 0 then default else n
  | none => default

/-- `_parse_raw_job` of Dealls. -/
def parseDeallsRawJob (job : Json) : Except PyException RawSourceJob := do
  let rawJob ← requireObject job "Dealls list job must be an object"
  let externalId ← requireText rawJob "id" "Dealls list job missing required id"
  pure
    { sourcePlatform := SourcePlatform.dealls.value
      externalId
      sourceUrl := buildDeallsSourceUrl ((nonEmptyText (rawJob.get "slug")).getD externalId)
      rawPayload := rawJob }

/-- `parse_dealls_list_payload`. -/
def parseDeallsListPayload (payload : Dict) : Except PyException (ListResult DeallsPagination) := do
  let data ← requireDict payload "data" "Dealls list payload missing data object"
  let docs ← requireList data "docs" "Dealls list payload missing docs list"
  let page := positiveIntOrDefault (data.get "page") 1
  let limit := positiveIntOrDefault (data.get "limit") (max docs.length 1)
  let totalDocs := nonNegativeIntOrDefault (data.get "totalDocs") docs.length
  let totalPages := nonNegativeIntOrDefault (data.get "totalPages") 0
  checkModel "DeallsPagination" (1 ≤ page && 1 ≤ limit && 0 ≤ totalDocs && 0 ≤ totalPages)
  let rawJobs ← docs.mapM parseDeallsRawJob
  pure ⟨{ totalDocs := totalDocs.toNat, totalPages := totalPages.toNat }, rawJobs⟩

/-! ### Glints -/

/-- `build_glints_source_url`. -/
def buildGlintsSourceUrl (jobId : String) : String :=
  "https://glints.com/id/opportunities/jobs/" ++ jobId

/-- `_parse_raw_job` of Glints. -/
def parseGlintsRawJob (job : Json) : Except PyException RawSourceJob := do
  let rawJob ← requireObject job "Glints list job must be an object"
  let externalId ← requireText rawJob "id" "Glints list job missing required id"
  pure
    { sourcePlatform := SourcePlatform.glints.value
      externalId
      sourceUrl := buildGlintsSourceUrl externalId
      rawPayload := rawJob }

/-- The part of `parse_glints_list_payload` that finds the jobs and the flag. -/
def glintsListing (payload : Dict) : Except PyException (Bool × List Json) := do
  if (payload.get "errors").truthy then
    Except.error (parseError "Glints list payload contains GraphQL errors")
  let data ← requireDict payload "data" "Glints list payload missing data object"
  let searchResult ← requireDict data "searchJobsV3"
    "Glints list payload missing searchJobsV3 object"
  let jobs ← requireList searchResult "jobsInPage" "Glints list payload missing jobsInPage list"
  let hasMore ← requireBool searchResult "hasMore" "Glints list payload missing hasMore boolean"
  pure (hasMore, jobs)

/-- `parse_glints_list_payload` for a page and a page size. -/
def parseGlintsListPayload (page pageSize : ℤ) (payload : Dict) :
    Except PyException (ListResult GlintsPagination) := do
  let (hasMore, jobs) ← glintsListing payload
  checkModel "GlintsPagination" (1 ≤ page && 1 ≤ pageSize)
  let rawJobs ← jobs.mapM parseGlintsRawJob
  pure ⟨{ hasMore }, rawJobs⟩

/-! ### JobStreet -/

/-- `build_jobstreet_source_url`. -/
def buildJobstreetSourceUrl (jobId : String) : String := "https://id.jobstreet.com/id/job/" ++ jobId

/-- `_parse_raw_job` of JobStreet. -/
def parseJobstreetRawJob (job : Json) : Except PyException RawSourceJob := do
  let rawJob ← requireObject job "JobStreet list job must be an object"
  let externalId ← requireText rawJob "id" "JobStreet list job missing required id"
  pure
    { sourcePlatform := SourcePlatform.jobstreet.value
      externalId
      sourceUrl := buildJobstreetSourceUrl externalId
      rawPayload := rawJob }

/-- The pagination of `parse_jobstreet_list_payload`. The number of pages is computed with the page
    size of the query. -/
def jobstreetPagination (page pageSize : ℤ) (totalCount : Json) (jobCount : ℕ) :
    Except PyException JobStreetPagination := do
  let totalCount ← sourceOptionalInt totalCount jobCount
  let totalPages ← totalPagesOf totalCount pageSize
  checkModel "JobStreetPagination" (1 ≤ page && 1 ≤ pageSize && 0 ≤ totalCount)
  pure { totalCount := totalCount.toNat, totalPages }

/-- The part of `parse_jobstreet_list_payload` that finds the jobs. -/
def jobstreetListing (payload : Dict) : Except PyException (Dict × List Json) := do
  if (payload.get "errors").truthy then
    Except.error (parseError "JobStreet list payload contains GraphQL errors")
  let data ← requireDict payload "data" "JobStreet list payload missing data object"
  let searchResult ← requireDict data "jobSearchV6"
    "JobStreet list payload missing jobSearchV6 object"
  let jobs ← requireList searchResult "data" "JobStreet list payload missing data list"
  pure (searchResult, jobs)

/-- `parse_jobstreet_list_payload` for a page and a page size. -/
def parseJobstreetListPayload (page pageSize : ℤ) (payload : Dict) :
    Except PyException (ListResult JobStreetPagination) := do
  let (searchResult, jobs) ← jobstreetListing payload
  let pagination ← jobstreetPagination page pageSize (searchResult.get "totalCount") jobs.length
  let rawJobs ← jobs.mapM parseJobstreetRawJob
  pure ⟨pagination, rawJobs⟩

/-! ### Kalibrr -/

/-- `str(external_id)` for the id of a list job, an integer or a text. -/
def kalibrrListId (rawJob : Dict) : Except PyException String :=
  match rawJob.get "id" with
  | .int n => .ok (toString n)
  | .str s => if s = "" then .error (parseError "Kalibrr list job missing required id") else .ok s
  | _ => .error (parseError "Kalibrr list job missing required id")

/-- `_parse_raw_job` of Kalibrr. -/
def parseKalibrrRawJob (job : Json) : Except PyException RawSourceJob := do
  let rawJob ← requireObject job "Kalibrr list job must be an object"
  let externalId ← kalibrrListId rawJob
  pure
    { sourcePlatform := SourcePlatform.kalibrr.value
      externalId
      sourceUrl := buildKalibrrSourceUrl externalId rawJob
      rawPayload := rawJob }

/-- The pagination of `parse_kalibrr_list_payload`. -/
def kalibrrPagination (filters : Json) (count : Json) (jobCount : ℕ) :
    Except PyException KalibrrPagination := do
  let offset ← sourceOptionalInt (filters.get "offset") 0
  let limit ← sourceOptionalInt (filters.get "limit") (max jobCount 1)
  let totalCount ← sourceOptionalInt count jobCount
  checkModel "KalibrrPagination" (0 ≤ offset && 1 ≤ limit && 0 ≤ totalCount)
  pure { limit, totalCount := totalCount.toNat }

/-- The part of `parse_kalibrr_list_payload` that finds the jobs. -/
def kalibrrListing (payload : Dict) : Except PyException (Dict × List Json) := do
  let pageProps ← requireDict payload "pageProps" "Kalibrr list payload missing pageProps object"
  let jobs ← requireList pageProps "jobs" "Kalibrr list payload missing jobs list"
  pure (pageProps, jobs)

/-- `parse_kalibrr_list_payload`. -/
def parseKalibrrListPayload (payload : Dict) :
    Except PyException (ListResult KalibrrPagination) := do
  let (pageProps, jobs) ← kalibrrListing payload
  let pagination ← kalibrrPagination (pageProps.get "filters") (pageProps.get "count") jobs.length
  let rawJobs ← jobs.mapM parseKalibrrRawJob
  pure ⟨pagination, rawJobs⟩

/-! ### Kitalulus -/

/-- A text of a list job that has to be there and not blank. -/
def requireKitalulusText (value : Json) (message : String) (externalId : Option String) :
    Except PyException String :=
  match value with
  | .str s => if strip s = "" then .error (.scraper .parse message externalId false []) else .ok s
  | _ => .error (.scraper .parse message externalId false [])

/-- `_parse_raw_job` of Kitalulus. -/
def parseKitalulusRawJob (job : Json) : Except PyException RawSourceJob := do
  let rawJob ← requireObject job "Kitalulus list job must be an object"
  let externalId ← requireKitalulusText (rawJob.get "id")
    "Kitalulus list job missing required id" none
  let slug ← requireKitalulusText (rawJob.get "slug")
    "Kitalulus list job missing required slug" (some externalId)
  let _ ← requireKitalulusText (rawJob.get "positionName")
    "Kitalulus list job missing required positionName" (some externalId)
  let _ ← requireKitalulusText ((rawJob.get "company").get "name")
    "Kitalulus list job missing required company.name" (some externalId)
  pure
    { sourcePlatform := SourcePlatform.kitalulus.value
      externalId
      sourceUrl := buildKitalulusSourceUrl slug
      rawPayload := rawJob }

/-- The pagination of `parse_kitalulus_list_payload`. -/
def kitalulusPagination (page pageSize : ℤ) (vacancies : Dict) (jobCount : ℕ) :
    Except PyException KitalulusPagination := do
  let elements ← sourceOptionalInt (vacancies.get "elements") jobCount
  let totalCount := max elements 0
  let pageNumber ← sourceOptionalInt (vacancies.get "page") page
  let _ ← totalPagesOf totalCount pageSize
  checkModel "KitalulusPagination" (1 ≤ max pageNumber 1 && 1 ≤ pageSize && 0 ≤ totalCount)
  pure
    { totalCount := totalCount.toNat
      hasNextPage := match vacancies.get "hasNextPage" with
        | .bool b => b
        | _ => false }

/-- The part of `parse_kitalulus_list_payload` that finds the jobs. -/
def kitalulusListing (payload : Dict) : Except PyException (Dict × List Json) := do
  if (payload.get "errors").truthy then
    Except.error (parseError "Kitalulus list payload contains GraphQL errors")
  let data ← requireDict payload "data" "Kitalulus list payload missing data object"
  let vacancies ← requireDict data "vacanciesV4" "Kitalulus list payload missing vacanciesV4 object"
  let jobs ← requireList vacancies "list" "Kitalulus list payload missing list array"
  pure (vacancies, jobs)

/-- `parse_kitalulus_list_payload` for a page and a page size. -/
def parseKitalulusListPayload (page pageSize : ℤ) (payload : Dict) :
    Except PyException (ListResult KitalulusPagination) := do
  let (vacancies, jobs) ← kitalulusListing payload
  let pagination ← kitalulusPagination page pageSize vacancies jobs.length
  let rawJobs ← jobs.mapM parseKitalulusRawJob
  pure ⟨pagination, rawJobs⟩

/-! ### All sources -/

/-- `_parse_raw_job` of each source. -/
def parseRawJob : SourcePlatform → Json → Except PyException RawSourceJob
  | .dealls => parseDeallsRawJob
  | .glints => parseGlintsRawJob
  | .jobstreet => parseJobstreetRawJob
  | .kalibrr => parseKalibrrRawJob
  | .kitalulus => parseKitalulusRawJob

end Bisakerja
