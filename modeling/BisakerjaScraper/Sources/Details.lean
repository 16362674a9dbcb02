import BisakerjaScraper.Core.Errors
import BisakerjaScraper.Persistence.Models
import BisakerjaScraper.Python.Text

/-! List jobs and their details.

    Each source turns a list job into the raw job that is stored: the list payload, the detail
    payload where there is one, and what became of the detail. Dealls, JobStreet and Kitalulus ask
    for the detail, Kalibrr finds it in the list job, Glints has none. The answer to a detail
    request is a parameter here: a decoded body or an exception. -/

namespace Bisakerja

/-- `RawSourceJob`. -/
structure RawSourceJob where
  sourcePlatform : String
  externalId : String
  sourceUrl : String
  rawPayload : Dict

/-- A detail as its parser returns it, as far as the merge reads it. -/
structure DetailResult where
  externalId : String
  sourceUrl : String
  rawPayload : Dict
  htmlFields : List String := []

/-- The answer to a detail request. -/
abbrev DetailAnswer := Except PyException Dict

/-- A `ParseError`. -/
def parseError (message : String) : PyException := .scraper .parse message none false []

/-- A pydantic model accepts its values or raises a `ValidationError`. -/
def checkModel (model : String) (accepted : Bool) : Except PyException Unit :=
  if accepted then .ok () else .error (.plain "ValidationError" ("validation error for " ++ model))

/-- `value` as a text that is not empty: `_optional_text`. -/
def nonEmptyText : Json → Option String
  | .str s => if s = "" then none else some s
  | _ => none

/-- `payload.get(key)` where it has to be an object. -/
def requireDict (payload : Dict) (key message : String) : Except PyException Dict :=
  match payload.get key with
  | .dict entries => .ok entries
  | _ => .error (parseError message)

/-- `payload.get(key)` where it has to be a text that is not empty. -/
def requireText (payload : Dict) (key message : String) : Except PyException String :=
  match nonEmptyText (payload.get key) with
  | some s => .ok s
  | none => .error (parseError message)

/-- `_missing_reason_from_fetch_error`. -/
def missingReasonFromFetchError (details : Dict) : String :=
  match details.get "statusCode" with
  | .int 404 => "not_found"
  | .int 401 => "auth_required"
  | .int 403 => "auth_required"
  | .int 429 => "rate_limited"
  | _ => "unavailable"

/-- The raw job stored for a list job. -/
def RawSourceJob.merged (job : RawSourceJob) (sourceUrl : String) (detail detailMetadata : Json) :
    RawSourceJob :=
  { job with
    sourceUrl := sourceUrl
    rawPayload := [("list", .dict job.rawPayload), ("detail", detail),
      ("detailMetadata", detailMetadata)] }

/-- The raw job stored without a detail, for Dealls and JobStreet. -/
def mergeMissing (job : RawSourceJob) (missingReason : String) (attempted : Bool)
    (failureRetryable : Option Bool) : RawSourceJob :=
  job.merged job.sourceUrl .null (.dict
    ([("coverage", .str "missing"), ("missingReason", .str missingReason),
      ("detailCompleteness", .str "partial"), ("attempted", .bool attempted)] ++
      (failureRetryable.map fun retryable => ("failureRetryable", Json.bool retryable)).toList))

/-! ### Dealls -/

/-- `build_dealls_source_url`. -/
def buildDeallsSourceUrl (slugOrId : String) : String := "https://dealls.com/jobs/" ++ slugOrId

/-- `parse_dealls_detail_payload`. -/
def parseDeallsDetailPayload (payload : Dict) : Except PyException DetailResult := do
  let data ← requireDict payload "data" "Dealls detail payload missing data object"
  let result ← requireDict data "result" "Dealls detail payload missing result object"
  let externalId ← requireText result "id" "Dealls detail payload missing required id"
  let slug ← requireText result "slug" "Dealls detail payload missing required slug"
  pure { externalId, sourceUrl := buildDeallsSourceUrl slug, rawPayload := result }

/-- `merge_dealls_list_and_detail` with a detail. -/
def mergeDeallsDetail (job : RawSourceJob) (detail : DetailResult) : RawSourceJob :=
  job.merged detail.sourceUrl (.dict detail.rawPayload) (.dict
    [("coverage", .str "available"), ("source", .str "detail"),
      ("detailCompleteness", .str "complete"), ("attempted", .bool true)])

/-- `DeallsDetailAdapter.fetch_enriched_job`. -/
def deallsFetchEnrichedJob (answer : DetailAnswer) (job : RawSourceJob) :
    Except PyException RawSourceJob :=
  match nonEmptyText (job.rawPayload.get "slug") with
  | none => .ok (mergeMissing job "missing_slug" false none)
  | some _ =>
    match answer.bind parseDeallsDetailPayload with
    | .ok detail => .ok (mergeDeallsDetail job detail)
    | .error (.scraper .fetch _ _ retryable details) =>
      .ok (mergeMissing job (missingReasonFromFetchError details) true (some retryable))
    | .error (.scraper .parse _ _ _ _) => .ok (mergeMissing job "unavailable" true (some false))
    | .error exc => .error exc

/-! ### Glints -/

/-- `merge_glints_list_with_fallback`. -/
def mergeGlintsListWithFallback (job : RawSourceJob) : RawSourceJob :=
  job.merged job.sourceUrl .null (.dict
    [("coverage", .str "unavailable"), ("detailCompleteness", .str "partial"),
      ("missingReason", .str "unavailable"), ("attempted", .bool false)])

/-! ### Kalibrr -/

/-- `str(external_id)` for an id that is an integer or a text. -/
def kalibrrExternalId (payload : Dict) : Except PyException String :=
  match payload.get "id" with
  | .int n => .ok (toString n)
  | .str s => if s = "" then .error (parseError "Kalibrr detail job missing required id") else .ok s
  | _ => .error (parseError "Kalibrr detail job missing required id")

/-- `build_kalibrr_source_url`. -/
def buildKalibrrSourceUrl (externalId : String) (payload : Dict) : String :=
  match nonEmptyText ((payload.get "company").get "code"), nonEmptyText (payload.get "slug") with
  | some code, some slug =>
    "https://www.kalibrr.id/c/" ++ code ++ "/jobs/" ++ externalId ++ "/" ++ slug
  | none, some slug => "https://www.kalibrr.id/jobs/" ++ externalId ++ "/" ++ slug
  | _, none => "https://www.kalibrr.id/jobs/" ++ externalId

/-- `parse_kalibrr_detail_payload`. -/
def parseKalibrrDetailPayload (payload : Dict) : Except PyException DetailResult :=
  (kalibrrExternalId payload).map fun externalId =>
    { externalId
      sourceUrl := buildKalibrrSourceUrl externalId payload
      rawPayload := payload
      htmlFields := ["description", "qualifications"].filter fun field =>
        (nonEmptyText (payload.get field)).isSome }

/-- `merge_kalibrr_list_and_detail`. -/
def mergeKalibrrListAndDetail (job : RawSourceJob) : Except PyException RawSourceJob :=
  (parseKalibrrDetailPayload job.rawPayload).map fun detail =>
    job.merged detail.sourceUrl (.dict detail.rawPayload) (.dict
      [("coverage", .str "embedded"), ("source", .str "list_job"),
        ("detailCompleteness", .str "complete"),
        ("htmlFields", .list (detail.htmlFields.map .str))])

/-! ### JobStreet -/

/-- `_detail_source_url`. -/
def jobstreetDetailSourceUrl (job : Dict) (externalId : String) : String :=
  match nonEmptyText (job.get "shareLink") with
  | some link => String.ofList (link.toList.takeWhile (· ≠ '?'))
  | none => "https://id.jobstreet.com/id/job/" ++ externalId

/-- `parse_jobstreet_detail_payload`; the model of the detail refuses an empty source URL. -/
def parseJobstreetDetailPayload (payload : Dict) : Except PyException DetailResult := do
  if (payload.get "errors").truthy then
    Except.error (parseError "JobStreet detail payload contains GraphQL errors")
  let data ← requireDict payload "data" "JobStreet detail payload missing data object"
  let detail ← requireDict data "jobDetails" "JobStreet detail payload missing jobDetails object"
  let job ← requireDict detail "job" "JobStreet detail payload missing job object"
  let externalId ← requireText job "id" "JobStreet detail job missing required id"
  checkModel "JobStreetDetailResult" (jobstreetDetailSourceUrl job externalId ≠ "")
  pure
    { externalId
      sourceUrl := jobstreetDetailSourceUrl job externalId
      rawPayload := detail
      htmlFields := if (nonEmptyText (job.get "content")).isSome then ["job.content"] else [] }

/-- `_missing_reason_from_parse_error`; the messages are ASCII. -/
def missingReasonFromParseError (message : String) : String :=
  let lowered := message.toList.map Char.toLower
  if "auth".toList <:+: lowered ∨ "unauthorized".toList <:+: lowered then "auth_required"
  else "unavailable"

/-- `merge_jobstreet_list_and_detail` with a detail. -/
def mergeJobstreetDetail (job : RawSourceJob) (detail : DetailResult) : RawSourceJob :=
  job.merged detail.sourceUrl (.dict detail.rawPayload) (.dict
    [("coverage", .str "available"), ("source", .str "detail"),
      ("detailCompleteness", .str "complete"), ("attempted", .bool true),
      ("htmlFields", .list (detail.htmlFields.map .str))])

/-- `JobStreetDetailAdapter.fetch_enriched_job`. -/
def jobstreetFetchEnrichedJob (answer : DetailAnswer) (job : RawSourceJob) :
    Except PyException RawSourceJob :=
  match answer.bind parseJobstreetDetailPayload with
  | .ok detail => .ok (mergeJobstreetDetail job detail)
  | .error (.scraper .fetch _ _ retryable details) =>
    .ok (mergeMissing job (missingReasonFromFetchError details) true (some retryable))
  | .error (.scraper .parse message _ _ _) =>
    .ok (mergeMissing job (missingReasonFromParseError message) true (some false))
  | .error exc => .error exc

/-! ### Kitalulus -/

/-- `build_kitalulus_source_url`. -/
def buildKitalulusSourceUrl (slug : String) : String :=
  "https://www.kitalulus.com/lowongan/" ++ slug

/-- `payload.get(key)` where it has to be a text that is not blank. -/
def requireVisibleText (payload : Dict) (key message : String) : Except PyException String :=
  match payload.get key with
  | .str s => if strip s = "" then .error (parseError message) else .ok s
  | _ => .error (parseError message)

/-- `parse_kitalulus_detail_payload`. -/
def parseKitalulusDetailPayload (payload : Dict) : Except PyException DetailResult := do
  if (payload.get "errors").truthy then
    Except.error (parseError "Kitalulus detail payload contains GraphQL errors")
  let data ← requireDict payload "data" "Kitalulus detail payload missing data object"
  let vacancy ← requireDict data "vacancyBySlug"
    "Kitalulus detail payload missing vacancyBySlug object"
  let externalId ← requireVisibleText vacancy "id" "Kitalulus detail job missing required id"
  let slug ← requireVisibleText vacancy "slug" "Kitalulus detail job missing required slug"
  pure { externalId, sourceUrl := buildKitalulusSourceUrl slug, rawPayload := vacancy }

/-- What Kitalulus stores without a detail: the payload has no `detail` key then. -/
def mergeKitalulusMissing (job : RawSourceJob) (exceptionName : String) (retryable : Bool) :
    RawSourceJob :=
  { job with
    rawPayload := [("list", .dict job.rawPayload), ("detailMetadata", .dict
      [("coverage", .str "missing"), ("detailCompleteness", .str "partial"),
        ("attempted", .bool true), ("missingReason", .str exceptionName),
        ("failureRetryable", .bool retryable)])] }

/-- What Kitalulus stores with a detail. -/
def mergeKitalulusDetail (job : RawSourceJob) (detail : DetailResult) : RawSourceJob :=
  job.merged detail.sourceUrl (.dict detail.rawPayload) (.dict
    [("coverage", .str "available"), ("detailCompleteness", .str "complete"),
      ("attempted", .bool true), ("source", .str "VacancyBySlug")])

/-- `KitalulusDetailAdapter.fetch_enriched_job`. -/
def kitalulusFetchEnrichedJob (answer : DetailAnswer) (job : RawSourceJob) :
    Except PyException RawSourceJob := do
  let _ ← requireVisibleText job.rawPayload "slug" "Kitalulus list job missing slug for detail fetch"
  match answer.bind parseKitalulusDetailPayload with
  | .ok detail => .ok (mergeKitalulusDetail job detail)
  | .error (.scraper .fetch _ _ retryable _) => .ok (mergeKitalulusMissing job "FetchError" retryable)
  | .error (.scraper .parse _ _ retryable _) => .ok (mergeKitalulusMissing job "ParseError" retryable)
  | .error exc => .error exc

/-! ### All sources -/

/-- How each source enriches a list job; Glints and Kalibrr make no detail request. -/
def enrichJob : SourcePlatform → DetailAnswer → RawSourceJob → Except PyException RawSourceJob
  | .dealls, answer, job => deallsFetchEnrichedJob answer job
  | .glints, _, job => .ok (mergeGlintsListWithFallback job)
  | .jobstreet, answer, job => jobstreetFetchEnrichedJob answer job
  | .kalibrr, _, job => mergeKalibrrListAndDetail job
  | .kitalulus, answer, job => kitalulusFetchEnrichedJob answer job

end Bisakerja
