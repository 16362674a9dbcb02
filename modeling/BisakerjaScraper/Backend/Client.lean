import BisakerjaScraper.Python.Json

/-! The HTTP client that posts job payloads to the backend.

    An answer in 200..299 is a success; 429 and four of the 5xx codes are retryable server errors,
    as is a transport failure; every other code is a client error. Retryable answers are asked for
    again up to `max_retries` times within one call. -/

namespace Bisakerja

/-- What one HTTP request comes back with; the body is `none` when it is not JSON. -/
inductive HttpOutcome where
  | response (statusCode : ℕ) (body : Option Json)
  | transportError

/-- `BackendSyncResult`. -/
structure BackendSyncResult where
  statusCode : ℕ
  responseSummary : Dict

/-- The fields of a `BackendSyncError`. -/
structure BackendSyncErrorInfo where
  message : String
  statusCode : Option ℕ
  responseSummary : Dict

/-- `BackendSyncClientError` and `BackendSyncServerError`. -/
inductive BackendSyncError where
  | client (info : BackendSyncErrorInfo)
  | server (info : BackendSyncErrorInfo)

/-- `RETRYABLE_STATUS_CODES`. -/
def retryableStatusCodes : List ℕ := [429, 500, 502, 503, 504]

/-- `f"{status_code // 100}xx"`. -/
def statusClassOf (statusCode : ℕ) : String := toString (statusCode / 100) ++ "xx"

/-- One entry of `validationErrors`. -/
def summarizeDetail (item : Json) : Json :=
  .dict [("path", item.get "path"), ("code", item.get "code"), ("message", item.get "message")]

/-- The fields of the body's `error` object that the summary keeps. -/
def summarizeError (summary : Dict) : Json → Dict
  | .dict error =>
    let summary := summary.set "errorCode" (Dict.get error "code")
    match Dict.get error "details" with
    | .list details =>
      summary.set "validationErrors"
        (.list (((details.take 10).filter Json.isDict).map summarizeDetail))
    | _ => summary
  | _ => summary

/-- `summarize_response`. -/
def summarizeResponse (statusCode : ℕ) (body : Option Json) : Dict :=
  let summary : Dict :=
    [("statusCode", .int statusCode), ("statusClass", .str (statusClassOf statusCode))]
  match body with
  | some (.dict body) =>
    let summary := ["success", "message", "code"].foldl
      (fun acc key => if Dict.contains body key then Dict.set acc key (Dict.get body key) else acc)
      summary
    summarizeError summary (Dict.get body "error")
  | _ => summary

/-- `_post`: how one HTTP outcome is classified. -/
def classifyOutcome (path : String) : HttpOutcome → Except BackendSyncError BackendSyncResult
  | .transportError => .error (.server ⟨"backend sync transport failed", none, []⟩)
  | .response statusCode body =>
    let summary := (summarizeResponse statusCode body).set "endpointPath" (.str path)
    if 200 ≤ statusCode ∧ statusCode < 300 then .ok ⟨statusCode, summary⟩
    else if statusCode ∈ retryableStatusCodes then
      .error (.server ⟨"backend sync retryable failure", some statusCode, summary⟩)
    else .error (.client ⟨"backend sync rejected payload", some statusCode, summary⟩)

/-- `BackendSyncClient`: the endpoint, the retry setting and the backend behind it. The backend
    may answer differently at each call, at each attempt of a call and to each body. -/
structure BackendSyncClient where
  path : String := "/api/v1/internal/scraper/jobs"
  maxRetries : ℕ
  http : ℕ → ℕ → Json → HttpOutcome

namespace BackendSyncClient

/-- `_post`. -/
def post (client : BackendSyncClient) (call attempt : ℕ) (payload : Json) :
    Except BackendSyncError BackendSyncResult :=
  classifyOutcome client.path (client.http call attempt payload)

/-- The loop of `sync_payload` from attempt `attempt` on, `left` attempts after it. -/
def syncPayloadFrom (client : BackendSyncClient) (call : ℕ) (payload : Json) (attempt : ℕ) :
    ℕ → Except BackendSyncError BackendSyncResult
  | 0 => client.post call attempt payload
  | left + 1 =>
    match client.post call attempt payload with
    | .error (.server _) => syncPayloadFrom client call payload (attempt + 1) left
    | answer => answer

/-- `sync_payload`. -/
def syncPayload (client : BackendSyncClient) (call : ℕ) (payload : Json) :
    Except BackendSyncError BackendSyncResult :=
  client.syncPayloadFrom call payload 0 client.maxRetries

/-- `sync_jobs`. -/
def syncJobs (client : BackendSyncClient) (call : ℕ) (jobs : List Json) :
    Except BackendSyncError BackendSyncResult :=
  client.syncPayload call (.dict [("jobs", .list jobs)])

end BackendSyncClient

/-! ### What a call answers -/

/-- A call whose first attempt is not a retryable failure ends with that attempt. -/
theorem BackendSyncClient.syncJobs_eq_post (client : BackendSyncClient) (call : ℕ)
    (jobs : List Json)
    (h : ∀ info, client.post call 0 (.dict [("jobs", .list jobs)]) ≠ .error (.server info)) :
    client.syncJobs call jobs = client.post call 0 (.dict [("jobs", .list jobs)]) := by
  unfold syncJobs syncPayload
  cases client.maxRetries with
  | zero => rfl
  | succ left =>
    rw [syncPayloadFrom]
    split
    · next info heq => exact absurd heq (h info)
    · rfl

end Bisakerja
