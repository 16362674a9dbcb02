import BisakerjaScraper.Sources.ListErrors

/-! Payloads found in web pages.

    JobStreet answers a search with a web page that holds the jobs in a script; Kalibrr needs the
    build id of its home page before it can be asked. Both read JSON out of the text. -/

namespace Bisakerja
open Schemes

/-- The text before and after the first occurrence of a needle. -/
def splitAtFirst (needle : List Char) : List Char → Option (List Char × List Char)
  | [] => if needle = [] then some ([], []) else none
  | c :: rest =>
    if needle.isPrefixOf (c :: rest) then some ([], (c :: rest).drop needle.length)
    else (splitAtFirst needle rest).map fun (before, after) => (c :: before, after)

/-! ### JobStreet -/

/-- The loop of `extract_balanced_json_object`: the text up to the bracket that closes the first
    object, brackets in strings left aside. -/
def balancedObject (depth : ℤ) (inString escaped : Bool) : List Char → Option (List Char)
  | [] => none
  | c :: rest =>
    if inString then
      (if escaped then balancedObject depth true false rest
        else if c = '\\' then balancedObject depth true true rest
        else balancedObject depth (c ≠ '"') false rest).map (c :: ·)
    else if c = '"' then (balancedObject depth true escaped rest).map (c :: ·)
    else if c = '{' then (balancedObject (depth + 1) false escaped rest).map (c :: ·)
    else if c = '}' then
      if depth - 1 = 0 then some [c]
      else (balancedObject (depth - 1) false escaped rest).map (c :: ·)
    else (balancedObject depth false escaped rest).map (c :: ·)

/-- `extract_balanced_json_object`. -/
def extractBalancedJsonObject (text : List Char) : Except PyException String :=
  match balancedObject 0 false false text with
  | some object => .ok (String.ofList object)
  | none => .error (.plain "ValueError" "unterminated JSON object")

/-- The jobs and the total of the search data, as a list payload. -/
def searchPayload (data : Json) : Except PyException Dict :=
  match (data.get "results").get "results" |>.get "jobs" with
  | .list jobs => .ok [("data", .dict [("jobSearchV6", .dict
      [("data", .list jobs), ("totalCount", (data.get "results").get "totalCount")])])]
  | _ => .error (.plain "ValueError" "JobStreet page missing jobs list")

/-- `jobstreet_payload_from_search_page`. -/
def jobstreetPayloadFromSearchPage (loads : JsonLoads) (html : String) : Except PyException Dict :=
  match splitAtFirst "window.SEEK_REDUX_DATA = ".toList html.toList with
  | none => .error (.plain "ValueError" "JobStreet page missing search data")
  | some (_, text) => do
    let object ← extractBalancedJsonObject text
    let data ← loads.ofText object
    searchPayload data

/-- A search page the extraction cannot read: it has no search data, the object is not terminated,
    decoding it raises, or it has no list of jobs. -/
inductive SearchPageBroken (loads : JsonLoads) (html : String) : Prop
  | noData (h : splitAtFirst "window.SEEK_REDUX_DATA = ".toList html.toList = none)
  | unterminated {before text : List Char}
      (h : splitAtFirst "window.SEEK_REDUX_DATA = ".toList html.toList = some (before, text))
      (hobject : balancedObject 0 false false text = none)
  | undecodable {before text object : List Char} {exc : PyException}
      (h : splitAtFirst "window.SEEK_REDUX_DATA = ".toList html.toList = some (before, text))
      (hobject : balancedObject 0 false false text = some object)
      (hloads : loads.ofText (String.ofList object) = .error exc)
      (hexc : exc.isFetchOrParse = false)
  | noJobs {before text object : List Char} {data : Json}
      (h : splitAtFirst "window.SEEK_REDUX_DATA = ".toList html.toList = some (before, text))
      (hobject : balancedObject 0 false false text = some object)
      (hloads : loads.ofText (String.ofList object) = .ok data)
      (hjobs : ∀ jobs, ((data.get "results").get "results").get "jobs" ≠ .list jobs)

theorem escapes_searchPayload_iff {data : Json} : Escapes (searchPayload data) ↔
    ∀ jobs, ((data.get "results").get "results").get "jobs" ≠ .list jobs := by
  unfold searchPayload
  rcases ((data.get "results").get "results").get "jobs" with _ | _ | _ | _ | _ | jobs | _ <;>
    simp [PyException.plain, PyException.isFetchOrParse]

/-- No exception of the extraction is caught: neither its own nor that of `json.loads`. -/
theorem escapes_jobstreetPayloadFromSearchPage_iff {loads : JsonLoads} {html : String} :
    Escapes (jobstreetPayloadFromSearchPage loads html) ↔ SearchPageBroken loads html := by
  unfold jobstreetPayloadFromSearchPage
  cases hsplit : splitAtFirst "window.SEEK_REDUX_DATA = ".toList html.toList with
  | none => exact iff_of_true (by simp [PyException.plain, PyException.isFetchOrParse]) (.noData hsplit)
  | some parts =>
    obtain ⟨before, text⟩ := parts
    dsimp only
    rw [Escapes, fails_bind_iff]
    unfold extractBalancedJsonObject
    cases hobject : balancedObject 0 false false text with
    | none =>
      refine iff_of_true (.inl ?_) (.unterminated hsplit hobject)
      simp [PyException.plain, PyException.isFetchOrParse]
    | some object =>
      simp only [fails_ok, false_or, Except.ok.injEq, exists_eq_left', fails_bind_iff]
      constructor
      · rintro (⟨exc, hloads, hexc⟩ | ⟨data, hloads, hdata⟩)
        · exact .undecodable hsplit hobject hloads hexc
        · exact .noJobs hsplit hobject hloads (escapes_searchPayload_iff.mp hdata)
      · rintro (h | ⟨h, ho⟩ | ⟨h, ho, hloads, hexc⟩ | ⟨h, ho, hloads, hjobs⟩)
        · rw [hsplit] at h
          cases h
        · rw [hsplit] at h
          cases h
          rw [hobject] at ho
          cases ho
        · rw [hsplit] at h
          cases h
          rw [hobject] at ho
          cases ho
          exact .inl ⟨_, hloads, hexc⟩
        · rw [hsplit] at h
          cases h
          rw [hobject] at ho
          cases ho
          exact .inr ⟨_, hloads, escapes_searchPayload_iff.mpr hjobs⟩

/-! ### Kalibrr -/

/-- `_extract_next_data` and `parse_kalibrr_build_id_from_html`. -/
def parseKalibrrBuildIdFromHtml (loads : JsonLoads) (html : String) : Except PyException String :=
  match splitAtFirst "<script id=\"__NEXT_DATA__\" type=\"application/json\">".toList html.toList with
  | none => .error (parseError "Kalibrr page missing __NEXT_DATA__ script")
  | some (_, text) =>
    match splitAtFirst "</script>".toList text with
    | none => .error (parseError "Kalibrr page has unterminated __NEXT_DATA__ script")
    | some (script, _) =>
      match loads.ofText (String.ofList script) with
      | .ok (.dict data) => requireText data "buildId" "Kalibrr page data missing buildId"
      | .ok _ => .error (parseError "Kalibrr page data root must be an object")
      | .error exc =>
        if exc.isJsonDecodeError then .error (parseError "Kalibrr page data is not valid JSON")
        else .error exc

/-- The answers to the requests a Kalibrr page may take: the home page, when no build id is known
    yet, the page, and both once more when the page is gone. -/
structure KalibrrResponses where
  home : Except PyException Body
  page : Except PyException Body
  refreshedHome : Except PyException Body
  refreshedPage : Except PyException Body

/-- `resolve` where the build id is not cached. -/
def resolveKalibrrBuildId (loads : JsonLoads) (home : Except PyException Body) :
    Except PyException String :=
  (requestText home).bind (parseKalibrrBuildIdFromHtml loads)

/-- `request_kalibrr_data_with_build_refresh`. -/
def requestKalibrrData (loads : JsonLoads) (cached : Bool) (responses : KalibrrResponses) :
    Except PyException Dict := do
  if !cached then
    let _ ← resolveKalibrrBuildId loads responses.home
  match requestJson loads responses.page with
  | .ok payload => .ok payload
  | .error (.scraper .fetch message externalId retryable details) =>
    match details.get "statusCode" with
    | .int 404 => do
      let _ ← resolveKalibrrBuildId loads responses.refreshedHome
      requestJson loads responses.refreshedPage
    | _ => .error (.scraper .fetch message externalId retryable details)
  | .error exc => .error exc

/-- The home page cannot be read: its text is broken, or decoding its script raises something other
    than a `JSONDecodeError`. -/
def HomeBroken (loads : JsonLoads) (home : Except PyException Body) : Prop :=
  TextBroken home ∨ ∃ html, requestText home = .ok html ∧ ∃ before text script after exc,
    splitAtFirst "<script id=\"__NEXT_DATA__\" type=\"application/json\">".toList html.toList
        = some (before, text) ∧
      splitAtFirst "</script>".toList text = some (script, after) ∧
      loads.ofText (String.ofList script) = .error exc ∧
      exc.isJsonDecodeError = false ∧ exc.isFetchOrParse = false

/-- The page is gone: its request ends with status 404. -/
def PageGone (loads : JsonLoads) (page : Except PyException Body) : Prop :=
  ∃ message externalId retryable details,
    requestJson loads page = .error (.scraper .fetch message externalId retryable details) ∧
      details.get "statusCode" = .int 404

/-- One of the requests of a Kalibrr page is broken, and is made. -/
inductive KalibrrBroken (loads : JsonLoads) (cached : Bool) (responses : KalibrrResponses) : Prop
  | home (hcached : cached = false) (h : HomeBroken loads responses.home)
  | page (hhome : cached = false → (resolveKalibrrBuildId loads responses.home).isOk = true)
      (h : ResponseBroken loads responses.page)
  | refreshedHome (hhome : cached = false → (resolveKalibrrBuildId loads responses.home).isOk = true)
      (hgone : PageGone loads responses.page) (h : HomeBroken loads responses.refreshedHome)
  | refreshedPage (hhome : cached = false → (resolveKalibrrBuildId loads responses.home).isOk = true)
      (hgone : PageGone loads responses.page)
      (hrefreshed : (resolveKalibrrBuildId loads responses.refreshedHome).isOk = true)
      (h : ResponseBroken loads responses.refreshedPage)

theorem escapes_resolveKalibrrBuildId_iff {loads : JsonLoads} {home : Except PyException Body} :
    Escapes (resolveKalibrrBuildId loads home) ↔ HomeBroken loads home := by
  refine escapes_bind_iff.trans (or_congr escapes_requestText_iff
    (exists_congr fun html => and_congr_right fun _ => ?_))
  unfold parseKalibrrBuildIdFromHtml
  generalize "<script id=\"__NEXT_DATA__\" type=\"application/json\">".toList = opening
  generalize "</script>".toList = closing
  rcases splitAtFirst opening html.toList with _ | ⟨before, text⟩
  · simp [parseError, PyException.isFetchOrParse]
  rcases hscript : splitAtFirst closing text with _ | ⟨script, after⟩
  · simp [PyException.isFetchOrParse, parseError, hscript]
  cases hloads : loads.ofText (String.ofList script) with
  | ok data => cases data <;> simp [parseError, PyException.isFetchOrParse, hscript, hloads]
  | error exc =>
    by_cases hdecode : exc.isJsonDecodeError = true <;>
      simp [hscript, hloads, hdecode, parseError, PyException.isFetchOrParse]

/-- A request whose answer is not read comes before another. -/
theorem escapes_then_iff {α β : Type} {x : Except PyException α} {y : Except PyException β} :
    Escapes (x >>= fun _ => y) ↔ Escapes x ∨ x.isOk = true ∧ Escapes y := by
  rw [escapes_bind_iff]
  cases x <;> simp [Except.isOk, Except.toBool]

/-- The request of a page whose build id is known. -/
theorem escapes_requestKalibrrData_cached_iff {loads : JsonLoads} {responses : KalibrrResponses} :
    Escapes (requestKalibrrData loads true responses) ↔
      ResponseBroken loads responses.page ∨ PageGone loads responses.page ∧
        (HomeBroken loads responses.refreshedHome ∨
          (resolveKalibrrBuildId loads responses.refreshedHome).isOk = true ∧
            ResponseBroken loads responses.refreshedPage) := by
  rw [← escapes_requestJson_iff, ← escapes_requestJson_iff, ← escapes_resolveKalibrrBuildId_iff]
  unfold requestKalibrrData PageGone
  rcases requestJson loads responses.page with exc | payload
  · rcases exc with ⟨errorClass, message, externalId, retryable, details⟩ | _
    · cases errorClass with
      | fetch =>
        simp only [Bool.not_true, Bool.false_eq_true, if_false]
        have hexc : (PyException.scraper .fetch message externalId retryable details).isFetchOrParse
            = true := rfl
        split
        · next hcode => simp [escapes_then_iff, hcode, hexc]
        · next hcode => simpa [hexc] using fun h => absurd h hcode
      | _ => simp
    · simp
  · simp

theorem escapes_requestKalibrrData_iff {loads : JsonLoads} {cached : Bool}
    {responses : KalibrrResponses} :
    Escapes (requestKalibrrData loads cached responses) ↔ KalibrrBroken loads cached responses := by
  have hstep : Escapes (requestKalibrrData loads cached responses) ↔
      cached = false ∧ HomeBroken loads responses.home ∨
        (cached = false → (resolveKalibrrBuildId loads responses.home).isOk = true) ∧
          Escapes (requestKalibrrData loads true responses) := by
    cases cached with
    | true => simp
    | false =>
      rw [← escapes_resolveKalibrrBuildId_iff]
      have hseq := escapes_then_iff (x := resolveKalibrrBuildId loads responses.home)
        (y := requestKalibrrData loads true responses)
      change Escapes (requestKalibrrData loads false responses) ↔ _ at hseq
      simpa using hseq
  rw [hstep, escapes_requestKalibrrData_cached_iff]
  constructor
  · rintro (⟨hcached, h⟩ | ⟨hhome, h | ⟨hgone, h | ⟨hrefreshed, h⟩⟩⟩)
    · exact .home hcached h
    · exact .page hhome h
    · exact .refreshedHome hhome hgone h
    · exact .refreshedPage hhome hgone hrefreshed h
  · rintro (⟨hcached, h⟩ | ⟨hhome, h⟩ | ⟨hhome, hgone, h⟩ | ⟨hhome, hgone, hrefreshed, h⟩)
    · exact .inl ⟨hcached, h⟩
    · exact .inr ⟨hhome, .inl h⟩
    · exact .inr ⟨hhome, .inr ⟨hgone, .inl h⟩⟩
    · exact .inr ⟨hhome, .inr ⟨hgone, .inr ⟨hrefreshed, h⟩⟩⟩

end Bisakerja
