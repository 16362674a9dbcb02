import BisakerjaScraper.Pipeline.SourcePages
import BisakerjaScraper.Sources.WebPages

/-! The sources, body by body.

    The payloads of a source are what its client makes of the bytes of the answers. A list page or a
    detail is broken where an exception passes the `except` clauses: out of the request, out of
    reading the body, or out of a parser. -/

namespace Bisakerja
open Schemes

/-- What a source answers with: to the `n`-th list request, at a position and with a page size, and
    to the detail request for a job of the `n`-th page. Kalibrr may be asked for its home page first,
    and for both once more where a page is gone. -/
structure SourceBodies where
  platform : SourcePlatform
  page : ℕ → ℤ → ℤ → Except PyException Body
  home : Except PyException Body
  refreshedHome : ℕ → Except PyException Body
  refreshedPage : ℕ → ℤ → ℤ → Except PyException Body
  detail : ℕ → RawSourceJob → Except PyException Body

namespace SourceBodies

variable (bodies : SourceBodies) (loads : JsonLoads)

/-- The requests of the `n`-th Kalibrr page. The resolver keeps the build id of the first one. -/
def kalibrrResponses (n : ℕ) (position pageSize : ℤ) : KalibrrResponses where
  home := bodies.home
  page := bodies.page n position pageSize
  refreshedHome := bodies.refreshedHome n
  refreshedPage := bodies.refreshedPage n position pageSize

/-- The payload of a list page. -/
def pagePayload (n : ℕ) (position pageSize : ℤ) : Except PyException Dict :=
  match bodies.platform with
  | .jobstreet =>
    (requestText (bodies.page n position pageSize)).bind (jobstreetPayloadFromSearchPage loads)
  | .kalibrr => requestKalibrrData loads (2 ≤ n) (bodies.kalibrrResponses n position pageSize)
  | _ => requestJson loads (bodies.page n position pageSize)

/-- The payloads of the source. -/
def payloads : SourcePayloads where
  platform := bodies.platform
  page := bodies.pagePayload loads
  detail n job := requestJson loads (bodies.detail n job)

/-- A list page is broken: its answer, its body, or a number on it. -/
def PageBroken (n : ℕ) (position pageSize : ℤ) : Prop :=
  match bodies.platform with
  | .dealls => ResponseBroken loads (bodies.page n position pageSize)
  | .glints =>
    ResponseBroken loads (bodies.page n position pageSize) ∨
      ∃ payload, bodies.pagePayload loads n position pageSize = .ok payload ∧
        GlintsRefused position pageSize payload
  | .jobstreet =>
    (TextBroken (bodies.page n position pageSize) ∨
      ∃ html, requestText (bodies.page n position pageSize) = .ok html ∧
        SearchPageBroken loads html) ∨
      ∃ payload, bodies.pagePayload loads n position pageSize = .ok payload ∧
        JobstreetRefused position pageSize payload
  | .kalibrr =>
    KalibrrBroken loads (2 ≤ n) (bodies.kalibrrResponses n position pageSize) ∨
      ∃ payload, bodies.pagePayload loads n position pageSize = .ok payload ∧
        KalibrrRefused payload
  | .kitalulus =>
    ResponseBroken loads (bodies.page n position pageSize) ∨
      ∃ payload, bodies.pagePayload loads n position pageSize = .ok payload ∧
        KitalulusRefused pageSize payload

/-- A JobStreet detail whose share link has nothing before its query: the model of the detail refuses
    the source URL. -/
def ShareLinkRefused (payload : Dict) : Prop :=
  (payload.get "errors").truthy = false ∧
    ∃ (data detail job : Dict) (externalId : String),
      payload.get "data" = .dict data ∧ data.get "jobDetails" = .dict detail ∧
      detail.get "job" = .dict job ∧ nonEmptyText (job.get "id") = some externalId ∧
      jobstreetDetailSourceUrl job externalId = ""

/-- The detail of a job is asked for and is broken. -/
def DetailBroken (n : ℕ) (job : RawSourceJob) : Prop :=
  match bodies.platform with
  | .dealls =>
    nonEmptyText (job.rawPayload.get "slug") ≠ none ∧ ResponseBroken loads (bodies.detail n job)
  | .jobstreet =>
    ResponseBroken loads (bodies.detail n job) ∨
      ∃ payload, requestJson loads (bodies.detail n job) = .ok payload ∧ ShareLinkRefused payload
  | .kitalulus => ResponseBroken loads (bodies.detail n job)
  | _ => False

end SourceBodies

/-! ### Details -/

theorem not_escapes_requireVisibleText (payload : Dict) (key message : String) :
    ¬ Escapes (requireVisibleText payload key message) := by
  unfold requireVisibleText
  split
  · split <;> simp
  · simp

theorem not_escapes_parseDeallsDetailPayload (payload : Dict) :
    ¬ Escapes (parseDeallsDetailPayload payload) := by
  simp [parseDeallsDetailPayload, escapes_bind_iff]

theorem not_escapes_parseKitalulusDetailPayload (payload : Dict) :
    ¬ Escapes (parseKitalulusDetailPayload payload) := by
  unfold parseKitalulusDetailPayload
  split <;> simp [escapes_bind_iff, not_escapes_requireVisibleText]

theorem ok_requireDict_iff {payload entries : Dict} {key message : String} :
    requireDict payload key message = .ok entries ↔ payload.get key = .dict entries := by
  unfold requireDict
  split <;> simp_all

theorem ok_requireText_iff {payload : Dict} {key message s : String} :
    requireText payload key message = .ok s ↔ nonEmptyText (payload.get key) = some s := by
  unfold requireText
  split <;> simp_all

theorem escapes_parseJobstreetDetailPayload_iff {payload : Dict} :
    Escapes (parseJobstreetDetailPayload payload) ↔ SourceBodies.ShareLinkRefused payload := by
  unfold parseJobstreetDetailPayload SourceBodies.ShareLinkRefused
  by_cases herrors : (payload.get "errors").truthy = true
  · simp [herrors, escapes_bind_iff]
  · simp [herrors, escapes_bind_iff, ok_requireDict_iff, ok_requireText_iff]

namespace SourceBodies

variable {bodies : SourceBodies} {loads : JsonLoads}

/-- A detail request fails in a way that its adapter does not catch where the detail is broken. -/
theorem detailEscapes_iff {n : ℕ} {job : RawSourceJob} :
    DetailEscapes bodies.platform job (requestJson loads (bodies.detail n job)) ↔
      bodies.DetailBroken loads n job := by
  unfold DetailEscapes DetailBroken detailOutcome
  have hbind : ∀ parse : Dict → Except PyException DetailResult,
      (∃ exc, (requestJson loads (bodies.detail n job)).bind parse = .error exc ∧
          exc.isFetchOrParse = false) ↔
        ResponseBroken loads (bodies.detail n job) ∨
          ∃ payload, requestJson loads (bodies.detail n job) = .ok payload ∧
            Escapes (parse payload) :=
    fun parse => escapes_bind_iff.trans (or_congr_left escapes_requestJson_iff)
  cases bodies.platform with
  | dealls =>
    rcases nonEmptyText (job.rawPayload.get "slug") with _ | slug
    · simp
    · simpa [not_escapes_parseDeallsDetailPayload] using hbind parseDeallsDetailPayload
  | glints => simp
  | jobstreet =>
    simpa [escapes_parseJobstreetDetailPayload_iff] using hbind parseJobstreetDetailPayload
  | kalibrr => simp
  | kitalulus =>
    simpa [not_escapes_parseKitalulusDetailPayload] using hbind parseKitalulusDetailPayload

end SourceBodies

end Bisakerja
