import BisakerjaScraper.Pipeline.Fetchers

/-! The sources, payload by payload.

    A source answers the list requests and the detail requests with payloads; the list parser turns
    a list payload into a page. A list job that its parser accepts has what the merge needs, so only
    the answer to its detail request can make the enrichment raise. -/

namespace Bisakerja
open Schemes

/-- The payloads a source answers with: to the `n`-th list request, at a position and with a page
    size, and to the detail request for a job of the `n`-th page. -/
structure SourcePayloads where
  platform : SourcePlatform
  page : ℕ → ℤ → ℤ → Except PyException Dict
  detail : ℕ → RawSourceJob → DetailAnswer

namespace SourcePayloads

variable (payloads : SourcePayloads)

/-- The answers of the source, its list payloads read by a parser. -/
def answers {π : Type} (parse : ℤ → ℤ → Dict → Except PyException (ListResult π)) :
    SourceAnswers π where
  listPage n position pageSize := (payloads.page n position pageSize).bind (parse position pageSize)
  detail := payloads.detail

/-- The feed of the source. -/
def feed : SourceFeed :=
  match payloads.platform with
  | .dealls => .dealls (payloads.answers fun _ _ => parseDeallsListPayload)
  | .glints => .glints (payloads.answers parseGlintsListPayload)
  | .jobstreet => .jobstreet (payloads.answers parseJobstreetListPayload)
  | .kalibrr => .kalibrr (payloads.answers fun _ _ => parseKalibrrListPayload)
  | .kitalulus => .kitalulus (payloads.answers parseKitalulusListPayload)

end SourcePayloads

/-! ### Accepted list jobs -/

/-- The list parser of the source accepted the job. -/
def RawSourceJob.Accepted (platform : SourcePlatform) (job : RawSourceJob) : Prop :=
  ∃ json, parseRawJob platform json = .ok job

/-- What becomes of the answer to the detail request for a job, the parser included. Dealls makes no
    request without a slug, Glints and Kalibrr make none. -/
def detailOutcome (platform : SourcePlatform) (job : RawSourceJob) (answer : DetailAnswer) :
    Option (Except PyException DetailResult) :=
  match platform with
  | .dealls =>
    (nonEmptyText (job.rawPayload.get "slug")).map fun _ => answer.bind parseDeallsDetailPayload
  | .glints => none
  | .jobstreet => some (answer.bind parseJobstreetDetailPayload)
  | .kalibrr => none
  | .kitalulus => some (answer.bind parseKitalulusDetailPayload)

/-- The detail request for a job fails in a way that its adapter does not catch. -/
def DetailEscapes (platform : SourcePlatform) (job : RawSourceJob) (answer : DetailAnswer) : Prop :=
  ∃ exc, detailOutcome platform job answer = some (.error exc) ∧ exc.isFetchOrParse = false

/-- Every job of a mapped list was accepted. -/
theorem accepted_of_mapM {platform : SourcePlatform} {jobs : List Json}
    {rawJobs : List RawSourceJob} (h : jobs.mapM (parseRawJob platform) = .ok rawJobs) :
    ∀ job ∈ rawJobs, job.Accepted platform := by
  intro job hjob
  obtain ⟨json, -, hparse⟩ := mem_of_mapM_ok h hjob
  exact ⟨json, hparse⟩

/-- The jobs of a page come from its parser. -/
def AcceptsJobs {π : Type} (parse : ℤ → ℤ → Dict → Except PyException (ListResult π))
    (platform : SourcePlatform) : Prop :=
  ∀ position pageSize payload result, parse position pageSize payload = .ok result →
    ∀ job ∈ result.rawJobs, job.Accepted platform

theorem parseDeallsListPayload_accepted :
    AcceptsJobs (fun _ _ => parseDeallsListPayload) .dealls := by
  intro position pageSize payload result h
  obtain ⟨data, -, h⟩ := ok_bind_iff.mp h
  obtain ⟨docs, -, h⟩ := ok_bind_iff.mp h
  obtain ⟨⟨⟩, -, h⟩ := ok_bind_iff.mp h
  obtain ⟨rawJobs, hrawJobs, h⟩ := ok_bind_iff.mp h
  cases h
  exact accepted_of_mapM hrawJobs

theorem parseGlintsListPayload_accepted : AcceptsJobs parseGlintsListPayload .glints := by
  intro position pageSize payload result h
  obtain ⟨listing, -, h⟩ := ok_bind_iff.mp h
  obtain ⟨⟨⟩, -, h⟩ := ok_bind_iff.mp h
  obtain ⟨rawJobs, hrawJobs, h⟩ := ok_bind_iff.mp h
  cases h
  exact accepted_of_mapM hrawJobs

theorem parseJobstreetListPayload_accepted : AcceptsJobs parseJobstreetListPayload .jobstreet := by
  intro position pageSize payload result h
  obtain ⟨listing, -, h⟩ := ok_bind_iff.mp h
  obtain ⟨pagination, -, h⟩ := ok_bind_iff.mp h
  obtain ⟨rawJobs, hrawJobs, h⟩ := ok_bind_iff.mp h
  cases h
  exact accepted_of_mapM hrawJobs

theorem parseKalibrrListPayload_accepted :
    AcceptsJobs (fun _ _ => parseKalibrrListPayload) .kalibrr := by
  intro position pageSize payload result h
  obtain ⟨listing, -, h⟩ := ok_bind_iff.mp h
  obtain ⟨pagination, -, h⟩ := ok_bind_iff.mp h
  obtain ⟨rawJobs, hrawJobs, h⟩ := ok_bind_iff.mp h
  cases h
  exact accepted_of_mapM hrawJobs

theorem parseKitalulusListPayload_accepted : AcceptsJobs parseKitalulusListPayload .kitalulus := by
  intro position pageSize payload result h
  obtain ⟨listing, -, h⟩ := ok_bind_iff.mp h
  obtain ⟨pagination, -, h⟩ := ok_bind_iff.mp h
  obtain ⟨rawJobs, hrawJobs, h⟩ := ok_bind_iff.mp h
  cases h
  exact accepted_of_mapM hrawJobs

/-- The jobs of a page that was answered were accepted. -/
theorem SourcePayloads.accepted_of_page {π : Type} {payloads : SourcePayloads}
    {parse : ℤ → ℤ → Dict → Except PyException (ListResult π)} {platform : SourcePlatform}
    (hparse : AcceptsJobs parse platform) {n : ℕ} {position pageSize : ℤ} {result : ListResult π}
    (hpage : (payloads.answers parse).listPage n position pageSize = .ok result) :
    ∀ job ∈ result.rawJobs, job.Accepted platform := by
  obtain ⟨payload, -, hresult⟩ := ok_bind_iff.mp hpage
  exact hparse position pageSize payload result hresult

/-- A Kalibrr job that was accepted has its id. -/
theorem kalibrrExternalId_of_accepted {job : RawSourceJob} (h : job.Accepted .kalibrr) :
    ∃ externalId, kalibrrExternalId job.rawPayload = .ok externalId := by
  obtain ⟨json, hparse⟩ := h
  obtain ⟨rawJob, -, hparse⟩ := ok_bind_iff.mp hparse
  obtain ⟨externalId, hid, hparse⟩ := ok_bind_iff.mp hparse
  cases hparse
  unfold kalibrrExternalId
  unfold kalibrrListId at hid
  dsimp only
  revert hid
  rcases rawJob.get "id" with - | - | n | - | s | - | - <;> intro hid
  all_goals first | exact ⟨_, rfl⟩ | cases hid | skip
  by_cases hempty : s = ""
  · simp [hempty] at hid
  · exact ⟨s, by simp [hempty]⟩

theorem eq_str_of_requireKitalulusText {value : Json} {message slug : String}
    {externalId : Option String} (h : requireKitalulusText value message externalId = .ok slug) :
    value = .str slug ∧ strip slug ≠ "" := by
  unfold requireKitalulusText at h
  split at h
  · split at h
    · cases h
    · next hblank => exact ⟨congrArg Json.str (Except.ok.inj h), Except.ok.inj h ▸ hblank⟩
  · cases h

/-- A Kitalulus job that was accepted has its slug. -/
theorem slug_of_accepted {job : RawSourceJob} (h : job.Accepted .kitalulus) (message : String) :
    ∃ slug, requireVisibleText job.rawPayload "slug" message = .ok slug := by
  obtain ⟨json, hparse⟩ := h
  obtain ⟨rawJob, -, hparse⟩ := ok_bind_iff.mp hparse
  obtain ⟨externalId, -, hparse⟩ := ok_bind_iff.mp hparse
  obtain ⟨slug, hslug, hparse⟩ := ok_bind_iff.mp hparse
  obtain ⟨title, -, hparse⟩ := ok_bind_iff.mp hparse
  obtain ⟨company, -, hparse⟩ := ok_bind_iff.mp hparse
  cases hparse
  obtain ⟨htext, hblank⟩ := eq_str_of_requireKitalulusText hslug
  refine ⟨slug, ?_⟩
  dsimp only
  rw [requireVisibleText, htext]
  exact if_neg hblank

/-- The enrichment of an accepted list job raises exactly when its detail request fails in a way
    that is not caught. -/
theorem enrichJob_error_iff {platform : SourcePlatform} {job : RawSourceJob}
    (answer : DetailAnswer) (haccepted : job.Accepted platform) :
    (∃ exc, enrichJob platform answer job = .error exc) ↔ DetailEscapes platform job answer := by
  unfold DetailEscapes
  cases platform with
  | dealls =>
    simp only [enrichJob, deallsFetchEnrichedJob, detailOutcome]
    rcases nonEmptyText (job.rawPayload.get "slug") with - | slug
    · simp
    · rcases answer.bind parseDeallsDetailPayload with (⟨- | -⟩ | -) | detail <;>
        simp [PyException.isFetchOrParse]
  | glints => simp [enrichJob, detailOutcome]
  | jobstreet =>
    simp only [enrichJob, jobstreetFetchEnrichedJob, detailOutcome]
    rcases answer.bind parseJobstreetDetailPayload with (⟨- | -⟩ | -) | detail <;>
      simp [PyException.isFetchOrParse]
  | kalibrr =>
    obtain ⟨externalId, hid⟩ := kalibrrExternalId_of_accepted haccepted
    simp [enrichJob, mergeKalibrrListAndDetail, parseKalibrrDetailPayload, hid, detailOutcome,
      Except.map]
  | kitalulus =>
    obtain ⟨slug, hslug⟩ := slug_of_accepted haccepted
      "Kitalulus list job missing slug for detail fetch"
    simp only [enrichJob, kitalulusFetchEnrichedJob, hslug, ok_bind, detailOutcome]
    rcases answer.bind parseKitalulusDetailPayload with (⟨- | -⟩ | -) | detail <;>
      simp [PyException.isFetchOrParse]

end Bisakerja
