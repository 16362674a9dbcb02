import BisakerjaScraper.Pipeline.StoredRows

/-! Which timestamps lose a source.

    The timestamps of a fetch are read in one pass over its jobs, so one that raises takes all jobs
    with it. A text that is no datetime reads as none; a datetime whose UTC time is no datetime
    raises, and so does an epoch number outside the range of datetimes. -/

namespace Bisakerja
open Schemes

namespace DateText

variable (dates : DateText)

/-- The datetime a value spells, with its UTC offset if it has one. -/
def spelled : Json → Option (Time × Option ℤ)
  | .str s =>
    if strip s = "" then none
    else dates.fromIsoformat
      (if endsWith (strip s) "Z" then dropLast (strip s) 1 ++ "+00:00" else strip s)
  | _ => none

/-- The UTC time of a datetime is a datetime. -/
def HasUtc : Time × Option ℤ → Prop
  | (_, none) => True
  | (time, some offset) => datetimeMin ≤ time - offset ∧ time - offset ≤ datetimeMax

instance (spelled : Time × Option ℤ) : Decidable (HasUtc spelled) := by
  rcases spelled with ⟨time, _ | offset⟩ <;> unfold HasUtc <;> infer_instance

/-- The first of some values that spells a datetime has a UTC time. -/
def FirstHasUtc (values : List Json) : Prop := ∀ found ∈ values.findSome? dates.spelled, HasUtc found

/-- The values an extractor tries one after the other. -/
def triedValues : SourcePlatform → Dict → List Json
  | .dealls, payload => [payload.get "publishedAt", payload.get "latestUpdatedAt"]
  | .glints, payload => [payload.get "createdAt", payload.get "updatedAt"]
  | .jobstreet, payload => [(payload.get "listingDate").get "dateTimeUtc",
      (((payload.get "detail").get "job").get "listedAt").get "dateTimeUtc"]
  | .kalibrr, payload =>
    [payload.get "activationDate", payload.get "createdAt", payload.get "updatedAt"]
  | .kitalulus, payload =>
    [(payload.get "detail").get "updatedAt",
      Dict.get (match payload.get "list" with
        | .dict entries => entries
        | _ => payload) "updatedAtStr"]

/-- The epoch number that the Kitalulus extractor reads before anything else. -/
def epochNumber : SourcePlatform → Dict → Option Json
  | .kitalulus, payload =>
    match (payload.get "detail").get "updatedAt" with
    | .int n => some (.int n)
    | .float x => some (.float x)
    | _ => none
  | _, _ => none

/-- The timestamp of a payload can be read: its epoch number is one `fromtimestamp` takes, or it has
    none and the first datetime it spells has a UTC time. -/
def Convertible (platform : SourcePlatform) (payload : Dict) : Prop :=
  match epochNumber platform payload with
  | some number =>
    ∃ time, dates.fromTimestamp number (if isMicroseconds number then 1000000 else 1000) = .ok time
  | none => dates.FirstHasUtc (triedValues platform payload)

variable {dates}

theorem parseSourceDatetime_of_none {value : Json} (h : dates.spelled value = none) :
    dates.parseSourceDatetime value = .ok none := by
  unfold spelled at h
  unfold parseSourceDatetime
  cases value with
  | str s =>
    dsimp only at h ⊢
    split at h
    · next hempty => rw [if_pos hempty]
    · next hne => rw [if_neg hne, h]
  | _ => rfl

theorem parseSourceDatetime_of_some {value : Json} {found : Time × Option ℤ}
    (h : dates.spelled value = some found) :
    (HasUtc found → ∃ time, dates.parseSourceDatetime value = .ok (some time)) ∧
      (¬ HasUtc found → ∃ exc, dates.parseSourceDatetime value = .error exc) := by
  unfold spelled at h
  unfold parseSourceDatetime HasUtc
  cases value with
  | str s =>
    dsimp only at h ⊢
    split at h
    · cases h
    · next hne =>
      rw [if_neg hne, h]
      rcases found with ⟨time, _ | offset⟩
      · exact ⟨fun _ => ⟨time, rfl⟩, fun hnot => absurd trivial hnot⟩
      · dsimp only
        constructor
        · intro hrange
          rw [if_pos hrange]
          exact ⟨_, rfl⟩
        · intro hrange
          rw [if_neg hrange]
          exact ⟨_, rfl⟩
  | _ => cases h

/-- Trying values one after the other ends well exactly when the first datetime has a UTC time. -/
theorem parseFirst_ok_iff (values : List Json) :
    (∃ time, dates.parseFirst values = .ok time) ↔ dates.FirstHasUtc values := by
  unfold FirstHasUtc
  induction values with
  | nil => exact iff_of_true ⟨none, rfl⟩ nofun
  | cons value rest ih =>
    rw [parseFirst, List.findSome?_cons]
    cases hspelled : dates.spelled value with
    | none =>
      rw [parseSourceDatetime_of_none hspelled]
      exact ih
    | some found =>
      obtain ⟨hok, hraise⟩ := parseSourceDatetime_of_some hspelled
      simp only [Option.mem_def, Option.some.injEq, forall_eq']
      constructor
      · rintro ⟨time, htime⟩
        by_contra hnot
        obtain ⟨exc, hexc⟩ := hraise hnot
        rw [hexc] at htime
        cases htime
      · intro hutc
        obtain ⟨time, htime⟩ := hok hutc
        rw [htime]
        exact ⟨some time, rfl⟩

/-- Only an epoch number is read in a way of its own. -/
theorem extractKitalulus_of_text {payload : Dict} (h : epochNumber .kitalulus payload = none) :
    dates.extractKitalulusSourceTimestamp payload
      = dates.parseFirst (triedValues .kitalulus payload) := by
  have hlast : ∀ value, dates.parseFirst [value] = dates.parseSourceDatetime value := by
    intro value
    unfold parseFirst parseFirst
    rcases dates.parseSourceDatetime value with exc | time
    · rfl
    · cases time <;> rfl
  unfold extractKitalulusSourceTimestamp triedValues
  rw [parseFirst, hlast]
  simp only [epochNumber] at h
  generalize (payload.get "detail").get "updatedAt" = value at h
  cases value with
  | int n => cases h
  | float x => cases h
  | _ => rfl

theorem extractKitalulus_of_number {payload : Dict} {number : Json}
    (h : epochNumber .kitalulus payload = some number) :
    (∃ time, dates.extractKitalulusSourceTimestamp payload = .ok time) ↔
      ∃ time, dates.fromTimestamp number (if isMicroseconds number then 1000000 else 1000)
        = .ok time := by
  have hparse : dates.parseKitalulusEpochDatetime ((payload.get "detail").get "updatedAt")
      = (dates.fromTimestamp number (if isMicroseconds number then 1000000 else 1000)).map some := by
    simp only [epochNumber] at h
    split at h
    · next heq =>
      cases h
      rw [heq]
      rfl
    · next heq =>
      cases h
      rw [heq]
      rfl
    · cases h
  unfold extractKitalulusSourceTimestamp
  rw [hparse]
  rcases dates.fromTimestamp number (if isMicroseconds number then 1000000 else 1000) with
    exc | time
  · exact iff_of_false (fun ⟨_, h⟩ => by cases h) fun ⟨_, h⟩ => by cases h
  · exact iff_of_true ⟨some time, rfl⟩ ⟨time, rfl⟩

/-- An extractor ends well exactly when the timestamp can be read. -/
theorem extractSourceTimestamp_ok_iff (platform : SourcePlatform) (payload : Dict) :
    (∃ time, dates.extractSourceTimestamp platform payload = .ok time) ↔
      dates.Convertible platform payload := by
  cases platform with
  | dealls => exact parseFirst_ok_iff _
  | glints => exact parseFirst_ok_iff _
  | jobstreet => exact parseFirst_ok_iff _
  | kalibrr => exact parseFirst_ok_iff _
  | kitalulus =>
    unfold Convertible
    cases hnumber : epochNumber .kitalulus payload with
    | some number => exact extractKitalulus_of_number hnumber
    | none =>
      rw [← parseFirst_ok_iff, ← extractKitalulus_of_text hnumber]
      rfl

end DateText

namespace ScrapeSource

variable (source : ScrapeSource) (env : ScrapeEnv) (fetched : PaginatedFetchResult)

/-- The jobs of a fetch that the source keeps. -/
def selected : List RawSourceJob := sliceTo fetched.rawJobs source.live.requestedLimit

/-- The session after the fetch is stored. -/
def afterFetch (start : JobSession) : ScrapeSession :=
  (source.scrapeSource env (.ok fetched) (FetchCall.session { source, fetched } start)).2

/-- The timestamp of every job is read, and a database that takes every write has every job. -/
structure KeepsSource : Prop where
  extracted : ∀ raw ∈ source.selected fetched, ∃ time,
    env.dates.extractSourceTimestamp source.live.platform raw.rawPayload = .ok time
  ordered : ∃ jobs, source.live.fetchRawJobs env.dates fetched = .ok jobs ∧
    ((orderFetchedRawJobs source.live.recencyMode jobs).map LiveRawJob.identity).Perm
      ((source.selected fetched).map fun raw => (raw.sourcePlatform, raw.externalId))
  persisted : (∀ externalId, source.writeError externalId = none) → source.commitError = none →
    ∀ start, FreshIds env.host start →
      (source.afterFetch env fetched start).result.status = .completed ∧
        ∀ raw ∈ source.selected fetched,
          (source.afterFetch env fetched start).committed.StoredBy env.runId
            (raw.sourcePlatform, raw.externalId)

variable {source env fetched}

/-- Timestamps that can be read all are. -/
theorem fetchRawJobs_ok (h : ∀ raw ∈ source.selected fetched,
    env.dates.Convertible source.live.platform raw.rawPayload) :
    ∃ jobs, source.live.fetchRawJobs env.dates fetched = .ok jobs := by
  cases hjobs : source.live.fetchRawJobs env.dates fetched with
  | ok jobs => exact ⟨jobs, rfl⟩
  | error exc =>
    obtain ⟨raw, hraw, exc, hexc⟩ := error_mapM_iff.mp ⟨exc, hjobs⟩
    obtain ⟨time, htime⟩ := (DateText.extractSourceTimestamp_ok_iff _ _).mpr (h raw hraw)
    unfold LivePipelineSource.liveRawJob at hexc
    rw [htime] at hexc
    cases hexc

/-- Each job is one of those the source keeps. -/
theorem map_identity_fetchRawJobs {jobs : List LiveRawJob}
    (h : source.live.fetchRawJobs env.dates fetched = .ok jobs) :
    jobs.map LiveRawJob.identity
      = (source.selected fetched).map fun raw => (raw.sourcePlatform, raw.externalId) := by
  refine map_eq_of_mapM_ok (fun raw job hjob => ?_) h
  obtain ⟨time, -, rfl⟩ := ok_map_iff.mp hjob
  rfl

/-- BUG: a source keeps its jobs exactly when the timestamp of each can be read. A Kitalulus epoch
    number or a text with a UTC offset that is beyond the datetimes raises, outside of any handler
    of one job, and the source is lost with all its jobs. -/
theorem keepsSource_iff (hinj : Function.Injective env.host.newId) (source : ScrapeSource)
    (fetched : PaginatedFetchResult) :
    source.KeepsSource env fetched ↔
      ∀ raw ∈ source.selected fetched,
        env.dates.Convertible source.live.platform raw.rawPayload := by
  constructor
  · intro h raw hraw
    exact (DateText.extractSourceTimestamp_ok_iff _ _).mp (h.extracted raw hraw)
  · intro h
    obtain ⟨jobs, hjobs⟩ := fetchRawJobs_ok h
    have hidentity := map_identity_fetchRawJobs hjobs
    have hperm := perm_orderFetchedRawJobs source.live.recencyMode jobs
    refine ⟨fun raw hraw => (DateText.extractSourceTimestamp_ok_iff _ _).mpr (h raw hraw),
      ⟨jobs, hjobs, hidentity ▸ hperm.map _⟩, fun hwrite hcommit start hfresh => ?_⟩
    have hnone : source.firstError env (.ok fetched) = none := by
      unfold firstError storeError
      simp only [hjobs, hcommit, Option.or_none]
      exact List.findSome?_eq_none_iff.mpr fun job _ => hwrite job.externalId
    have hstart := source.sourcePipelineResultFrom_start
    have hsource : Triple
        (fun session => session = FetchCall.session { source, fetched } start)
        (source.scrapeSource env (.ok fetched)) _ _ :=
      triple_scrapeSource hinj hfresh rfl hstart.1 hstart.2 (.ok fetched)
    have hend : Triple (fun session => session = FetchCall.session { source, fetched } start)
        (source.scrapeSource env (.ok fetched))
        (fun _ session => source.Scraped env (.ok fetched) session.result session.committed)
        (fun _ session => source.Scraped env (.ok fetched) session.result session.committed) := by
      refine hsource.conseq (fun _ => id) (fun _ session hs => ?_) fun exc session hs => ?_
      · rcases hs.2 with ⟨-, hscraped⟩ | ⟨exc, hsome, -⟩
        · exact hscraped
        · rw [hnone] at hsome
          cases hsome
      · have hsome := hs.2.1
        rw [hnone] at hsome
        cases hsome
    have hscraped := hend.of_run (s := FetchCall.session { source, fetched } start) rfl
    refine ⟨hscraped.status, fun raw hraw => ?_⟩
    have hmem : (raw.sourcePlatform, raw.externalId) ∈ jobs.map LiveRawJob.identity := by
      rw [hidentity]
      exact List.mem_map_of_mem hraw
    obtain ⟨job, hjob, heq⟩ := List.mem_map.mp hmem
    rw [← heq]
    exact hscraped.stored fetched jobs rfl hjobs job hjob

end ScrapeSource

/-! ### One epoch number -/

/-- Dates that refuse an epoch number beyond the datetimes, as `fromtimestamp` does. -/
def epochDates : DateText where
  fromIsoformat _ := none
  fromTimestamp value divisor := match value with
    | .int n =>
      if datetimeMin ≤ n * 1000000 / divisor ∧ n * 1000000 / divisor ≤ datetimeMax then
        .ok (n * 1000000 / divisor)
      else .error (.plain "ValueError" "year is out of range")
    | _ => .error (.plain "ValueError" "year is out of range")

/-- A Kitalulus job with an epoch number in its detail. -/
def updatedJob (externalId : String) (updatedAt : ℤ) : RawSourceJob where
  sourcePlatform := "kitalulus"
  externalId
  sourceUrl := "u"
  rawPayload := [("detail", .dict [("updatedAt", .int updatedAt)])]

/-- A Kitalulus source that reads one page. -/
def kitalulusSource : ScrapeSource where
  live := maySource .kitalulus
  feed := .kitalulus
    { listPage := fun _ _ _ => .error (.plain "ValueError" "")
      detail := fun _ _ => notFound }
  samePlatform := rfl

/-- A run that stores it. -/
def epochEnv : ScrapeEnv where
  host := tallyHost
  hash := plainHash
  isoformat _ := ""
  dates := epochDates
  settings := smallSettings
  runId := "run"

/-- A job updated in May 2024 is kept. -/
theorem keepsSource_iff_may :
    kitalulusSource.KeepsSource epochEnv (mayFetched [updatedJob "1" 1714521600000]) := by
  refine (ScrapeSource.keepsSource_iff tallyHost_newId_injective kitalulusSource _).mpr ?_
  intro raw hraw
  cases List.mem_singleton.mp hraw
  exact ⟨1714521600000000, rfl⟩

/-- Next to a job whose number is beyond the datetimes it is not: both are lost. -/
theorem one_number_loses_source :
    let fetched := mayFetched [updatedJob "1" 1714521600000, updatedJob "2" 1000000000000000000]
    kitalulusSource.selected fetched = fetched.rawJobs ∧
      kitalulusSource.live.fetchRawJobs epochEnv.dates fetched
        = .error (.plain "ValueError" "year is out of range") ∧
      (∀ start, (kitalulusSource.afterFetch epochEnv fetched start).committed = start.tables) ∧
      ¬ kitalulusSource.KeepsSource epochEnv fetched := by
  refine ⟨rfl, rfl, fun _ => rfl, fun h => ?_⟩
  obtain ⟨time, htime⟩ := h.extracted (updatedJob "2" 1000000000000000000)
    (List.mem_cons_of_mem _ List.mem_cons_self)
  cases htime

end Bisakerja
