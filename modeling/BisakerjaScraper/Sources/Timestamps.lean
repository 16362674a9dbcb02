import BisakerjaScraper.Schemes.Fallible
import BisakerjaScraper.Sources.Details

/-! The source timestamp of a raw job.

    Each source has one extractor. It is applied to the merged payload, whose keys are `list`,
    `detail` and `detailMetadata`; four of the five were written for the list payload and look for
    its keys at the top. -/

namespace Bisakerja
open Schemes

/-- Reading datetimes: `datetime.fromisoformat`, which gives the local time and the UTC offset if
    there is one, and `datetime.fromtimestamp` of a number divided by a constant. -/
structure DateText where
  fromIsoformat : String → Option (Time × Option ℤ)
  fromTimestamp : Json → ℕ → Except PyException Time

/-- `datetime.min` in UTC. -/
def datetimeMin : Time := -62135596800000000

/-- `datetime.max` in UTC. -/
def datetimeMax : Time := 253402300799999999

namespace DateText

variable (dates : DateText)

/-- `parse_source_datetime`; the conversion to UTC overflows outside the range of datetimes. -/
def parseSourceDatetime : Json → Except PyException (Option Time)
  | .str s =>
    if strip s = "" then .ok none
    else
      let text := strip s
      match dates.fromIsoformat
          (if endsWith text "Z" then dropLast text 1 ++ "+00:00" else text) with
      | none => .ok none
      | some (time, none) => .ok (some time)
      | some (time, some offset) =>
        if datetimeMin ≤ time - offset ∧ time - offset ≤ datetimeMax then .ok (some (time - offset))
        else .error (.plain "OverflowError" "date value out of range")
  | _ => .ok none

/-- The first of some values that parses: `parse(a) or parse(b) or …`. -/
def parseFirst : List Json → Except PyException (Option Time)
  | [] => .ok none
  | value :: rest => do
    match ← dates.parseSourceDatetime value with
    | some time => pure (some time)
    | none => parseFirst rest

/-- `value > 10_000_000_000_000`. -/
def isMicroseconds : Json → Bool
  | .int n => 10000000000000 < n
  | .float (.finite q) => 10000000000000 < q
  | .float .posInf => true
  | _ => false

/-- `parse_kitalulus_epoch_datetime`. -/
def parseKitalulusEpochDatetime (value : Json) : Except PyException (Option Time) :=
  match value with
  | .bool _ => .ok none
  | .int _ | .float _ =>
    (dates.fromTimestamp value (if isMicroseconds value then 1000000 else 1000)).map some
  | value => dates.parseSourceDatetime value

/-- `extract_dealls_source_timestamp`. -/
def extractDeallsSourceTimestamp (payload : Dict) : Except PyException (Option Time) :=
  dates.parseFirst [payload.get "publishedAt", payload.get "latestUpdatedAt"]

/-- `extract_glints_source_timestamp`. -/
def extractGlintsSourceTimestamp (payload : Dict) : Except PyException (Option Time) :=
  dates.parseFirst [payload.get "createdAt", payload.get "updatedAt"]

/-- `extract_kalibrr_source_timestamp`. -/
def extractKalibrrSourceTimestamp (payload : Dict) : Except PyException (Option Time) :=
  dates.parseFirst [payload.get "activationDate", payload.get "createdAt", payload.get "updatedAt"]

/-- `extract_jobstreet_source_timestamp`; a key of what is not an object reads as missing. -/
def extractJobstreetSourceTimestamp (payload : Dict) : Except PyException (Option Time) :=
  dates.parseFirst [(payload.get "listingDate").get "dateTimeUtc",
    (((payload.get "detail").get "job").get "listedAt").get "dateTimeUtc"]

/-- `extract_kitalulus_source_timestamp`: the one extractor that knows the merged payload. -/
def extractKitalulusSourceTimestamp (payload : Dict) : Except PyException (Option Time) := do
  match ← dates.parseKitalulusEpochDatetime ((payload.get "detail").get "updatedAt") with
  | some time => pure (some time)
  | none =>
    let listPayload : Dict := match payload.get "list" with
      | .dict entries => entries
      | _ => payload
    dates.parseSourceDatetime (listPayload.get "updatedAtStr")

/-- The timestamp extractor of each source. -/
def extractSourceTimestamp : SourcePlatform → Dict → Except PyException (Option Time)
  | .dealls => dates.extractDeallsSourceTimestamp
  | .glints => dates.extractGlintsSourceTimestamp
  | .jobstreet => dates.extractJobstreetSourceTimestamp
  | .kalibrr => dates.extractKalibrrSourceTimestamp
  | .kitalulus => dates.extractKitalulusSourceTimestamp

/-! ### What survives the merge -/

/-- The values under the list keys an extractor reads. -/
def listTimestampValues : SourcePlatform → Dict → List Json
  | .dealls, payload => [payload.get "publishedAt", payload.get "latestUpdatedAt"]
  | .glints, payload => [payload.get "createdAt", payload.get "updatedAt"]
  | .jobstreet, payload => [(payload.get "listingDate").get "dateTimeUtc"]
  | .kalibrr, payload =>
    [payload.get "activationDate", payload.get "createdAt", payload.get "updatedAt"]
  | .kitalulus, payload => [payload.get "updatedAtStr"]

/-- The values under the same or the corresponding keys of the stored detail. -/
def detailTimestampValues : SourcePlatform → Json → List Json
  | .jobstreet, detail => [((detail.get "job").get "listedAt").get "dateTimeUtc"]
  | .kitalulus, detail => [detail.get "updatedAt"]
  | platform, detail => listTimestampValues platform detail.asDict

/-- The extractor reads a timestamp of the job off the merged payload: that of the list or that of
    the detail. -/
def Survives (platform : SourcePlatform) (job merged : RawSourceJob) : Prop :=
  ∃ time, dates.extractSourceTimestamp platform merged.rawPayload = .ok (some time) ∧
    ∃ value ∈ listTimestampValues platform job.rawPayload ++
        detailTimestampValues platform (Dict.get merged.rawPayload "detail"),
      dates.parseKitalulusEpochDatetime value = .ok (some time)

/-- The value under a key path of the detail that was answered, `None` without one. -/
def answeredValue (parse : Dict → Except PyException DetailResult) (value : Dict → Json)
    (answer : DetailAnswer) : Json :=
  match answer.bind parse with
  | .ok detail => value detail.rawPayload
  | .error _ => .null

/-- `detail.job.listedAt.dateTimeUtc` of the JobStreet detail answered. -/
def listedAtValue (answer : DetailAnswer) : Json :=
  answeredValue parseJobstreetDetailPayload
    (fun detail => ((detail.get "job").get "listedAt").get "dateTimeUtc") answer

/-- `detail.updatedAt` of the Kitalulus detail answered. -/
def updatedAtValue (answer : DetailAnswer) : Json :=
  answeredValue parseKitalulusDetailPayload (·.get "updatedAt") answer

/-- When the extractor finds a timestamp in the merged payload: for JobStreet when the detail has
    one, for Kitalulus when the detail or else the list has one, for the other three never. -/
def Readable : SourcePlatform → DetailAnswer → RawSourceJob → Prop
  | .jobstreet, answer, _ =>
    ∃ time, dates.parseSourceDatetime (listedAtValue answer) = .ok (some time)
  | .kitalulus, answer, job => ∃ time,
      dates.parseKitalulusEpochDatetime (updatedAtValue answer) = .ok (some time) ∨
        (dates.parseKitalulusEpochDatetime (updatedAtValue answer) = .ok none ∧
          dates.parseSourceDatetime (job.rawPayload.get "updatedAtStr") = .ok (some time))
  | _, _, _ => False

/-- The merged payload of a job with a `detail` entry. -/
def mergedPayload (job : RawSourceJob) (detail metadata : Json) : Dict :=
  [("list", .dict job.rawPayload), ("detail", detail), ("detailMetadata", metadata)]

variable {dates} {answer : DetailAnswer} {job merged : RawSourceJob}

theorem deallsFetchEnrichedJob_payload (h : deallsFetchEnrichedJob answer job = .ok merged) :
    ∃ detail metadata, merged.rawPayload = mergedPayload job detail metadata := by
  unfold deallsFetchEnrichedJob at h
  split at h
  · cases h
    exact ⟨_, _, rfl⟩
  · split at h <;> cases h <;> exact ⟨_, _, rfl⟩

theorem mergeKalibrrListAndDetail_payload (h : mergeKalibrrListAndDetail job = .ok merged) :
    ∃ detail metadata, merged.rawPayload = mergedPayload job detail metadata := by
  obtain ⟨detail, -, rfl⟩ := ok_map_iff.mp h
  exact ⟨_, _, rfl⟩

theorem jobstreetFetchEnrichedJob_payload (h : jobstreetFetchEnrichedJob answer job = .ok merged) :
    ∃ detail metadata, merged.rawPayload = mergedPayload job detail metadata ∧
      ((detail.get "job").get "listedAt").get "dateTimeUtc" = listedAtValue answer := by
  unfold jobstreetFetchEnrichedJob at h
  unfold listedAtValue answeredValue
  split at h <;> cases h <;> next heq => exact ⟨_, _, rfl, by rw [heq]; rfl⟩

theorem kitalulusFetchEnrichedJob_payload (h : kitalulusFetchEnrichedJob answer job = .ok merged) :
    Dict.get merged.rawPayload "list" = .dict job.rawPayload ∧
      (Dict.get merged.rawPayload "detail").get "updatedAt" = updatedAtValue answer := by
  unfold kitalulusFetchEnrichedJob at h
  obtain ⟨-, -, h⟩ := ok_bind_iff.mp h
  unfold updatedAtValue answeredValue
  split at h <;> cases h <;> next heq => exact ⟨rfl, by rw [heq]; rfl⟩

/-- Epoch numbers apart, Kitalulus reads a value as the other sources do. -/
theorem parseKitalulusEpochDatetime_of_parse {value : Json} {time : Time}
    (h : dates.parseSourceDatetime value = .ok (some time)) :
    dates.parseKitalulusEpochDatetime value = .ok (some time) := by
  cases value with
  | str s => exact h
  | null => cases h
  | bool b => cases h
  | int n => cases h
  | float x => cases h
  | list xs => cases h
  | dict entries => cases h

theorem parseFirst_singleton {value : Json} {time : Time} :
    dates.parseFirst [value] = .ok (some time) ↔
      dates.parseSourceDatetime value = .ok (some time) := by
  unfold parseFirst parseFirst
  rw [ok_bind_iff]
  constructor
  · rintro ⟨first, hfirst, hrest⟩
    cases first with
    | some time' =>
      cases hrest
      exact hfirst
    | none => cases hrest
  · exact fun h => ⟨some time, h, rfl⟩

/-- Three extractors look for list keys at the top of the merged payload and find none. -/
theorem not_survives_of_mergedPayload {platform : SourcePlatform} {detail metadata : Json}
    (hpayload : merged.rawPayload = mergedPayload job detail metadata)
    (hextract : dates.extractSourceTimestamp platform (mergedPayload job detail metadata)
      = .ok none) : ¬ dates.Survives platform job merged := by
  rintro ⟨time, htime, -⟩
  rw [hpayload, hextract] at htime
  cases htime

theorem survives_jobstreet (h : jobstreetFetchEnrichedJob answer job = .ok merged) :
    dates.Survives .jobstreet job merged ↔ dates.Readable .jobstreet answer job := by
  obtain ⟨detail, metadata, hpayload, hvalue⟩ := jobstreetFetchEnrichedJob_payload h
  have hdetail : Dict.get merged.rawPayload "detail" = detail := by rw [hpayload]; rfl
  have hextract : dates.extractSourceTimestamp .jobstreet merged.rawPayload
      = dates.parseFirst [((detail.get "job").get "listedAt").get "dateTimeUtc"] := by
    rw [hpayload]
    rfl
  unfold Survives Readable
  rw [hextract, hdetail]
  dsimp only
  rw [← hvalue]
  constructor
  · rintro ⟨time, htime, -⟩
    exact ⟨time, parseFirst_singleton.mp htime⟩
  · rintro ⟨time, htime⟩
    refine ⟨time, parseFirst_singleton.mpr htime, _, ?_, parseKitalulusEpochDatetime_of_parse htime⟩
    exact List.mem_append_right _ List.mem_cons_self

theorem survives_kitalulus (h : kitalulusFetchEnrichedJob answer job = .ok merged) :
    dates.Survives .kitalulus job merged ↔ dates.Readable .kitalulus answer job := by
  obtain ⟨hlist, hvalue⟩ := kitalulusFetchEnrichedJob_payload h
  unfold Survives Readable extractSourceTimestamp extractKitalulusSourceTimestamp
  simp only [hlist, ← hvalue, ok_bind_iff]
  set value := (Dict.get merged.rawPayload "detail").get "updatedAt" with hvaluedef
  constructor
  · rintro ⟨time, ⟨first, hfirst, hrest⟩, -⟩
    cases first with
    | some time' =>
      cases hrest
      exact ⟨time, .inl hfirst⟩
    | none => exact ⟨time, .inr ⟨hfirst, hrest⟩⟩
  · rintro ⟨time, htime | ⟨hnone, htime⟩⟩
    · exact ⟨time, ⟨some time, htime, rfl⟩, value,
        List.mem_append_right _ List.mem_cons_self, htime⟩
    · exact ⟨time, ⟨none, hnone, htime⟩, _, List.mem_append_left _ List.mem_cons_self,
        parseKitalulusEpochDatetime_of_parse htime⟩

/-- The timestamp of a job survives the merge exactly where it is readable. -/
theorem survives_iff_readable (platform : SourcePlatform)
    (h : enrichJob platform answer job = .ok merged) :
    dates.Survives platform job merged ↔ dates.Readable platform answer job := by
  cases platform with
  | dealls =>
    obtain ⟨detail, metadata, hpayload⟩ := deallsFetchEnrichedJob_payload h
    exact iff_of_false (not_survives_of_mergedPayload hpayload rfl) not_false
  | glints =>
    cases h
    exact iff_of_false (not_survives_of_mergedPayload rfl rfl) not_false
  | jobstreet => exact survives_jobstreet h
  | kalibrr =>
    obtain ⟨detail, metadata, hpayload⟩ := mergeKalibrrListAndDetail_payload h
    exact iff_of_false (not_survives_of_mergedPayload hpayload rfl) not_false
  | kitalulus => exact survives_kitalulus h

end DateText

end Bisakerja
