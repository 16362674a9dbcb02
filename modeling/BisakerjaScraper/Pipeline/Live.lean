import Mathlib.Data.List.Sort
import Mathlib.Order.Bounds.Basic
import BisakerjaScraper.Pipeline.Results
import BisakerjaScraper.Sources.Timestamps

/-! What a live source hands to the scrape stage, and in which order it is stored.

    A fetched job carries the timestamp its extractor reads off the merged payload. Outside the
    native recency mode the jobs are stored newest first, those without a timestamp last. -/

namespace Bisakerja
open Schemes

/-- `PaginatedFetchResult`. -/
structure PaginatedFetchResult where
  rawJobs : List RawSourceJob
  pagesAttempted : ℕ
  pagesSucceeded : ℕ
  pagesFailed : ℕ
  stopReason : String
  dedupedCount : ℕ
  totalAvailable : Option ℤ := none

/-- `LiveRawJob`. -/
structure LiveRawJob where
  sourcePlatform : String
  externalId : String
  sourceUrl : String
  rawPayload : Dict
  keyword : String
  requestedLimit : ℤ
  recencyMode : String
  recencyDays : ℤ
  sourceTimestamp : Option Time
  fetchMetadata : Dict

/-- `LivePipelineSource` without its fetcher. -/
structure LivePipelineSource where
  platform : SourcePlatform
  keyword : String
  requestedLimit : ℤ
  recencyMode : String
  recencyDays : ℤ

/-- `xs[:n]`. -/
def sliceTo {α : Type} (xs : List α) (n : ℤ) : List α :=
  if 0 ≤ n then xs.take n.toNat else xs.take (xs.length - n.natAbs)

/-- The report of a paginated fetch, as `_last_pagination_report` keeps it. -/
def PaginatedFetchResult.report (fetched : PaginatedFetchResult) : Dict :=
  [("pagesAttempted", .int fetched.pagesAttempted), ("pagesSucceeded", .int fetched.pagesSucceeded),
    ("pagesFailed", .int fetched.pagesFailed), ("stopReason", .str fetched.stopReason),
    ("dedupedCount", .int fetched.dedupedCount),
    ("totalAvailable", match fetched.totalAvailable with
      | some n => .int n
      | none => .null)]

namespace LivePipelineSource

variable (source : LivePipelineSource) (dates : DateText)

/-- One job of `fetch_raw_jobs`. -/
def liveRawJob (metadata : Dict) (raw : RawSourceJob) : Except PyException LiveRawJob :=
  (dates.extractSourceTimestamp source.platform raw.rawPayload).map fun sourceTimestamp =>
    { sourcePlatform := raw.sourcePlatform
      externalId := raw.externalId
      sourceUrl := raw.sourceUrl
      rawPayload := raw.rawPayload
      keyword := source.keyword
      requestedLimit := source.requestedLimit
      recencyMode := source.recencyMode
      recencyDays := source.recencyDays
      sourceTimestamp := sourceTimestamp
      fetchMetadata := metadata }

/-- `fetch_raw_jobs` once the fetcher has returned. -/
def fetchRawJobs (fetched : PaginatedFetchResult) : Except PyException (List LiveRawJob) :=
  let selected := sliceTo fetched.rawJobs source.requestedLimit
  let truncatedCount := fetched.rawJobs.length - selected.length
  selected.mapM (source.liveRawJob dates
    (fetched.report ++ [("truncatedCount", .int truncatedCount)]))

end LivePipelineSource

/-! ### Order and bounds -/

/-- `source_timestamp_sort_key`. -/
def sourceTimestampSortKey (job : LiveRawJob) : Time := job.sourceTimestamp.getD datetimeMin

/-- The order of `sorted(…, reverse=True)` by the sort key. -/
def laterFirst (a b : LiveRawJob) : Prop := sourceTimestampSortKey b ≤ sourceTimestampSortKey a

instance : DecidableRel laterFirst := fun a b =>
  inferInstanceAs (Decidable (sourceTimestampSortKey b ≤ sourceTimestampSortKey a))

instance : Std.Total laterFirst := ⟨fun _ b => le_total (sourceTimestampSortKey b) _⟩

instance : IsTrans LiveRawJob laterFirst := ⟨fun _ _ _ hab hbc => le_trans hbc hab⟩

/-- `sorted_by_source_timestamp`. -/
def sortedBySourceTimestamp (jobs : List LiveRawJob) : List LiveRawJob :=
  jobs.insertionSort laterFirst

/-- `order_fetched_raw_jobs`. -/
def orderFetchedRawJobs (recencyMode : String) (jobs : List LiveRawJob) : List LiveRawJob :=
  if recencyMode = "native" then jobs else sortedBySourceTimestamp jobs

/-- `update_source_timestamp_bounds`. -/
def updateSourceTimestampBounds (result : SourcePipelineResult) (jobs : List LiveRawJob) :
    SourcePipelineResult :=
  match jobs.filterMap LiveRawJob.sourceTimestamp with
  | [] => result
  | time :: times =>
    { result with
      newestSourceTimestamp := some (times.foldl max time)
      oldestSourceTimestamp := some (times.foldl min time) }

/-! ### What the order and the bounds are worth -/

/-- Each source stores the list payload as it came. -/
theorem enrichJob_list {platform : SourcePlatform} {answer : DetailAnswer}
    {job merged : RawSourceJob} (h : enrichJob platform answer job = .ok merged) :
    Dict.get merged.rawPayload "list" = .dict job.rawPayload := by
  cases platform with
  | dealls =>
    obtain ⟨detail, metadata, hpayload⟩ := DateText.deallsFetchEnrichedJob_payload h
    rw [hpayload]
    rfl
  | glints =>
    cases h
    rfl
  | jobstreet =>
    obtain ⟨detail, metadata, hpayload, -⟩ := DateText.jobstreetFetchEnrichedJob_payload h
    rw [hpayload]
    rfl
  | kalibrr =>
    obtain ⟨detail, metadata, hpayload⟩ := DateText.mergeKalibrrListAndDetail_payload h
    rw [hpayload]
    rfl
  | kitalulus => exact (DateText.kitalulusFetchEnrichedJob_payload h).1

/-- Outside the native mode a job stands before the jobs that are not later. -/
theorem pairwise_orderFetchedRawJobs {recencyMode : String} (hmode : recencyMode ≠ "native")
    (jobs : List LiveRawJob) : (orderFetchedRawJobs recencyMode jobs).Pairwise laterFirst := by
  unfold orderFetchedRawJobs
  rw [if_neg hmode]
  exact List.pairwise_insertionSort laterFirst jobs

/-- Ordering loses no job and adds none. -/
theorem perm_orderFetchedRawJobs (recencyMode : String) (jobs : List LiveRawJob) :
    (orderFetchedRawJobs recencyMode jobs).Perm jobs := by
  unfold orderFetchedRawJobs
  split
  · exact List.Perm.refl jobs
  · exact List.perm_insertionSort laterFirst jobs

/-- With at least one timestamp among the jobs, the greatest and the least are reported. -/
theorem updateSourceTimestampBounds_eq (result : SourcePipelineResult) {jobs : List LiveRawJob}
    (hsome : ∃ job ∈ jobs, ∃ time, job.sourceTimestamp = some time) :
    ∃ newest oldest,
      updateSourceTimestampBounds result jobs
          = { result with
              newestSourceTimestamp := some newest, oldestSourceTimestamp := some oldest } ∧
        IsGreatest {time | some time ∈ jobs.map LiveRawJob.sourceTimestamp} newest ∧
        IsLeast {time | some time ∈ jobs.map LiveRawJob.sourceTimestamp} oldest := by
  have hmem : ∀ time, some time ∈ jobs.map LiveRawJob.sourceTimestamp ↔
      time ∈ jobs.filterMap LiveRawJob.sourceTimestamp := by
    intro time
    simp only [List.mem_map, List.mem_filterMap]
  simp only [hmem]
  unfold updateSourceTimestampBounds
  cases htimes : jobs.filterMap LiveRawJob.sourceTimestamp with
  | nil =>
    obtain ⟨job, hjob, time, htime⟩ := hsome
    have hin : time ∈ jobs.filterMap LiveRawJob.sourceTimestamp :=
      List.mem_filterMap.mpr ⟨job, hjob, htime⟩
    rw [htimes] at hin
    cases hin
  | cons time times =>
    obtain ⟨hmaxMem, hmax⟩ := List.max?_eq_some_iff.mp
      (rfl : (time :: times).max? = some (times.foldl max time))
    obtain ⟨hminMem, hmin⟩ := List.min?_eq_some_iff.mp
      (rfl : (time :: times).min? = some (times.foldl min time))
    exact ⟨_, _, rfl, ⟨hmaxMem, fun t ht => hmax t ht⟩, ⟨hminMem, fun t ht => hmin t ht⟩⟩

namespace DateText

variable (dates : DateText)

/-- The list payload has a timestamp under a key its extractor reads. -/
def CarriesTimestamp (platform : SourcePlatform) (listPayload : Dict) : Prop :=
  ∃ value ∈ listTimestampValues platform listPayload,
    ∃ time, dates.parseSourceDatetime value = .ok (some time)

end DateText

namespace LivePipelineSource

variable (source : LivePipelineSource) (dates : DateText)

/-- The list payload stored with a job has a timestamp. -/
def Timestamped (job : LiveRawJob) : Prop :=
  dates.CarriesTimestamp source.platform (Dict.get job.rawPayload "list").asDict

/-- The timestamps of the list jobs `entries`, each with the answer to its detail request, are kept
    in the jobs `live` that the scrape stage stores. -/
structure TimestampsKept (entries : List (RawSourceJob × DetailAnswer)) (live : List LiveRawJob) :
    Prop where
  /-- The timestamp of the list job, or that of its detail, is read off the merged payload. -/
  survive : ∀ job answer merged, (job, answer) ∈ entries →
    dates.CarriesTimestamp source.platform job.rawPayload →
    enrichJob source.platform answer job = .ok merged → dates.Survives source.platform job merged
  /-- The jobs with a timestamp are stored newest first. -/
  newestFirst : source.recencyMode ≠ "native" →
    (orderFetchedRawJobs source.recencyMode live).Pairwise fun a b =>
      source.Timestamped dates a → source.Timestamped dates b →
      ∃ later earlier, a.sourceTimestamp = some later ∧ b.sourceTimestamp = some earlier ∧
        earlier ≤ later
  /-- The bounds reported are attained, and hold for every job with a timestamp. -/
  bounds : ∀ result : SourcePipelineResult, (∃ job ∈ live, source.Timestamped dates job) →
    ∃ newest oldest,
      updateSourceTimestampBounds result (orderFetchedRawJobs source.recencyMode live)
          = { result with
              newestSourceTimestamp := some newest, oldestSourceTimestamp := some oldest } ∧
        IsGreatest {time | some time ∈ live.map LiveRawJob.sourceTimestamp} newest ∧
        IsLeast {time | some time ∈ live.map LiveRawJob.sourceTimestamp} oldest ∧
        ∀ job ∈ live, source.Timestamped dates job → ∃ time, job.sourceTimestamp = some time

variable {source dates} {entries : List (RawSourceJob × DetailAnswer)}
  {fetched : PaginatedFetchResult} {live : List LiveRawJob}

/-- A stored job comes from a list job, and its timestamp is what the extractor reads. -/
theorem entry_of_mem_live
    (henrich : entries.mapM (fun entry => enrichJob source.platform entry.2 entry.1)
      = .ok fetched.rawJobs) (hlive : source.fetchRawJobs dates fetched = .ok live)
    {job : LiveRawJob} (hjob : job ∈ live) :
    ∃ raw answer merged, (raw, answer) ∈ entries ∧
      enrichJob source.platform answer raw = .ok merged ∧ job.rawPayload = merged.rawPayload ∧
      dates.extractSourceTimestamp source.platform merged.rawPayload = .ok job.sourceTimestamp := by
  obtain ⟨merged, hmem, hmap⟩ := mem_of_mapM_ok hlive hjob
  have hfetched : merged ∈ fetched.rawJobs := by
    unfold sliceTo at hmem
    split at hmem <;> exact List.mem_of_mem_take hmem
  obtain ⟨⟨raw, answer⟩, hentry, hraw⟩ := mem_of_mapM_ok henrich hfetched
  obtain ⟨time, htime, rfl⟩ := ok_map_iff.mp hmap
  exact ⟨raw, answer, merged, hentry, hraw, rfl, htime⟩

/-- A job whose list payload has a readable timestamp is stored with one. -/
theorem sourceTimestamp_of_survive
    (henrich : entries.mapM (fun entry => enrichJob source.platform entry.2 entry.1)
      = .ok fetched.rawJobs) (hlive : source.fetchRawJobs dates fetched = .ok live)
    (hsurvive : ∀ job answer merged, (job, answer) ∈ entries →
      dates.CarriesTimestamp source.platform job.rawPayload →
      enrichJob source.platform answer job = .ok merged →
      dates.Survives source.platform job merged)
    {job : LiveRawJob} (hjob : job ∈ live) (hcarries : source.Timestamped dates job) :
    ∃ time, job.sourceTimestamp = some time := by
  obtain ⟨raw, answer, merged, hentry, hraw, hpayload, hextract⟩ :=
    entry_of_mem_live henrich hlive hjob
  unfold Timestamped at hcarries
  rw [hpayload, enrichJob_list hraw] at hcarries
  obtain ⟨time, htime, -⟩ := hsurvive raw answer merged hentry hcarries hraw
  rw [hextract] at htime
  exact ⟨time, Except.ok.inj htime⟩

/-- The timestamps of a fetch are kept exactly when every list job with a timestamp is one whose
    timestamp is readable in the merged payload. -/
theorem timestampsKept_iff
    (henrich : entries.mapM (fun entry => enrichJob source.platform entry.2 entry.1)
      = .ok fetched.rawJobs) (hlive : source.fetchRawJobs dates fetched = .ok live) :
    source.TimestampsKept dates entries live ↔
      ∀ job answer, (job, answer) ∈ entries →
        dates.CarriesTimestamp source.platform job.rawPayload →
        dates.Readable source.platform answer job := by
  constructor
  · intro hkept job answer hentry hcarries
    obtain ⟨merged, -, hmerged⟩ := exists_of_mapM_ok henrich hentry
    exact (dates.survives_iff_readable source.platform hmerged).mp
      (hkept.survive job answer merged hentry hcarries hmerged)
  · intro hreadable
    have hsurvive : ∀ job answer merged, (job, answer) ∈ entries →
        dates.CarriesTimestamp source.platform job.rawPayload →
        enrichJob source.platform answer job = .ok merged →
        dates.Survives source.platform job merged := by
      intro job answer merged hentry hcarries hmerged
      exact (dates.survives_iff_readable source.platform hmerged).mpr
        (hreadable job answer hentry hcarries)
    have htime : ∀ job ∈ live, source.Timestamped dates job →
        ∃ time, job.sourceTimestamp = some time :=
      fun job => sourceTimestamp_of_survive henrich hlive hsurvive
    refine ⟨hsurvive, ?_, ?_⟩
    · intro hmode
      have hperm := perm_orderFetchedRawJobs source.recencyMode live
      refine (pairwise_orderFetchedRawJobs hmode live).imp_of_mem ?_
      intro a b ha hb hlater hcarriesA hcarriesB
      obtain ⟨later, hlaterEq⟩ := htime a (hperm.mem_iff.mp ha) hcarriesA
      obtain ⟨earlier, hearlierEq⟩ := htime b (hperm.mem_iff.mp hb) hcarriesB
      unfold laterFirst sourceTimestampSortKey at hlater
      rw [hlaterEq, hearlierEq] at hlater
      exact ⟨later, earlier, hlaterEq, hearlierEq, hlater⟩
    · rintro result ⟨job, hjob, hcarries⟩
      have hperm := perm_orderFetchedRawJobs source.recencyMode live
      obtain ⟨newest, oldest, heq, hnewest, holdest⟩ := updateSourceTimestampBounds_eq result
        ⟨job, hperm.mem_iff.mpr hjob, htime job hjob hcarries⟩
      simp only [(hperm.map LiveRawJob.sourceTimestamp).mem_iff] at hnewest holdest
      exact ⟨newest, oldest, heq, hnewest, holdest, htime⟩

end LivePipelineSource

/-! ### Two days in May -/

/-- Dates that know the first two days of May 2024. -/
def mayDates : DateText where
  fromIsoformat text :=
    if text = "2024-05-01T00:00:00+00:00" then some (1714521600000000, some 0)
    else if text = "2024-05-02T00:00:00+00:00" then some (1714608000000000, some 0)
    else none
  fromTimestamp value divisor := match value with
    | .int n => .ok (n * 1000000 / divisor)
    | _ => .error (.plain "ValueError" "year is out of range")

/-- A source that is read for two jobs, the most recent first. -/
def maySource (platform : SourcePlatform) : LivePipelineSource where
  platform
  keyword := "lean"
  requestedLimit := 2
  recencyMode := "recent"
  recencyDays := 7

/-- One page of jobs. -/
def mayFetched (rawJobs : List RawSourceJob) : PaginatedFetchResult where
  rawJobs
  pagesAttempted := 1
  pagesSucceeded := 1
  pagesFailed := 0
  stopReason := "source_exhausted"
  dedupedCount := 0

/-- A JobStreet job listed on the first of May. -/
def listedJob : RawSourceJob where
  sourcePlatform := "jobstreet"
  externalId := "7"
  sourceUrl := "https://id.jobstreet.com/id/job/7"
  rawPayload := [("listingDate", .dict [("dateTimeUtc", .str "2024-05-01T00:00:00Z")])]

/-- Its detail, which has the date too. -/
def listedDetail : Dict :=
  [("job", .dict [("id", .str "7"),
    ("listedAt", .dict [("dateTimeUtc", .str "2024-05-01T00:00:00Z")])])]

/-- The answer to the request for its detail. -/
def listedAnswer : DetailAnswer := .ok [("data", .dict [("jobDetails", .dict listedDetail)])]

/-- The job as it is stored. -/
def listedMerged : RawSourceJob :=
  mergeJobstreetDetail listedJob
    { externalId := "7", sourceUrl := listedJob.sourceUrl, rawPayload := listedDetail }

/-- A JobStreet timestamp that its detail repeats is kept. -/
theorem timestampsKept_iff_listedJob :
    ∃ live, (maySource .jobstreet).TimestampsKept mayDates [(listedJob, listedAnswer)] live := by
  have hlive : (maySource .jobstreet).fetchRawJobs mayDates (mayFetched [listedMerged]) = .ok _ :=
    rfl
  refine ⟨_, (LivePipelineSource.timestampsKept_iff rfl hlive).mpr ?_⟩
  intro job answer hentry _
  cases List.mem_singleton.mp hentry
  exact ⟨1714521600000000, rfl⟩

/-- A Dealls job published on a day. -/
def publishedJob (slug publishedAt : String) : RawSourceJob where
  sourcePlatform := "dealls"
  externalId := slug
  sourceUrl := "https://dealls.com/jobs/" ++ slug
  rawPayload := [("slug", .str slug), ("publishedAt", .str publishedAt)]

/-- The request for a detail that is not there. -/
def notFound : DetailAnswer :=
  .error (.scraper .fetch "source request failed" none false [("statusCode", .int 404)])

/-- What is stored of two Dealls jobs, the older listed first, without their details. -/
def publishedMerged : List RawSourceJob :=
  [mergeMissing (publishedJob "old" "2024-05-01T00:00:00Z") "not_found" true (some false),
    mergeMissing (publishedJob "new" "2024-05-02T00:00:00Z") "not_found" true (some false)]

/-- Two Dealls jobs with a date each: no timestamp is left, the older one stays in front, and no
    bound is reported. -/
theorem publishedAt_lost :
    ∃ live, (maySource .dealls).fetchRawJobs mayDates (mayFetched publishedMerged) = .ok live ∧
      [(publishedJob "old" "2024-05-01T00:00:00Z", notFound),
        (publishedJob "new" "2024-05-02T00:00:00Z", notFound)].mapM
          (fun entry => enrichJob .dealls entry.2 entry.1) = .ok publishedMerged ∧
      (orderFetchedRawJobs "recent" live).map LiveRawJob.externalId = ["old", "new"] ∧
      (∀ result, updateSourceTimestampBounds result live = result) ∧
      ¬ (maySource .dealls).TimestampsKept mayDates
        [(publishedJob "old" "2024-05-01T00:00:00Z", notFound),
          (publishedJob "new" "2024-05-02T00:00:00Z", notFound)] live := by
  refine ⟨_, rfl, rfl, rfl, fun _ => rfl, fun hkept => ?_⟩
  have hcarries : mayDates.CarriesTimestamp .dealls
      (publishedJob "old" "2024-05-01T00:00:00Z").rawPayload :=
    ⟨_, List.mem_cons_self, 1714521600000000, rfl⟩
  obtain ⟨time, htime, -⟩ := hkept.survive _ _ _ List.mem_cons_self hcarries rfl
  cases htime

end Bisakerja
