import Mathlib.Algebra.BigOperators.Group.List.Basic
import Mathlib.Algebra.Ring.Int.Defs
import BisakerjaScraper.Pipeline.StoredRows
import BisakerjaScraper.Schemes.Assign
import BisakerjaScraper.Sources.Lists
import BisakerjaScraper.Sources.MapperUtils

/-! The totals of the fetch calls, as the verify command reads them off the raw rows.

    The numbers of a fetch call are copied into the metadata of each of its jobs, and added up over
    the rows. So a call counts as often as rows of it are left, and not at all when none is. -/

namespace Bisakerja
open Schemes

/-- `safe_int`. Not every digit of `isdigit` is one for `int`. -/
def safeInt (value : Json) : Except PyException ℤ := sourceOptionalInt value 0

/-- What `latest_metadata_summary` returns, but for the order of the stop reasons. -/
structure MetadataSummary where
  recencyMode : Json := .null
  recencyDays : Json := .null
  requestedLimit : Json := .null
  newestSourceTimestamp : Option String := none
  oldestSourceTimestamp : Option String := none
  pagesAttempted : ℤ := 0
  pagesSucceeded : ℤ := 0
  pagesFailed : ℤ := 0
  dedupedCount : ℤ := 0
  stopReasons : Assigned String ℕ := Table.empty _

/-- The stop reason a row is counted under. -/
def stopReasonOf (metadata : Option Dict) : Option String :=
  match Dict.get (metadata.getD []) "stopReason" with
  | .str reason => if reason = "" then none else some reason
  | _ => none

/-- `stop_reasons[reason]`. -/
def MetadataSummary.timesOf (summary : MetadataSummary) (reason : String) : ℕ :=
  (summary.stopReasons.get reason).getD 0

/-- `max` and `min` of two texts, the first when they are equal. -/
def laterText (a b : String) : String := if a < b then b else a
def earlierText (a b : String) : String := if b < a then b else a

/-- The bounds with the timestamp of one more row. -/
def MetadataSummary.boundedBy (summary : MetadataSummary) : Json → MetadataSummary
  | .str time =>
    { summary with
      newestSourceTimestamp := some (summary.newestSourceTimestamp.elim time (laterText · time))
      oldestSourceTimestamp := some (summary.oldestSourceTimestamp.elim time (earlierText · time)) }
  | _ => summary

/-- The stop reasons with one more. -/
def countReason (reasons : Assigned String ℕ) : Option String → Assigned String ℕ
  | some reason => reasons.assign reason ((reasons.get reason).getD 0 + 1)
  | none => reasons

/-- One row of `latest_metadata_summary`. -/
def MetadataSummary.add (summary : MetadataSummary) (raw : RawJob) :
    Except PyException MetadataSummary := do
  let metadata := raw.metadataJson.getD []
  let bounded := summary.boundedBy (metadata.get "sourceTimestamp")
  let attempted ← safeInt (metadata.get "pagesAttempted")
  let succeeded ← safeInt (metadata.get "pagesSucceeded")
  let failed ← safeInt (metadata.get "pagesFailed")
  let deduped ← safeInt (metadata.get "dedupedCount")
  return { bounded with
    requestedLimit := summary.requestedLimit.orElse (metadata.get "requestedLimit")
    recencyMode := summary.recencyMode.orElse (metadata.get "recencyMode")
    recencyDays := summary.recencyDays.orElse (metadata.get "recencyDays")
    pagesAttempted := summary.pagesAttempted + attempted
    pagesSucceeded := summary.pagesSucceeded + succeeded
    pagesFailed := summary.pagesFailed + failed
    dedupedCount := summary.dedupedCount + deduped
    stopReasons := countReason summary.stopReasons (stopReasonOf raw.metadataJson) }

/-- `latest_metadata_summary`. -/
def latestMetadataSummary (rawJobs : List RawJob) : Except PyException MetadataSummary :=
  rawJobs.foldlM MetadataSummary.add {}

/-! ### What is added up -/

/-- The numbers of a fetch call. -/
structure FetchNumbers where
  attempted : ℤ
  succeeded : ℤ
  failed : ℤ
  deduped : ℤ
  stopReason : String

/-- The metadata has the numbers of a fetch call. -/
structure HasNumbers (metadata : Option Dict) (numbers : FetchNumbers) : Prop where
  attempted : Dict.get (metadata.getD []) "pagesAttempted" = .int numbers.attempted
  succeeded : Dict.get (metadata.getD []) "pagesSucceeded" = .int numbers.succeeded
  failed : Dict.get (metadata.getD []) "pagesFailed" = .int numbers.failed
  deduped : Dict.get (metadata.getD []) "dedupedCount" = .int numbers.deduped
  stopReason : Dict.get (metadata.getD []) "stopReason" = .str numbers.stopReason

/-- The summary adds up the numbers, and counts each stop reason that is not empty. -/
structure AddsUp (summary : MetadataSummary) (numbers : List FetchNumbers) : Prop where
  attempted : summary.pagesAttempted = (numbers.map FetchNumbers.attempted).sum
  succeeded : summary.pagesSucceeded = (numbers.map FetchNumbers.succeeded).sum
  failed : summary.pagesFailed = (numbers.map FetchNumbers.failed).sum
  deduped : summary.dedupedCount = (numbers.map FetchNumbers.deduped).sum
  timesOf : ∀ reason, reason ≠ "" → summary.timesOf reason
    = numbers.countP fun n => n.stopReason = reason
  empty : summary.timesOf "" = 0

theorem AddsUp.perm {summary : MetadataSummary} {numbers numbers' : List FetchNumbers}
    (h : AddsUp summary numbers) (hperm : numbers.Perm numbers') : AddsUp summary numbers' where
  attempted := h.attempted.trans (hperm.map _).sum_eq
  succeeded := h.succeeded.trans (hperm.map _).sum_eq
  failed := h.failed.trans (hperm.map _).sum_eq
  deduped := h.deduped.trans (hperm.map _).sum_eq
  timesOf reason hreason := (h.timesOf reason hreason).trans (hperm.countP_eq _)
  empty := h.empty

theorem get_countReason (reasons : Assigned String ℕ) (found : Option String) (reason : String) :
    ((countReason reasons found).get reason).getD 0
      = (reasons.get reason).getD 0 + if found = some reason then 1 else 0 := by
  cases found with
  | none => simp [countReason]
  | some other =>
    unfold countReason
    by_cases h : other = reason
    · subst h
      rw [Assigned.get_assign_self, if_pos rfl]
      rfl
    · rw [Assigned.get_assign_of_ne _ h, if_neg fun heq => h (Option.some.inj heq)]
      rfl

/-- One more row with numbers. -/
theorem AddsUp.add {summary : MetadataSummary} {numbers : List FetchNumbers}
    (h : AddsUp summary numbers) {raw : RawJob} {n : FetchNumbers}
    (hraw : HasNumbers raw.metadataJson n) :
    ∃ summary', summary.add raw = .ok summary' ∧ AddsUp summary' (numbers ++ [n]) := by
  have hreason : stopReasonOf raw.metadataJson
      = if n.stopReason = "" then none else some n.stopReason := by
    unfold stopReasonOf
    rw [hraw.stopReason]
  unfold MetadataSummary.add safeInt
  simp only [hraw.attempted, hraw.succeeded, hraw.failed, hraw.deduped]
  refine ⟨_, rfl, ⟨?_, ?_, ?_, ?_, fun reason hne => ?_, ?_⟩⟩
  · rw [List.map_append, List.sum_append, ← h.attempted]
    simp
  · rw [List.map_append, List.sum_append, ← h.succeeded]
    simp
  · rw [List.map_append, List.sum_append, ← h.failed]
    simp
  · rw [List.map_append, List.sum_append, ← h.deduped]
    simp
  · unfold MetadataSummary.timesOf
    rw [get_countReason, List.countP_append, ← h.timesOf reason hne, hreason]
    unfold MetadataSummary.timesOf
    by_cases hsame : n.stopReason = reason
    · simp [hsame, hne]
    · by_cases hempty : n.stopReason = "" <;> simp [hsame, hempty, hne]
  · unfold MetadataSummary.timesOf
    rw [get_countReason, hreason]
    have hzero := h.empty
    unfold MetadataSummary.timesOf at hzero
    rw [hzero]
    by_cases hempty : n.stopReason = "" <;> simp [hempty]

/-- The numbers that metadata has. -/
def numbersOf (metadata : Option Dict) : FetchNumbers where
  attempted := (safeInt (Dict.get (metadata.getD []) "pagesAttempted")).toOption.getD 0
  succeeded := (safeInt (Dict.get (metadata.getD []) "pagesSucceeded")).toOption.getD 0
  failed := (safeInt (Dict.get (metadata.getD []) "pagesFailed")).toOption.getD 0
  deduped := (safeInt (Dict.get (metadata.getD []) "dedupedCount")).toOption.getD 0
  stopReason := match Dict.get (metadata.getD []) "stopReason" with
    | .str reason => reason
    | _ => ""

theorem HasNumbers.numbersOf_eq {metadata : Option Dict} {n : FetchNumbers}
    (h : HasNumbers metadata n) : numbersOf metadata = n := by
  unfold numbersOf
  rw [h.attempted, h.succeeded, h.failed, h.deduped, h.stopReason]
  rfl

/-- The summary of rows that have numbers adds them up. -/
theorem addsUp_latestMetadataSummary {rawJobs : List RawJob}
    (h : ∀ raw ∈ rawJobs, HasNumbers raw.metadataJson (numbersOf raw.metadataJson)) :
    ∃ summary, latestMetadataSummary rawJobs = .ok summary ∧
      AddsUp summary (rawJobs.map fun raw => numbersOf raw.metadataJson) := by
  induction rawJobs using List.reverseRecOn with
  | nil => exact ⟨{}, rfl, rfl, rfl, rfl, rfl, fun _ _ => rfl, rfl⟩
  | append_singleton rawJobs raw ih =>
    obtain ⟨summary, hsummary, hadds⟩ := ih fun other hother =>
      h other (List.mem_append_left _ hother)
    obtain ⟨summary', hnext, hadds'⟩ :=
      hadds.add (h raw (List.mem_append_right _ (List.mem_singleton_self raw)))
    refine ⟨summary', ?_, ?_⟩
    · unfold latestMetadataSummary at hsummary ⊢
      rw [List.foldlM_append, hsummary]
      change List.foldlM MetadataSummary.add summary [raw] = _
      rw [List.foldlM_cons, hnext]
      rfl
    · rwa [List.map_append, List.map_singleton]

/-! ### The rows of a call -/

/-- `metadata_value(raw.metadata_json, "keyword")`, as far as it is a text. -/
def keywordOf (metadata : Option Dict) : Option String :=
  match Dict.get (metadata.getD []) "keyword" with
  | .str keyword => some keyword
  | _ => none

namespace FetchCall

variable (call : FetchCall)

/-- What the fetch call reports. -/
def numbers : FetchNumbers where
  attempted := call.fetched.pagesAttempted
  succeeded := call.fetched.pagesSucceeded
  failed := call.fetched.pagesFailed
  deduped := call.fetched.dedupedCount
  stopReason := call.fetched.stopReason

/-- A row with this platform and metadata is counted under the source and the keyword of the
    call. -/
def counts (platform : String) (metadata : Option Dict) : Bool :=
  platform = call.source.sourcePlatform ∧ keywordOf metadata = some call.source.live.keyword

/-- The raw jobs of the call. -/
def rowsOf (rawJobs : List RawJob) : List RawJob :=
  rawJobs.filter fun raw => call.counts raw.sourcePlatform raw.metadataJson

/-- The metadata says that the call fetched the job. -/
def Fetched (job : LiveRawJob) : Prop :=
  job.keyword = call.source.live.keyword ∧
    ∃ truncatedCount : ℤ,
      job.fetchMetadata = call.fetched.report ++ [("truncatedCount", .int truncatedCount)]

variable {call}

theorem mem_stored {env : ScrapeEnv} {job : LiveRawJob} (h : job ∈ call.stored env) :
    call.Fetched job ∧ ∃ raw ∈ call.fetched.rawJobs, job.sourcePlatform = raw.sourcePlatform := by
  unfold stored at h
  split at h
  · unfold ScrapeSource.fetchedJobs at h
    dsimp only at h
    split at h
    · cases h
    · next jobs hjobs =>
      obtain ⟨raw, hraw, hlive⟩ :=
        mem_of_mapM_ok hjobs ((perm_orderFetchedRawJobs _ jobs).mem_iff.mp h)
      obtain ⟨time, -, rfl⟩ := ok_map_iff.mp hlive
      refine ⟨⟨rfl, _, rfl⟩, raw, ?_, rfl⟩
      unfold sliceTo at hraw
      split at hraw <;> exact List.mem_of_mem_take hraw
  · cases h

/-- The row of a job has the numbers of its call, and its keyword. -/
theorem Fetched.hasNumbers {job : LiveRawJob} (h : call.Fetched job) (isoformat : Time → String) :
    HasNumbers (some (rawMetadataFrom isoformat job)) call.numbers ∧
      Dict.get (rawMetadataFrom isoformat job) "keyword" = .str call.source.live.keyword := by
  obtain ⟨hkeyword, truncatedCount, hmetadata⟩ := h
  unfold rawMetadataFrom
  -- The five entries of the job and the seven of its fetch have different keys.
  rw [hkeyword, hmetadata, Dict.merge_eq_append]
  · unfold PaginatedFetchResult.report
    cases job.sourceTimestamp <;> cases call.fetched.totalAvailable <;>
      exact ⟨⟨rfl, rfl, rfl, rfl, rfl⟩, rfl⟩
  · intro entry hentry
    simp only [PaginatedFetchResult.report, List.cons_append, List.nil_append, List.mem_cons,
      List.not_mem_nil, or_false] at hentry
    rcases hentry with rfl | rfl | rfl | rfl | rfl | rfl | rfl <;> rfl
  · change ["pagesAttempted", "pagesSucceeded", "pagesFailed", "stopReason", "dedupedCount",
      "totalAvailable", "truncatedCount"].Nodup
    decide

end FetchCall

namespace FetchRun

variable (run : FetchRun)

/-- The summary of the raw jobs of a run adds up the numbers of the fetch calls, each once, and the
    rows of a call give its stop reason once. -/
structure TotalsOnce : Prop where
  totals : ∃ summary, latestMetadataSummary run.rawJobs = .ok summary ∧
    AddsUp summary (run.calls.map FetchCall.numbers)
  once : ∀ call ∈ run.calls, ∃ summary,
    latestMetadataSummary (call.rowsOf run.rawJobs) = .ok summary ∧
      summary.timesOf call.fetched.stopReason = 1

/-- Each call has a stop reason, and stores exactly one pair of source and id that no later call
    stores. -/
def KeepsOne : Prop :=
  ∀ before call later, run.calls = before ++ call :: later →
    call.fetched.stopReason ≠ "" ∧
      (keysLeft ((call.stored run.env).map LiveRawJob.identity)
        ((later.map (FetchCall.stored run.env)).flatten.map LiveRawJob.identity)).length = 1

variable {run}

/-- What a row of the run holds. -/
theorem exists_of_mem_rawJobs {raw : RawJob} (h : raw ∈ run.rawJobs) :
    ∃ call ∈ run.calls, HasNumbers raw.metadataJson call.numbers := by
  have hmem : (raw.identity, raw.metadataJson) ∈ run.rawJobs.map fun raw =>
      (raw.identity, raw.metadataJson) := List.mem_map_of_mem h
  rw [run.perm_rawJobs.mem_iff] at hmem
  obtain ⟨job, hjob, heq⟩ := List.mem_map.mp hmem
  obtain ⟨batch, hbatch, hjob⟩ := List.mem_flatten.mp (lastWritten_subset _ hjob)
  obtain ⟨call, hcall, rfl⟩ := List.mem_map.mp hbatch
  have hmetadata : some (rawMetadataFrom run.env.isoformat job) = raw.metadataJson :=
    congrArg Prod.snd heq
  refine ⟨call, hcall, ?_⟩
  rw [← hmetadata]
  exact ((FetchCall.mem_stored hjob).1.hasNumbers _).1

theorem hasNumbers_of_mem_rawJobs (run : FetchRun) {raw : RawJob} (h : raw ∈ run.rawJobs) :
    HasNumbers raw.metadataJson (numbersOf raw.metadataJson) := by
  obtain ⟨call, -, hnumbers⟩ := exists_of_mem_rawJobs h
  rw [hnumbers.numbersOf_eq]
  exact hnumbers

theorem numbersOf_stored {call : FetchCall} {job : LiveRawJob} (h : job ∈ call.stored run.env) :
    numbersOf (some (rawMetadataFrom run.env.isoformat job)) = call.numbers :=
  ((FetchCall.mem_stored h).1.hasNumbers _).1.numbersOf_eq

/-- The rows of a call are those of its jobs that no later call overwrites. -/
theorem perm_rowsOf {before later : List FetchCall} {call : FetchCall}
    (hsplit : run.calls = before ++ call :: later) :
    ((call.rowsOf run.rawJobs).map fun raw => numbersOf raw.metadataJson).Perm
      (List.replicate (leftOf LiveRawJob.identity (call.stored run.env)
        (later.map (FetchCall.stored run.env))).length call.numbers) := by
  have hcalls : ∀ other ∈ run.calls, ∀ job ∈ other.stored run.env,
      job.identity.1 = other.source.sourcePlatform ∧
        keywordOf (some (rawMetadataFrom run.env.isoformat job))
          = some other.source.live.keyword := by
    intro other hother job hjob
    obtain ⟨hfetched, raw, hraw, hplatform⟩ := FetchCall.mem_stored hjob
    refine ⟨hplatform.trans (run.platform other hother raw hraw), ?_⟩
    unfold keywordOf
    rw [Option.getD_some, (hfetched.hasNumbers _).2]
  have hself : ∀ job ∈ call.stored run.env, call.counts job.identity.1
      (some (rawMetadataFrom run.env.isoformat job)) = true := by
    intro job hjob
    have hcall : call ∈ run.calls := by
      rw [hsplit]
      exact List.mem_append_right _ List.mem_cons_self
    exact decide_eq_true (hcalls call hcall job hjob)
  have hothers : ∀ other ∈ before ++ later, ∀ job ∈ other.stored run.env,
      call.counts job.identity.1 (some (rawMetadataFrom run.env.isoformat job)) = false := by
    intro other hother job hjob
    have hmem : other ∈ run.calls := by
      rw [hsplit, List.mem_append, List.mem_cons]
      exact (List.mem_append.mp hother).imp_right .inr
    obtain ⟨hplatform, hkeyword⟩ := hcalls other hmem job hjob
    have hdistinct := run.distinct
    rw [hsplit, List.map_append, List.map_cons, List.nodup_middle, List.nodup_cons,
      ← List.map_append] at hdistinct
    refine decide_eq_false fun hsame => hdistinct.1 (List.mem_map.mpr ⟨other, hother, ?_⟩)
    rw [hplatform, hkeyword] at hsame
    exact Prod.ext hsame.1 (Option.some.inj hsame.2)
  have hperm := run.perm_rawJobs.filter fun entry => call.counts entry.1.1 entry.2
  unfold batches at hperm
  rw [List.filter_map, List.filter_map, hsplit] at hperm
  simp only [Function.comp_def] at hperm
  rw [filter_lastWritten_eq hself hothers] at hperm
  have hnumbers := hperm.map fun entry => numbersOf entry.2
  rw [List.map_map, List.map_map] at hnumbers
  refine hnumbers.trans (List.Perm.of_eq (List.map_eq_replicate_iff.mpr fun job hjob => ?_))
  exact numbersOf_stored (lastWritten_subset _ (List.mem_of_mem_filter hjob))

/-- How often the rows of a call give its stop reason. -/
theorem timesOf_rowsOf {before later : List FetchCall} {call : FetchCall}
    (hsplit : run.calls = before ++ call :: later) :
    ∃ summary, latestMetadataSummary (call.rowsOf run.rawJobs) = .ok summary ∧
      summary.timesOf call.fetched.stopReason
        = if call.fetched.stopReason = "" then 0
          else (leftOf LiveRawJob.identity (call.stored run.env)
            (later.map (FetchCall.stored run.env))).length := by
  obtain ⟨summary, hsummary, hadds⟩ := addsUp_latestMetadataSummary
    fun raw hraw => run.hasNumbers_of_mem_rawJobs (List.mem_of_mem_filter hraw)
  have hown := hadds.perm (perm_rowsOf hsplit)
  refine ⟨summary, hsummary, ?_⟩
  split
  · next hempty =>
    rw [hempty]
    exact hown.empty
  · next hne =>
    rw [hown.timesOf _ hne, List.countP_replicate]
    exact if_pos (decide_eq_true rfl)

/-- BUG: the totals are those of the fetch calls, each call once, exactly when each call has a stop
    reason and leaves exactly one row. A call with two jobs is added twice; a call without jobs, or
    whose jobs another keyword has returned after it, is not added at all. -/
theorem totalsOnce_iff (run : FetchRun) : run.TotalsOnce ↔ run.KeepsOne := by
  constructor
  · intro h before call later hsplit
    have hcall : call ∈ run.calls := by
      rw [hsplit]
      exact List.mem_append_right _ List.mem_cons_self
    obtain ⟨summary, hsummary, honce⟩ := h.once call hcall
    obtain ⟨summary', hsummary', htimes⟩ := timesOf_rowsOf hsplit
    rw [hsummary] at hsummary'
    cases hsummary'
    rw [honce] at htimes
    split at htimes
    · cases htimes
    · next hne => exact ⟨hne, (length_leftOf _ _).symm.trans htimes.symm⟩
  · intro h
    refine ⟨?_, fun call hcall => ?_⟩
    · obtain ⟨summary, hsummary, hadds⟩ := addsUp_latestMetadataSummary
        fun raw hraw => run.hasNumbers_of_mem_rawJobs hraw
      refine ⟨summary, hsummary, hadds.perm ?_⟩
      have hnumbers := run.perm_rawJobs.map fun entry => numbersOf entry.2
      rw [List.map_map, List.map_map] at hnumbers
      refine hnumbers.trans (List.Perm.of_eq (map_lastWritten_eq ?_ fun before call later hsplit => ?_))
      · exact fun call _ job hjob => numbersOf_stored hjob
      · exact (length_leftOf _ _).trans (h before call later hsplit).2
    · obtain ⟨before, later, hsplit⟩ := List.append_of_mem hcall
      obtain ⟨hne, hone⟩ := h before call later hsplit
      obtain ⟨summary, hsummary, htimes⟩ := timesOf_rowsOf hsplit
      rw [if_neg hne, length_leftOf] at htimes
      exact ⟨summary, hsummary, htimes.trans hone⟩

end FetchRun

/-! ### One call, two jobs -/

/-- A Glints job. -/
def glintsJob (externalId : String) : RawSourceJob where
  sourcePlatform := "glints"
  externalId
  sourceUrl := "u"
  rawPayload := []

/-- A run of one fetch call, which reads one page of two jobs. -/
def twoJobsRun : FetchRun where
  runId := "mon"
  env :=
    { host := tallyHost, hash := plainHash, isoformat := fun _ => "", dates := mayDates
      settings := smallSettings, runId := "mon-scrape" }
  calls := [
    { source := { live := maySource .glints, feed := onePage, samePlatform := rfl }
      fetched := mayFetched [glintsJob "1", glintsJob "2"] }]
  start := { tables := { rawJobs := Table.empty _, normalizedJobs := Table.empty _ } }
  listed := by decide +kernel
  unstored := nofun
  unique := List.nodup_nil
  ids := tallyHost_newId_injective
  fresh := nofun
  distinct := List.nodup_singleton _
  platform := by
    intro call hcall raw hraw
    cases List.mem_singleton.mp hcall
    rcases List.mem_cons.mp hraw with rfl | hraw
    · rfl
    · cases List.mem_singleton.mp hraw
      rfl

/-- One page was attempted, and two are reported. -/
theorem page_counted_twice :
    (∃ summary, latestMetadataSummary twoJobsRun.rawJobs = .ok summary ∧
      summary.pagesAttempted = 2 ∧ summary.timesOf "source_exhausted" = 2) ∧
    (twoJobsRun.calls.map fun call => call.fetched.pagesAttempted) = [1] ∧
    ¬ twoJobsRun.TotalsOnce := by
  have hread : ((latestMetadataSummary twoJobsRun.rawJobs).toOption.map fun summary =>
      (summary.pagesAttempted, summary.timesOf "source_exhausted")) = some (2, 2) := by
    decide +kernel
  cases hsummary : latestMetadataSummary twoJobsRun.rawJobs with
  | error exc =>
    rw [hsummary] at hread
    cases hread
  | ok summary =>
    rw [hsummary] at hread
    obtain ⟨hpages, htimes⟩ := Prod.mk.inj (Option.some.inj hread)
    refine ⟨⟨summary, rfl, hpages, htimes⟩, rfl, fun h => ?_⟩
    obtain ⟨summary', hsummary', hadds⟩ := h.totals
    rw [hsummary] at hsummary'
    cases hsummary'
    have hpages' := hadds.attempted
    rw [hpages] at hpages'
    cases hpages'

end Bisakerja
