import BisakerjaScraper.Persistence.Repositories
import BisakerjaScraper.Schemes.Fallible
import BisakerjaScraper.Sync.Frame

/-! Syncing a job again after it has been scraped again.

    The payload names the run that last stored the job's raw row, and `upsert_raw_job` replaces
    that run id on every scrape. So a re-scrape with identical content leaves the hashed payload
    alone only if it runs under the same run id; under another one the event of the job is no
    longer found, whatever its state. -/

namespace Bisakerja
open Schemes Schemes.Delivery

/-! ### The run id in the payload -/

theorem contract_ok {α : Type} {job : NormalizedJob} {errors : List Json} {value out : α}
    (h : contract job errors value = .ok out) : out = value := (contract_ok_iff.mp h).2

/-- The run id a payload carries: none for an empty one. -/
def shownRunId (runId : String) : Option String := if runId = "" then none else some runId

theorem shownRunId_injective {a b : String} (h : shownRunId a = shownRunId b) : a = b := by
  unfold shownRunId at h
  split at h <;> split at h <;> simp_all

theorem checkIngestionRun_ok {job : NormalizedJob} {runId : String} {out : Option String}
    (h : checkIngestionRun job (some runId) = .ok out) : out = shownRunId runId := by
  unfold checkIngestionRun at h
  unfold shownRunId
  dsimp only at h
  split at h
  · next hempty =>
    cases h
    rw [if_pos hempty]
  · next hne =>
    rw [contract_ok h, if_neg hne]

/-- A built payload carries the run id of the raw row. -/
theorem sourceRunId_of_build {text : PayloadText} {raw : RawJob} {job : NormalizedJob}
    {payload : BackendJobPayload} (h : text.buildBackendJobPayload (some raw) job = .ok payload) :
    payload.sourceRunId = shownRunId raw.scrapeRunId := by
  unfold PayloadText.buildBackendJobPayload at h
  simp only [ok_bind_iff] at h
  obtain ⟨_, _, _, _, runId, hrun, _, _, _, _, _, _, _, _, hlast⟩ := h
  rw [contract_ok hlast]
  exact checkIngestionRun_ok hrun

/-- The raw row matters to the payload through its run id alone. -/
theorem build_congr {text : PayloadText} {raw raw' : RawJob} (job : NormalizedJob)
    (h : raw.scrapeRunId = raw'.scrapeRunId) :
    text.buildBackendJobPayload (some raw) job = text.buildBackendJobPayload (some raw') job := by
  unfold PayloadText.buildBackendJobPayload
  simp only [Option.map_some, h]

theorem ingestionRunJson_injective {a b : Option String}
    (h : ingestionRunJson a = ingestionRunJson b) : a = b := by
  cases a <;> cases b <;> simp_all [ingestionRunJson]

/-- The dumped payload tells the run id. -/
theorem sourceRunId_of_dump {text : PayloadText} {payload payload' : BackendJobPayload}
    (h : payload.modelDump text = payload'.modelDump text) :
    payload.sourceRunId = payload'.sourceRunId := by
  simp only [BackendJobPayload.modelDump, Json.dict.injEq, List.cons.injEq, Prod.mk.injEq] at h
  exact ingestionRunJson_injective h.2.2.1.2

/-- A payload that builds builds again as the same one exactly when the run id is the same. -/
theorem dumpedJobPayload_eq_iff {text : PayloadText} {raw raw' : RawJob} {job : NormalizedJob}
    {payload : Json} (h : dumpedJobPayload text (some raw) job = .ok payload) :
    dumpedJobPayload text (some raw') job = .ok payload ↔ raw'.scrapeRunId = raw.scrapeRunId := by
  constructor
  · intro h'
    unfold dumpedJobPayload at h h'
    obtain ⟨built, hbuilt, hdump⟩ := ok_map_iff.mp h
    obtain ⟨built', hbuilt', hdump'⟩ := ok_map_iff.mp h'
    have hrun := sourceRunId_of_dump (hdump'.trans hdump.symm)
    rw [sourceRunId_of_build hbuilt, sourceRunId_of_build hbuilt'] at hrun
    exact shownRunId_injective hrun
  · intro hrun
    unfold dumpedJobPayload at h ⊢
    rw [build_congr job hrun]
    exact h

namespace BackendSyncWorker

variable {w : BackendSyncWorker} {db : JobTables}

/-! ### The re-scrape -/

/-- A later scrape stores the raw row of a job again with the same content. -/
structure Rescrape (db : JobTables) (job : NormalizedJob) (raw : RawJob) (input : RawJobInput) :
    Prop where
  job_mem : job ∈ db.normalizedJobs.rows
  rawJobId : job.rawJobId = some raw.id
  found : db.findRawJob input.identity = some raw
  sameContent : input.rawPayload = raw.rawPayload
  sameUrl : input.sourceUrl = raw.sourceUrl

/-- The job tables after the re-scrape. -/
def rescraped (w : BackendSyncWorker) (db : JobTables) (ticks : ℕ) (input : RawJobInput) :
    JobTables :=
  (upsertRawJob w.host w.hash input { tables := db, ticks }).2.tables

theorem rescraped_normalizedJobs (ticks : ℕ) (input : RawJobInput) :
    (rescraped w db ticks input).normalizedJobs = db.normalizedJobs :=
  upsertRawJob_normalizedJobs w.host w.hash input { tables := db, ticks }

theorem payloadOf_rescraped {text : PayloadText} (hbuild : w.build = dumpedJobPayload text)
    {job : NormalizedJob} {raw : RawJob} {input : RawJobInput} {payload : Json} (ticks : ℕ)
    (h : Rescrape db job raw input) (hpayload : w.payloadOf db job = .ok payload) :
    w.payloadOf (rescraped w db ticks input) job = .ok payload ↔
      input.scrapeRunId = raw.scrapeRunId := by
  have hraw : db.rawJob job = some raw := by
    unfold JobTables.rawJob
    rw [h.rawJobId, Option.bind_some]
    exact Table.find?_of_mem (List.mem_of_find?_eq_some h.found)
  have hraw' : (rescraped w db ticks input).rawJob job = _ :=
    rawJob_upsertRawJob w.host w.hash { tables := db, ticks } h.found h.rawJobId
  unfold payloadOf at hpayload ⊢
  rw [hbuild, hraw] at hpayload
  rw [hbuild, hraw']
  exact dumpedJobPayload_eq_iff hpayload

/-- CORRECT (exactly when the run id stays): after a re-scrape with identical content the job
    builds the payload it built before if and only if the raw row keeps its run id. Then the job
    keeps the event it had, with its attempts, and if that event is sent or dead-lettered, the next
    run, whatever its parameters and answers, creates and changes no event of the job and posts
    nothing of it. Under another run id a digest that tells payloads apart leads elsewhere. -/
theorem rescrape_keeps_payload_iff (w : BackendSyncWorker) (text : PayloadText) (db : JobTables)
    (job : NormalizedJob) (raw : RawJob) (input : RawJobInput) (payload : Json) (ticks : ℕ)
    (hbuild : w.build = dumpedJobPayload text) (h : Rescrape db job raw input)
    (hpayload : w.payloadOf db job = .ok payload) :
    (w.payloadOf (rescraped w db ticks input) job = .ok payload ↔
      input.scrapeRunId = raw.scrapeRunId) ∧
    (input.scrapeRunId = raw.scrapeRunId → ∀ (s : SyncState) (p : SyncParams),
      s.events.find? (w.keyOf (rescraped w db ticks input) job)
        = s.events.find? (w.keyOf db job) ∧
      ∀ event, s.events.find? (w.keyOf db job) = some event →
        event.status = .sent ∨ event.status = .deadLetter →
        Untouched job.id s (w.runOnce s ⟨rescraped w db ticks input, p⟩)) ∧
    (input.scrapeRunId ≠ raw.scrapeRunId → Function.Injective w.hash.digest →
      w.contractValid (rescraped w db ticks input) job = true →
      w.keyOf (rescraped w db ticks input) job ≠ w.keyOf db job) := by
  have hiff := payloadOf_rescraped hbuild ticks h hpayload
  refine ⟨hiff, fun hrun s p => ?_, fun hrun hinj hvalid hkey => ?_⟩
  case refine_2 =>
    cases hpayload' : w.payloadOf (rescraped w db ticks input) job with
    | error exc => simp [contractValid, hpayload'] at hvalid
    | ok payload' =>
      have hdigest := congrArg EventKey.payloadHash hkey
      simp only [keyOf, payloadHash, hpayload, hpayload', eventKey_digest] at hdigest
      rw [hinj hdigest] at hpayload'
      exact hrun (hiff.mp hpayload')
  have hpayload' := hiff.mpr hrun
  have hkey : w.keyOf (rescraped w db ticks input) job = w.keyOf db job := by
    simp [keyOf, payloadHash, hpayload, hpayload']
  have hvalid : w.contractValid (rescraped w db ticks input) job = true := by
    simp [contractValid, hpayload']
  refine ⟨by rw [hkey], fun event hfind hterm => untouched_runOnce ?_⟩
  refine not_candidate_of_terminal ?_ hvalid (by rw [hkey]; exact hfind) hterm
  rw [rescraped_normalizedJobs]
  exact h.job_mem

end BackendSyncWorker

/-! ### A job scraped twice -/

/-- The raw row a scrape leaves for job `a`. -/
def plainRaw (runId : String) : RawJob where
  id := "r"
  scrapeRunId := runId
  sourcePlatform := "dealls"
  externalId := "a"
  sourceUrl := none
  rawPayload := []
  metadataJson := none
  payloadHash := none
  scrapedAt := 0

/-- Job `a`, normalized from that row. -/
def scrapedJob : NormalizedJob := { plainJob "a" "Ac" 0 with rawJobId := some "r" }

/-- The tables after the scrape of day one. -/
def firstDay : JobTables :=
  ⟨⟨[plainRaw "1-scrape"], by decide⟩, ⟨[scrapedJob], by decide⟩⟩

/-- What a scrape of the same content stores. -/
def sameContent (runId : String) : RawJobInput where
  scrapeRunId := runId
  sourcePlatform := "dealls"
  externalId := "a"
  sourceUrl := none
  rawPayload := []

namespace BackendSyncWorker

/-- A worker whose posts are all accepted. -/
def acceptingWorker : BackendSyncWorker := plainWorker 3 fun _ _ => accepted

/-- A sync of day one, a re-scrape under a given run id, and the next sync. -/
def syncedTwice (rescrapeRunId : String) : SyncState :=
  acceptingWorker.runHistory
    [⟨firstDay, { scrapeRunId := none, limit := 10 }⟩,
      ⟨rescraped acceptingWorker firstDay 0 (sameContent rescrapeRunId),
        { scrapeRunId := none, limit := 10 }⟩] (.initial 0)

theorem rescrape_firstDay : Rescrape firstDay scrapedJob (plainRaw "1-scrape")
    (sameContent "1-scrape") :=
  ⟨List.mem_singleton_self _, rfl, rfl, rfl, rfl⟩

theorem payload_firstDay : ∃ payload, acceptingWorker.payloadOf firstDay scrapedJob = .ok payload := by
  have hvalid : acceptingWorker.contractValid firstDay scrapedJob = true := by decide +kernel
  unfold contractValid at hvalid
  split at hvalid
  · next payload heq => exact ⟨payload, heq⟩
  · cases hvalid

theorem rescrape_keeps_payload_iff_firstDay : ∃ payload,
    acceptingWorker.payloadOf firstDay scrapedJob = .ok payload ∧
    (acceptingWorker.payloadOf (rescraped acceptingWorker firstDay 0 (sameContent "1-scrape"))
      scrapedJob = .ok payload ↔ "1-scrape" = "1-scrape") ∧
    ("1-scrape" = "1-scrape" → ∀ (s : SyncState) (p : SyncParams),
      s.events.find? (acceptingWorker.keyOf
          (rescraped acceptingWorker firstDay 0 (sameContent "1-scrape")) scrapedJob)
        = s.events.find? (acceptingWorker.keyOf firstDay scrapedJob) ∧
      ∀ event, s.events.find? (acceptingWorker.keyOf firstDay scrapedJob) = some event →
        event.status = .sent ∨ event.status = .deadLetter →
        Untouched scrapedJob.id s (acceptingWorker.runOnce s
          ⟨rescraped acceptingWorker firstDay 0 (sameContent "1-scrape"), p⟩)) ∧
    ("1-scrape" ≠ "1-scrape" → Function.Injective acceptingWorker.hash.digest →
      acceptingWorker.contractValid (rescraped acceptingWorker firstDay 0 (sameContent "1-scrape"))
        scrapedJob = true →
      acceptingWorker.keyOf (rescraped acceptingWorker firstDay 0 (sameContent "1-scrape")) scrapedJob
        ≠ acceptingWorker.keyOf firstDay scrapedJob) := by
  obtain ⟨payload, hpayload⟩ := payload_firstDay
  exact ⟨payload, hpayload, rescrape_keeps_payload_iff acceptingWorker plainText firstDay scrapedJob
    (plainRaw "1-scrape") (sameContent "1-scrape") payload 0 rfl rescrape_firstDay hpayload⟩

/-- Scraped again under the run id of the next day, the sent job gets a second event and a second
    post; under the same run id it gets neither. -/
theorem rescrape_posts_again :
    (syncedTwice "2-scrape").events.rows.map SyncEvent.status = [.sent, .sent] ∧
      (posts (syncedTwice "2-scrape").journal).length = 2 ∧
      (syncedTwice "1-scrape").events.rows.map SyncEvent.status = [.sent] ∧
      (posts (syncedTwice "1-scrape").journal).length = 1 := by
  decide +kernel

end BackendSyncWorker

end Bisakerja
