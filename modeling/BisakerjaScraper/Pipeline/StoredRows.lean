import BisakerjaScraper.Pipeline.RunIds
import BisakerjaScraper.Pipeline.SharedSession
import BisakerjaScraper.Schemes.Assign

/-! Which raw rows a scrape run leaves.

    A row is unique by source platform and external id, and a job rewrites the row of its pair,
    the run and the metadata with it. So after some fetch calls were stored one after the other,
    the rows of the run are those of the jobs that no later job overwrites. -/

namespace Bisakerja
open Schemes

/-- An upsert leaves the rows of the other pairs, and one row under its own, which holds what the
    input brought. -/
structure RowUpserted (input : RawJobInput) (before after : RawJobs) : Prop where
  unique : (after.rows.map RawJob.identity).Nodup
  present : input.identity ∈ after.rows.map RawJob.identity
  kept : ∀ identity ∈ before.rows.map RawJob.identity, identity ∈ after.rows.map RawJob.identity
  others : ∀ raw ∈ after.rows, raw.identity ≠ input.identity → raw ∈ before.rows
  holds : ∀ raw ∈ after.rows, raw.identity = input.identity →
    raw.scrapeRunId = input.scrapeRunId ∧ raw.metadataJson = input.metadataJson

namespace RowUpserted

variable {input : RawJobInput} {rows : RawJobs}

theorem insert (hunique : (rows.rows.map RawJob.identity).Nodup)
    (habsent : input.identity ∉ rows.rows.map RawJob.identity) {raw : RawJob}
    (hid : rows.find? raw.id = none) (hidentity : raw.identity = input.identity)
    (hholds : raw.scrapeRunId = input.scrapeRunId ∧ raw.metadataJson = input.metadataJson) :
    RowUpserted input rows (rows.insert raw) := by
  have hrows := Table.rows_insert rows hid
  have hkeys : (rows.insert raw).rows.map RawJob.identity
      = rows.rows.map RawJob.identity ++ [input.identity] := by
    rw [hrows, List.map_append, List.map_singleton, hidentity]
  refine ⟨?_, ?_, fun identity hmem => ?_, fun other hother hne => ?_, fun other hother hsame => ?_⟩
  · rw [hkeys]
    exact hunique.append (List.nodup_singleton _) (by simpa using habsent)
  · rw [hkeys]
    exact List.mem_append_right _ (List.mem_singleton_self _)
  · rw [hkeys]
    exact List.mem_append_left _ hmem
  · rw [hrows] at hother
    rcases List.mem_append.mp hother with hother | hother
    · exact hother
    · rw [List.mem_singleton.mp hother] at hne
      exact absurd hidentity hne
  · rw [hrows] at hother
    rcases List.mem_append.mp hother with hother | hother
    · exact absurd (hsame ▸ List.mem_map_of_mem hother) habsent
    · rw [List.mem_singleton.mp hother]
      exact hholds

theorem modify (hunique : (rows.rows.map RawJob.identity).Nodup) {existing : RawJob}
    (hmem : existing ∈ rows.rows) (hexisting : existing.identity = input.identity)
    {f : RawJob → RawJob} (hf : ∀ raw, (f raw).id = raw.id)
    (hidentity : ∀ raw, (f raw).identity = raw.identity)
    (hholds : ∀ raw, (f raw).scrapeRunId = input.scrapeRunId ∧
      (f raw).metadataJson = input.metadataJson) :
    RowUpserted input rows (rows.modify existing.id f hf) := by
  have hkeys : (rows.modify existing.id f hf).rows.map RawJob.identity
      = rows.rows.map RawJob.identity := by
    unfold Table.modify
    rw [List.map_map]
    refine List.map_congr_left fun raw _ => ?_
    by_cases h : raw.id = existing.id <;> simp [h, hidentity]
  -- Only the row of the pair is rewritten.
  have hsplit : ∀ raw ∈ (rows.modify existing.id f hf).rows,
      raw = f existing ∨ (raw ∈ rows.rows ∧ raw.identity ≠ input.identity) := by
    intro raw hraw
    obtain ⟨raw₀, hraw₀, rfl⟩ := (Table.mem_modify _ _ _ hf).mp hraw
    by_cases hid : raw₀.id = existing.id
    · rw [if_pos hid, List.inj_on_of_nodup_map rows.unique hraw₀ hmem hid]
      exact .inl rfl
    · rw [if_neg hid]
      refine .inr ⟨hraw₀, fun hsame => hid ?_⟩
      rw [List.inj_on_of_nodup_map hunique hraw₀ hmem (hsame.trans hexisting.symm)]
  refine ⟨?_, ?_, fun identity h => ?_, fun raw hraw hne => ?_, fun raw hraw hsame => ?_⟩
  · rw [hkeys]
    exact hunique
  · rw [hkeys, ← hexisting]
    exact List.mem_map_of_mem hmem
  · rw [hkeys]
    exact h
  · rcases hsplit raw hraw with rfl | ⟨hraw, -⟩
    · exact absurd ((hidentity existing).trans hexisting) hne
    · exact hraw
  · rcases hsplit raw hraw with rfl | ⟨-, hne⟩
    · exact hholds existing
    · exact absurd hsame hne

end RowUpserted

theorem rowUpserted_upsertRawJob {host : Host} (hash : StableHash) (input : RawJobInput)
    {s : JobSession} (hfresh : FreshIds host s)
    (hunique : (s.tables.rawJobs.rows.map RawJob.identity).Nodup) :
    RowUpserted input s.tables.rawJobs (upsertRawJob host hash input s).2.tables.rawJobs := by
  unfold upsertRawJob
  cases hfind : s.tables.findRawJob input.identity with
  | none =>
    refine .insert hunique (fun hmem => ?_) (Table.find?_eq_none_iff.mpr fun hmem => ?_) rfl
      ⟨rfl, rfl⟩
    · obtain ⟨raw, hraw, hsame⟩ := List.mem_map.mp hmem
      exact List.find?_eq_none.mp hfind raw hraw (decide_eq_true hsame)
    · obtain ⟨raw, hraw, hsame⟩ := List.mem_map.mp hmem
      exact hfresh s.ticks (Nat.le_refl _) raw hraw hsame
  | some existing =>
    exact .modify hunique (List.mem_of_find?_eq_some hfind)
      (by simpa using List.find?_some hfind) (RawJob.rewrite_id _ _ _) (fun _ => rfl) fun _ =>
        ⟨rfl, rfl⟩

/-- The rows are those of the start, with some jobs of a run written over them. -/
structure Overwritten (env : ScrapeEnv) (start : RawJobs) (writes : List LiveRawJob)
    (rows : RawJobs) : Prop where
  unique : (rows.rows.map RawJob.identity).Nodup
  present : ∀ job ∈ writes, job.identity ∈ rows.rows.map RawJob.identity
  untouched : ∀ raw ∈ rows.rows, lastWrite LiveRawJob.identity writes raw.identity = none →
    raw ∈ start.rows
  written : ∀ raw ∈ rows.rows, ∀ job,
    lastWrite LiveRawJob.identity writes raw.identity = some job →
    raw.scrapeRunId = env.runId ∧ raw.metadataJson = some (rawMetadataFrom env.isoformat job)

namespace Overwritten

variable {env : ScrapeEnv} {start rows rows' : RawJobs} {writes : List LiveRawJob}

theorem refl (env : ScrapeEnv) (hunique : (start.rows.map RawJob.identity).Nodup) :
    Overwritten env start [] start := by
  refine ⟨hunique, fun _ h => absurd h List.not_mem_nil, fun _ h _ => h, fun _ _ _ h => ?_⟩
  rw [lastWrite_nil] at h
  cases h

theorem write (h : Overwritten env start writes rows) {job : LiveRawJob} {ticks : ℕ}
    (hup : RowUpserted (ScrapeSource.rawInputFrom env job ticks) rows rows') :
    Overwritten env start (writes ++ [job]) rows' := by
  refine ⟨hup.unique, fun job' hjob' => ?_, fun raw hraw hlast => ?_, fun raw hraw job' hlast => ?_⟩
  · rcases List.mem_append.mp hjob' with hjob' | hjob'
    · exact hup.kept _ (h.present job' hjob')
    · rw [List.mem_singleton.mp hjob']
      exact hup.present
  · rw [lastWrite_append] at hlast
    split at hlast
    · cases hlast
    · next hne => exact h.untouched raw (hup.others raw hraw (Ne.symm hne)) hlast
  · rw [lastWrite_append] at hlast
    split at hlast
    · next hsame =>
      cases hlast
      exact hup.holds raw hraw hsame.symm
    · next hne => exact h.written raw (hup.others raw hraw (Ne.symm hne)) job' hlast

/-- The rows of the run are those of the jobs that no later job overwrites. -/
theorem perm_lastWritten (h : Overwritten env start writes rows) {runIds : List String}
    (hrun : env.runId ∈ runIds) (hstart : ∀ raw ∈ start.rows, raw.scrapeRunId ∉ runIds) :
    ((rows.rows.filter fun raw => raw.scrapeRunId ∈ runIds).map fun raw =>
        (raw.identity, raw.metadataJson)).Perm
      ((lastWritten LiveRawJob.identity writes).map fun job =>
        (job.identity, some (rawMetadataFrom env.isoformat job))) := by
  refine (List.perm_ext_iff_of_nodup ?_ ?_).mpr fun entry => ?_
  · refine List.Nodup.of_map Prod.fst ?_
    rw [List.map_map]
    exact (List.filter_sublist.map RawJob.identity).nodup h.unique
  · refine List.Nodup.of_map Prod.fst ?_
    rw [List.map_map]
    exact nodup_lastWritten writes
  · simp only [List.mem_map, List.mem_filter, decide_eq_true_eq]
    constructor
    · rintro ⟨raw, ⟨hraw, hof⟩, rfl⟩
      cases hlast : lastWrite LiveRawJob.identity writes raw.identity with
      | none => exact absurd hof (hstart raw (h.untouched raw hraw hlast))
      | some job =>
        obtain ⟨-, hmetadata⟩ := h.written raw hraw job hlast
        obtain ⟨-, hidentity⟩ := mem_of_lastWrite hlast
        refine ⟨job, mem_lastWritten_iff.mpr (hidentity ▸ hlast), ?_⟩
        rw [hidentity, hmetadata]
    · rintro ⟨job, hjob, rfl⟩
      have hlast := mem_lastWritten_iff.mp hjob
      obtain ⟨raw, hraw, hidentity⟩ := List.mem_map.mp (h.present job (lastWritten_subset _ hjob))
      rw [← hidentity] at hlast
      obtain ⟨hof, hmetadata⟩ := h.written raw hraw job hlast
      refine ⟨raw, ⟨hraw, hof ▸ hrun⟩, ?_⟩
      rw [hidentity, hmetadata]

end Overwritten

/-! ### The fetch calls of a run -/

/-- A fetch call that has returned. -/
structure FetchCall where
  source : ScrapeSource
  fetched : PaginatedFetchResult

namespace FetchCall

variable (env : ScrapeEnv) (call : FetchCall)

/-- The session a source is stored with. -/
def session (s : JobSession) : ScrapeSession where
  tables := s.tables
  committed := s.tables
  result := call.source.sourcePipelineResultFrom
  ticks := s.ticks

/-- `_scrape_source` once the fetch call has returned: what is committed, and the clock. -/
def store (s : JobSession) : JobSession :=
  let ended := call.source.scrapeSource env (.ok call.fetched) (call.session s)
  { tables := ended.2.committed, ticks := ended.2.ticks }

/-- The jobs the call leaves committed, in the order they are written. -/
def stored : List LiveRawJob :=
  match call.source.firstError env (.ok call.fetched) with
  | none => call.source.fetchedJobs env (.ok call.fetched)
  | some _ => []

end FetchCall

namespace ScrapeSource

variable {source : ScrapeSource} {env : ScrapeEnv} {begin : RawJobs} {start : ScrapeSession}
  {writes : List LiveRawJob}

/-- The session while jobs are written over the rows: nothing is committed yet. -/
structure Overwriting (env : ScrapeEnv) (begin : RawJobs) (start : ScrapeSession)
    (writes : List LiveRawJob) (s : ScrapeSession) : Prop where
  rows : Overwritten env begin writes s.tables.rawJobs
  fresh : FreshIds env.host { tables := s.tables, ticks := s.ticks }
  committed : s.committed = start.tables

theorem triple_storeJob_rows (hinj : Function.Injective env.host.newId) (job : LiveRawJob) :
    Triple (Overwriting env begin start writes) (source.storeJob env job)
      (fun _ => Overwriting env begin start (writes ++ [job]))
      (fun _ s => s.committed = start.tables) := by
  refine ((triple_raiseIfSome _).weaken_error fun _ _ hs => hs.1.committed).bind fun _ =>
    .change fun s hs => ?_
  obtain ⟨hs, -⟩ := hs
  refine ⟨hs.rows.write (rowUpserted_upsertRawJob env.hash _ hs.fresh hs.rows.unique), ?_,
    hs.committed⟩
  exact freshIds_upsertRawJob hinj env.hash (rawInputFrom env job s.ticks) hs.fresh

theorem triple_storeAll_rows (hinj : Function.Injective env.host.newId)
    (ordered : List LiveRawJob) (fetched : PaginatedFetchResult) :
    Triple (Overwriting env begin start writes) (source.storeAll env ordered fetched)
      (fun _ s => Overwritten env begin (writes ++ ordered) s.committed.rawJobs)
      (fun _ s => s.committed = start.tables) := by
  have hloop := Triple.forEach (f := source.storeJob env)
    (I := fun done => Overwriting env begin start (writes ++ done))
    (E := fun _ s => s.committed = start.tables) ordered fun done job _ _ => by
      rw [← List.append_assoc]
      exact triple_storeJob_rows hinj job
  rw [List.append_nil] at hloop
  refine Triple.bind (.change fun s hs => ⟨hs.rows, hs.fresh, hs.committed⟩) fun _ =>
    hloop.bind fun _ => ((triple_raiseIfSome _).weaken_error fun _ _ hs => hs.1.committed).bind
      fun _ => .change fun s hs => hs.1.rows

/-- The `try` block commits every job of the fetch, or none. -/
theorem triple_scrapeBody_rows (hinj : Function.Injective env.host.newId)
    (fetched : PaginatedFetchResult) :
    Triple (Overwriting env begin start writes) (source.scrapeBody env (.ok fetched))
      (fun _ s => Overwritten env begin (writes ++ source.fetchedJobs env (.ok fetched))
        s.committed.rawJobs)
      (fun _ s => s.committed = start.tables) := by
  unfold fetchedJobs
  cases hjobs : source.live.fetchRawJobs env.dates fetched with
  | error exc =>
    rw [scrapeBody_of_error hjobs]
    exact .raise fun s hs => hs.committed
  | ok jobs =>
    rw [scrapeBody_of_ok hjobs]
    simp only [hjobs]
    exact triple_storeAll_rows hinj _ fetched

end ScrapeSource

namespace FetchCall

variable {env : ScrapeEnv} {begin : RawJobs} {writes : List LiveRawJob} {s : JobSession}

/-- Storing a fetch call writes its jobs over the rows, or leaves the rows. -/
theorem overwritten_store (call : FetchCall) (hinj : Function.Injective env.host.newId)
    (hrows : Overwritten env begin writes s.tables.rawJobs) (hfresh : FreshIds env.host s) :
    Overwritten env begin (writes ++ call.stored env) (call.store env s).tables.rawJobs ∧
      FreshIds env.host (call.store env s) := by
  have hstart := call.source.sourcePipelineResultFrom_start
  have hbody : Triple (fun session => session = call.session s)
      (call.source.scrapeBody env (.ok call.fetched)) _ _ :=
    ScrapeSource.triple_scrapeBody hinj hfresh rfl hstart.1 hstart.2 (.ok call.fetched)
  have hbodyRows : Triple (ScrapeSource.Overwriting env begin (call.session s) writes)
      (call.source.scrapeBody env (.ok call.fetched)) _ _ :=
    ScrapeSource.triple_scrapeBody_rows hinj call.fetched
  have hsource : Triple (fun session => session = call.session s)
      (call.source.scrapeSource env (.ok call.fetched)) _ _ :=
    ScrapeSource.triple_scrapeSource hinj hfresh rfl hstart.1 hstart.2 (.ok call.fetched)
  have hrowsEnd : Triple (fun session => session = call.session s)
      (call.source.scrapeSource env (.ok call.fetched))
      (fun _ session => Overwritten env begin (writes ++ call.stored env)
        session.committed.rawJobs)
      (fun _ session => Overwritten env begin (writes ++ call.stored env)
        session.committed.rawJobs) := by
    refine Triple.handle ((hbody.and hbodyRows).conseq
      (fun session hsession => ⟨hsession, ?_⟩) (fun _ session hs => ?_)
      fun exc session hs => hs) fun exc => ?_
    · rw [hsession]
      exact ⟨hrows, hfresh, rfl⟩
    · unfold stored
      rw [hs.1.1]
      exact hs.2
    · refine Triple.bind (.change fun session hs => ?_) fun _ =>
        (triple_raiseIfSome _).conseq (fun _ => id) (fun _ _ => And.left) fun _ _ => And.left
      unfold stored
      rw [hs.1.1, List.append_nil]
      change Overwritten env begin writes session.committed.rawJobs
      rw [hs.2]
      exact hrows
  refine ⟨hrowsEnd.of_run rfl, ?_⟩
  have hsettled := hsource.conseq (fun _ => id) (fun _ _ => And.left) fun _ _ => And.left
  exact (hsettled.of_run rfl).fresh

end FetchCall

/-- The fetch calls of a run, in the order in which they are stored. The rows of the stages are
    new, so no raw row is of the run yet; a raw row is unique by its pair; no two calls have the
    same source and keyword, and every job of a call is of its source. -/
structure FetchRun where
  runId : String
  env : ScrapeEnv
  calls : List FetchCall
  start : JobSession
  listed : env.runId ∈ stageRunIds runId
  unstored : ∀ raw ∈ start.tables.rawJobs.rows, raw.scrapeRunId ∉ stageRunIds runId
  unique : (start.tables.rawJobs.rows.map RawJob.identity).Nodup
  ids : Function.Injective env.host.newId
  fresh : FreshIds env.host start
  distinct : (calls.map fun call =>
    (call.source.sourcePlatform, call.source.live.keyword)).Nodup
  platform : ∀ call ∈ calls, ∀ raw ∈ call.fetched.rawJobs,
    raw.sourcePlatform = call.source.sourcePlatform

namespace FetchRun

variable (run : FetchRun)

/-- The tables once every call is stored. -/
def finish : JobSession := run.calls.foldl (fun s call => call.store run.env s) run.start

/-- The `raw_jobs` of `verify_database_state`, but for their order. -/
def rawJobs : List RawJob :=
  run.finish.tables.rawJobs.rows.filter fun raw => raw.scrapeRunId ∈ stageRunIds run.runId

/-- The jobs each call stores. -/
def batches : List (List LiveRawJob) := run.calls.map (FetchCall.stored run.env)

theorem overwritten_finish :
    Overwritten run.env run.start.tables.rawJobs
      run.batches.flatten run.finish.tables.rawJobs := by
  have hrun : ∀ (calls : List FetchCall) (writes : List LiveRawJob) (s : JobSession),
      Overwritten run.env run.start.tables.rawJobs writes s.tables.rawJobs →
      FreshIds run.env.host s →
      Overwritten run.env run.start.tables.rawJobs
        (writes ++ (calls.map (FetchCall.stored run.env)).flatten)
        (calls.foldl (fun s call => call.store run.env s) s).tables.rawJobs := by
    intro calls
    induction calls with
    | nil =>
      intro writes s hrows _
      rwa [List.map_nil, List.flatten_nil, List.append_nil]
    | cons call calls ih =>
      intro writes s hrows hfresh
      have hstored := call.overwritten_store run.ids hrows hfresh
      have hrest := ih _ _ hstored.1 hstored.2
      rwa [List.append_assoc] at hrest
  exact hrun run.calls [] run.start (.refl run.env run.unique) run.fresh

/-- The rows of the run are those of the jobs that no later job overwrites. -/
theorem perm_rawJobs :
    (run.rawJobs.map fun raw => (raw.identity, raw.metadataJson)).Perm
      ((lastWritten LiveRawJob.identity run.batches.flatten).map fun job =>
        (job.identity, some (rawMetadataFrom run.env.isoformat job))) :=
  run.overwritten_finish.perm_lastWritten run.listed run.unstored

end FetchRun

/-! ### The runs of the scrape stage -/

namespace ScrapeRun

variable {n : ℕ} (run : ScrapeRun n)

/-- The fetch call that a task is about to store. -/
def returned (s : ScrapeState n) (i : Fin n) : Option FetchCall :=
  match s.tasks i with
  | .fetched _ (.ok fetched) => some { source := run.sources i, fetched }
  | _ => none

/-- The fetch calls a schedule stores, in that order. -/
def storedCalls (s : ScrapeState n) : List (Fin n) → List FetchCall
  | [] => []
  | i :: schedule => (run.returned s i).toList ++ storedCalls (run.advance s i) schedule

/-- One step stores the call its task is about to store, if there is one. -/
theorem advance_eq_store (s : ScrapeState n) (i : Fin n) :
    ({ tables := (run.advance s i).tables, ticks := (run.advance s i).ticks } : JobSession)
      = (run.returned s i).toList.foldl (fun s call => call.store run.env s)
          { tables := s.tables, ticks := s.ticks } := by
  unfold advance returned
  cases s.tasks i with
  | waiting =>
    dsimp only
    split <;> rfl
  | fetching =>
    dsimp only
    split <;> rfl
  | fetched blocked outcome =>
    cases outcome with
    | error exc =>
      -- The fetch itself failed, so there is nothing to write.
      dsimp only [ScrapeSource.scrapeSource]
      cases run.env.allowPartial <;> rfl
    | ok fetched => rfl
  | done blocked outcome result raised => rfl

/-- Whatever the schedule, the tables are those of its fetch calls stored one after the other. -/
theorem execute_eq_store (s : ScrapeState n) (schedule : List (Fin n)) :
    ({ tables := (schedule.foldl run.advance s).tables
       ticks := (schedule.foldl run.advance s).ticks } : JobSession)
      = (run.storedCalls s schedule).foldl (fun s call => call.store run.env s)
          { tables := s.tables, ticks := s.ticks } := by
  induction schedule generalizing s with
  | nil => rfl
  | cons i schedule ih =>
    rw [List.foldl_cons, ih, advance_eq_store, storedCalls, List.foldl_append]

end ScrapeRun

end Bisakerja
