import BisakerjaScraper.Pipeline.Accounted
import BisakerjaScraper.Pipeline.Scheduled
import BisakerjaScraper.Sync.Partition

/-! When a job was last seen.

    Only the upsert of a normalized job writes `last_seen_at`, and the gate keeps away from it the
    jobs it knows. So a job that is returned again keeps the date of the run that normalized it. -/

namespace Bisakerja
open Schemes

namespace Visit

variable (visit : Visit)

/-- The raw rows of the jobs that the scrape of the run returned, as it left them. -/
def returnedRows : List RawJob :=
  (visit.run.stageTables visit.db).jobs.rawJobs.rows.filter fun raw =>
    raw.identity ∈ visit.run.returned.map RawJobInput.identity

/-- Every returned job that has a normalized row after the normalize stage was last seen when the
    scrape returned it, or later. -/
def LastSeenLaw : Prop :=
  ∀ raw ∈ visit.returnedRows, ∀ row,
    (visit.run.normalized visit.db).jobs.findNormalizedJob raw.identity = some row →
      raw.scrapedAt ≤ row.lastSeenAt

/-- Why a returned job is up to date: the gate lets a raw job through that is given a job under this
    identity, of this date or a later one, and the database keeps it as the last; or no job given
    under the identity is kept, and the row from before is not older. -/
inductive UpToDate (raw : RawJob) : Prop
  | refreshed (pass : SourcePass) (hpass : pass ∈ visit.passes) (write : RawJob × CanonicalJobSchema)
      (hpassed : write.1 ∈ pass.orchestrator.passed (visit.run.stageRunId .normalize)
        pass.begun.tables)
      (hgiven : write ∈ pass.jobs (visit.run.stageRunId .normalize))
      (hlast : lastWrite writtenIdentity (storedOf visit.kept) raw.identity = some write)
      (hdate : raw.scrapedAt ≤ write.2.lastSeenAt)
  | untouched (hnone : ∀ pass ∈ visit.passes,
        ∀ write ∈ pass.jobs (visit.run.stageRunId .normalize), write.2.identity = raw.identity →
          .stored write.1 write.2 ∉ visit.kept)
      (hold : ∀ row, visit.db.tables.jobs.findNormalizedJob raw.identity = some row →
        raw.scrapedAt ≤ row.lastSeenAt)

end Visit

/-- A row that holds a write was last seen when the job of the write was. -/
theorem NormalizedJob.HoldsWrite.lastSeenAt {isoformat : Time → String}
    {write : RawJob × CanonicalJobSchema} {row : NormalizedJob} (h : row.HoldsWrite isoformat write) :
    row.lastSeenAt = write.2.lastSeenAt := by
  unfold NormalizedJob.HoldsWrite at h
  rw [← h]
  rfl

/-- One run: its returned jobs keep the law exactly when each of them is up to date. -/
theorem Visit.law_iff {visit : Visit}
    (hinj : Function.Injective visit.run.orchestrator.env.host.newId)
    (hfresh : FreshRowIds visit.run.orchestrator.env.host visit.db.tables.jobs.normalizedJobs
      visit.db.ticks)
    (hok : (visit.run.normalizeStage visit.db).1.isOk = true) :
    visit.LastSeenLaw ↔ ∀ raw ∈ visit.returnedRows, visit.UpToDate raw := by
  have hsettles := Visit.settles hinj hfresh hok
  refine forall₂_congr fun raw _ => ?_
  cases hlast : lastWrite writtenIdentity (storedOf visit.kept) raw.identity with
  | some write =>
    obtain ⟨hmem, hidentity⟩ := mem_of_lastWrite hlast
    obtain ⟨row, hrow, hholds⟩ := hsettles.reflects.written raw.identity write hlast
    obtain ⟨pass, hpass, hgiven⟩ := hsettles.given _ (mem_storedOf.mp hmem)
    constructor
    · intro hlaw
      refine .refreshed pass hpass write (PipelineOrchestrator.fst_mem_passed _ _ hgiven) hgiven hlast ?_
      rw [← hholds.lastSeenAt]
      exact hlaw row hrow
    · rintro (⟨_, _, write', _, _, hlast', hdate⟩ | ⟨hnone, -⟩) row' hrow'
      · rw [hlast] at hlast'
        cases hlast'
        rw [hrow] at hrow'
        cases hrow'
        rwa [hholds.lastSeenAt]
      · exact absurd (mem_storedOf.mp hmem) (hnone pass hpass write hgiven hidentity)
  | none =>
    have hsame := hsettles.reflects.untouched raw.identity hlast
    rw [ScheduledRun.findNormalizedJob_stageTables] at hsame
    rw [hsame]
    constructor
    · intro hlaw
      refine .untouched (fun pass _ write _ hidentity hkept => ?_) hlaw
      exact lastWrite_eq_none_iff.mp hlast write (mem_storedOf.mpr hkept) hidentity
    · rintro (⟨_, _, _, _, _, hlast', -⟩ | ⟨-, hold⟩)
      · rw [hlast] at hlast'
        cases hlast'
      · exact hold

/-- BUG: `last_seen_at` is written with the row, and the gate skips the upsert of the jobs that
    reappear. In every schedule, a run whose normalize stage ends without raising keeps the law
    exactly when each returned job is given a job of its date that is kept, or no job, and its row
    is not older. -/
theorem lastSeenLaw_iff {host : Host} (hinj : Function.Injective host.newId)
    {runs : List ScheduledRun} (hhost : ∀ run ∈ runs, run.orchestrator.env.host = host)
    {db : Database} (hfresh : FreshRowIds host db.tables.jobs.normalizedJobs db.ticks) :
    ∀ visit ∈ visits runs db, (visit.run.normalizeStage visit.db).1.isOk = true →
      (visit.LastSeenLaw ↔ ∀ raw ∈ visit.returnedRows, visit.UpToDate raw) := by
  intro visit hvisit hok
  obtain ⟨hsame, hids⟩ := freshRowIds_visits hinj hhost hfresh visit hvisit
  subst hsame
  exact Visit.law_iff hinj hids hok

/-! ### A job that is returned twice -/

/-- The answer to an item: a job with the external id its payload names. -/
def echoResult (item : AINormalizationBatchPromptItem) : Option AINormalizationBatchItemResult :=
  match item.rawPayloadSubset.get "externalId" with
  | .str externalId =>
    if h : item.itemId ≠ "" ∧ externalId ≠ "" then
      some
        { itemId := ⟨item.itemId, h.1⟩
          normalizedJob := some (answerFor ⟨externalId, h.2⟩ ⟨"New", new_ne_empty⟩)
          jobOrError := rfl }
    else none
  | _ => none

/-- An AI client that answers every item. -/
def echoClient : AiClient where
  text := plainNormalizationText
  model := fun _ => "m"
  hasNormalizeJobs := true
  answerJob := fun _ _ => .ok none
  answerJobs := fun _ input =>
    if h : input.items.filterMap echoResult ≠ [] then
      .ok (some ⟨input.items.filterMap echoResult, h⟩)
    else .ok none

/-- A run of the production wiring that returns some jobs of Dealls at a given time, and whose
    backend answers every post alike. -/
def smallRun (runId : String) (externalIds : List String) (time : Time)
    (answer : Except BackendSyncError BackendSyncResult) : ScheduledRun where
  runId := runId
  returned := externalIds.map fun externalId =>
    { scrapeRunId := runId
      sourcePlatform := "dealls"
      externalId := externalId
      sourceUrl := none
      rawPayload := [("id", .str externalId)]
      scrapedAt := some time }
  orchestrator :=
    { refusingRunner with aiNormalizationClient := echoClient }.buildOrchestrator deallsSource
  sources := [deallsSource]
  worker := plainWorker 3 fun _ _ => answer
  limit := 10
  batchSize := 10
  sourcePlatforms := ["dealls"]

/-- A database without jobs. -/
def emptyDatabase : Database where
  tables := { jobs := { rawJobs := Table.empty _, normalizedJobs := Table.empty _ } }
  events := Table.empty _
  ticks := 1

/-- Two days that return job `1`: it is normalized on the first, and known on the second. -/
def twoDays : List ScheduledRun :=
  [smallRun "mon" ["1"] 0 accepted, smallRun "tue" ["1"] 5 accepted]

/-- The second day and what it finds. -/
def secondDay : Visit :=
  ⟨smallRun "tue" ["1"] 5 accepted, (smallRun "mon" ["1"] 0 accepted).next emptyDatabase⟩

theorem secondDay_mem : secondDay ∈ visits twoDays emptyDatabase :=
  List.mem_cons_of_mem _ List.mem_cons_self

theorem secondDay_ok : (secondDay.run.normalizeStage secondDay.db).1.isOk = true := by
  decide +kernel

/-- The job is returned at 5, and its row says 0. -/
theorem seen_again_not_refreshed :
    secondDay ∈ visits twoDays emptyDatabase ∧
      (secondDay.run.normalizeStage secondDay.db).1.isOk = true ∧ ¬ secondDay.LastSeenLaw := by
  refine ⟨secondDay_mem, secondDay_ok, fun hlaw => ?_⟩
  have hreturned : (secondDay.returnedRows.map fun raw => (raw.identity, raw.scrapedAt))
      = [(("dealls", "1"), 5)] := by decide +kernel
  have hrow : ((secondDay.run.normalized secondDay.db).jobs.findNormalizedJob
      ("dealls", "1")).map NormalizedJob.lastSeenAt = some 0 := by decide +kernel
  obtain ⟨raw, hraw, heq⟩ := List.mem_map.mp
    (hreturned ▸ List.mem_singleton_self (("dealls", "1"), (5 : Time)))
  obtain ⟨hidentity, hscraped⟩ := Prod.mk.inj heq
  obtain ⟨row, hfind, hseen⟩ := Option.map_eq_some_iff.mp hrow
  have hdate := hlaw raw hraw row (hidentity ▸ hfind)
  rw [hscraped, hseen] at hdate
  exact absurd hdate (by decide)

theorem lastSeenLaw_iff_twoDays :
    secondDay.LastSeenLaw ↔ ∀ raw ∈ secondDay.returnedRows, secondDay.UpToDate raw :=
  lastSeenLaw_iff tallyHost_newId_injective
    (by
      intro run hrun
      rcases List.mem_cons.mp hrun with rfl | hrun
      · rfl
      · rw [List.mem_singleton.mp hrun]
        rfl)
    (fun _ _ _ hrow => absurd hrow List.not_mem_nil) secondDay secondDay_mem secondDay_ok

end Bisakerja
