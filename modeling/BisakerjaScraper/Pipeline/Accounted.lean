import BisakerjaScraper.Eligibility.Known
import BisakerjaScraper.Pipeline.Passes
import BisakerjaScraper.Pipeline.RunStatus

/-! Where the raw jobs of a normalize run are accounted for.

    The runner builds its orchestrator without a quarantine. A raw job that the gate lets through
    leaves a trace only as a normalized row; one that the gate refuses only as its decision, as long
    as no rollback takes the decision back. -/

namespace Bisakerja
open Schemes

/-- `ManualPipelineRunner`, as far as the normalize stage of the orchestrator it builds depends on
    it. `backendLookup` is none without a `backend_database_url`. -/
structure ManualPipelineRunner where
  execute : Bool
  env : StageHost
  config : PipelineConfig
  aiNormalizationClient : AiClient
  hasAiClient : Bool
  identityText : IdentityText
  syncEvents : SyncEvents
  backend : BackendTables
  backendLookup : Option Bool

/-- `build_orchestrator`: no quarantine is passed on. -/
def ManualPipelineRunner.buildOrchestrator (runner : ManualPipelineRunner)
    (source : NormalizeSource) : PipelineOrchestrator where
  env := runner.env
  config := runner.config
  client := runner.aiNormalizationClient
  source := source
  hasQuarantine := false
  hasAiClient := runner.hasAiClient
  eligibilityResolver := some runner.identityText
  syncEvents := runner.syncEvents
  backend := runner.backend
  backendIdentityLookup :=
    match runner.execute, runner.backendLookup with
    | true, some true => .answers
    | true, some false => .unreachable
    | _, _ => .notConfigured
  requireBackendIdentityLookup := runner.execute

/-! ### Accounting -/

/-- A raw job has a normalized row, a decision that keeps it out, or an open quarantine row. -/
def Accounted (tables : StageTables) (raw : RawJob) : Prop :=
  (tables.jobs.findNormalizedJob raw.identity).isSome ∨
    (∃ row, tables.decisions.find? raw.id = some row ∧ row.decision ≠ .normalizationEligible) ∨
      ∃ row ∈ tables.quarantine, row.rawJobId = some raw.id ∧ row.isOpen = true

/-- The gate refuses a raw job and the decision is kept; or none on it is kept, and it was refused
    before the run. -/
def Refused (passes : List SourcePass) (runId : String) (kept : List StageWrite)
    (start : StageTables) (raw : RawJob) : Prop :=
  (∃ pass ∈ passes, .decided (pass.decisions runId) ∈ kept ∧
      ∃ row ∈ pass.decisions runId, row.rawJobId = raw.id ∧
        row.decision ≠ .normalizationEligible) ∨
    (∀ pass ∈ passes, .decided (pass.decisions runId) ∈ kept →
        ∀ row ∈ pass.decisions runId, row.rawJobId ≠ raw.id) ∧
      ∃ row, start.decisions.find? raw.id = some row ∧ row.decision ≠ .normalizationEligible

/-- A raw job that a run drops: it had no row and no open quarantine row, it is not refused, and no
    job that is given under its identity is kept. -/
structure Dropped (passes : List SourcePass) (runId : String) (kept : List StageWrite)
    (start : StageTables) (raw : RawJob) : Prop where
  noRow : start.jobs.findNormalizedJob raw.identity = none
  notQuarantined : ∀ row ∈ start.quarantine, row.rawJobId = some raw.id → row.isOpen = false
  notRefused : ¬ Refused passes runId kept start raw
  lost : ∀ pass ∈ passes, ∀ write ∈ pass.jobs runId, write.2.identity = raw.identity →
    .stored write.1 write.2 ∉ kept

namespace Settles

variable {isoformat : Time → String} {passes : List SourcePass} {runId : String}
  {kept : List StageWrite} {start tables : StageTables} {raw : RawJob}
  (h : Settles isoformat passes runId kept start tables)
include h

/-- A row stands under an identity when one stood there, or a job given under it is kept. -/
theorem findNormalizedJob_isSome_iff {identity : String × String} :
    (tables.jobs.findNormalizedJob identity).isSome ↔
      (start.jobs.findNormalizedJob identity).isSome ∨
        ∃ pass ∈ passes, ∃ write ∈ pass.jobs runId, write.2.identity = identity ∧
          .stored write.1 write.2 ∈ kept := by
  cases hlast : lastWrite writtenIdentity (storedOf kept) identity with
  | some write =>
    obtain ⟨hmem, hidentity⟩ := mem_of_lastWrite hlast
    obtain ⟨row, hrow, -⟩ := h.reflects.written identity write hlast
    obtain ⟨pass, hpass, hgives⟩ := h.given _ (mem_storedOf.mp hmem)
    refine iff_of_true ?_ (.inr ⟨pass, hpass, write, hgives, hidentity, mem_storedOf.mp hmem⟩)
    rw [hrow]
    rfl
  | none =>
    rw [h.reflects.untouched identity hlast, or_iff_left]
    rintro ⟨pass, hpass, write, -, hidentity, hkept⟩
    exact lastWrite_eq_none_iff.mp hlast write (mem_storedOf.mpr hkept) hidentity

/-- The table refuses a raw job when the run does: each raw job is decided on once. -/
theorem refused_iff :
    (∃ row, tables.decisions.find? raw.id = some row ∧ row.decision ≠ .normalizationEligible) ↔
      Refused passes runId kept start raw := by
  have hdecided : ∀ row ∈ decidedOf kept, ∃ pass ∈ passes,
      .decided (pass.decisions runId) ∈ kept ∧ row ∈ pass.decisions runId := by
    intro row hrow
    obtain ⟨rows, hkept, hrow⟩ := mem_decidedOf.mp hrow
    obtain ⟨pass, hpass, hgives⟩ := h.given _ hkept
    cases hgives
    exact ⟨pass, hpass, hkept, hrow⟩
  rw [h.reflects.decisions]
  cases hlast : lastWrite NormalizationEligibilityDecision.rawJobId (decidedOf kept) raw.id with
  | some row =>
    obtain ⟨hmem, hid⟩ := mem_of_lastWrite hlast
    obtain ⟨pass, hpass, hkept, hrow⟩ := hdecided row hmem
    rw [Option.some_or]
    constructor
    · rintro ⟨_, heq, hrefused⟩
      cases heq
      exact .inl ⟨pass, hpass, hkept, row, hrow, hid, hrefused⟩
    · rintro (⟨pass', hpass', -, row', hrow', hid', hrefused⟩ | ⟨hnone, -⟩)
      · rw [← h.once pass hpass row hrow pass' hpass' row' hrow' (hid.trans hid'.symm)] at hrefused
        exact ⟨row, rfl, hrefused⟩
      · exact absurd hid (hnone pass hpass hkept row hrow)
  | none =>
    have hnone := lastWrite_eq_none_iff.mp hlast
    rw [Option.none_or]
    constructor
    · intro hold
      exact .inr ⟨fun pass _ hkept row hrow => hnone row (mem_decidedOf.mpr ⟨_, hkept, hrow⟩), hold⟩
    · rintro (⟨pass, -, hkept, row, hrow, hid, -⟩ | ⟨-, hold⟩)
      · exact absurd hid (hnone row (mem_decidedOf.mpr ⟨_, hkept, hrow⟩))
      · exact hold

/-- A raw job is accounted for exactly when it is not dropped. -/
theorem accounted_iff_not_dropped (hquarantine : tables.quarantine = start.quarantine) :
    Accounted tables raw ↔ ¬ Dropped passes runId kept start raw := by
  unfold Accounted
  rw [h.findNormalizedJob_isSome_iff, h.refused_iff, hquarantine]
  constructor
  · rintro ((hrow | ⟨pass, hpass, write, hwrite, hidentity, hkept⟩) | hrefused |
      ⟨row, hrow, hid, hopen⟩) hdropped
    · rw [hdropped.noRow] at hrow
      cases hrow
    · exact hdropped.lost pass hpass write hwrite hidentity hkept
    · exact hdropped.notRefused hrefused
    · rw [hdropped.notQuarantined row hrow hid] at hopen
      cases hopen
  · intro hkept
    by_contra hnone
    rw [not_or, not_or, not_or] at hnone
    obtain ⟨⟨hrow, hlost⟩, hrefused, hopen⟩ := hnone
    refine hkept ⟨by simpa using hrow, fun row hmem hid => ?_, hrefused,
      fun pass hpass write hwrite hidentity hstored =>
        hlost ⟨pass, hpass, write, hwrite, hidentity, hstored⟩⟩
    cases hclosed : row.isOpen with
    | false => rfl
    | true => exact absurd ⟨row, hmem, hid, hclosed⟩ hopen

end Settles

/-- BUG: the runner passes no quarantine on, so a raw job whose mapping or normalization fails
    leaves no evidence. In a run that ends without raising, every raw job in scope is accounted for
    exactly when none is dropped. -/
theorem ManualPipelineRunner.accounted_iff (runner : ManualPipelineRunner)
    (hinj : Function.Injective runner.env.host.newId) {source : NormalizeSource}
    {sources : List NormalizeSource} {runId platform : String} {tables : StageTables}
    {calls ticks : ℕ} {results : List SourcePipelineResult} {s' : StageSession}
    (hids : FreshRowIds runner.env.host tables.jobs.normalizedJobs ticks)
    (hrun : (runner.buildOrchestrator source).normalizeSources runId
      (uniqueSourcesByPlatform sources) (.begin tables platform calls ticks) = (.ok results, s')) :
    (∀ source' ∈ uniqueSourcesByPlatform sources,
      ∀ raw ∈ ((runner.buildOrchestrator source).withSource source').scope runId tables,
        Accounted s'.committed raw) ↔
      ∀ source' ∈ uniqueSourcesByPlatform sources,
        ∀ raw ∈ ((runner.buildOrchestrator source).withSource source').scope runId tables,
          ¬ Dropped ((runner.buildOrchestrator source).sourcePasses runId
            (uniqueSourcesByPlatform sources) (.begin tables platform calls ticks)) runId
            s'.view.durable tables raw := by
  obtain ⟨hsettles, hquarantine⟩ := PipelineOrchestrator.settles_normalizeSources
    (o := runner.buildOrchestrator source) hinj hids hrun
  exact forall₂_congr fun source' _ => forall₂_congr fun raw _ =>
    hsettles.accounted_iff_not_dropped (hquarantine rfl)

/-! ### One raw job, which the AI answers with an error -/

/-- The production wiring, with an AI that answers every batch with an error for `r1`. -/
def refusingRunner : ManualPipelineRunner :=
  let stage := answeringStage ⟨"1", one_ne_empty⟩
  { execute := true
    env := { stage.env with host := tallyHost }
    config := { batchSize_pos := defaultBatchSize_pos }
    aiNormalizationClient := { stage.client with
      answerJobs := fun _ _ => .ok (some
        ⟨[{ itemId := ⟨"r1", row_ne_empty⟩, errorCode := some "E", errorMessage := some "no"
            jobOrError := Option.isSome_none }], by simp⟩) }
    hasAiClient := true
    identityText := asciiText
    syncEvents := Table.empty _
    backend := emptyBackend
    backendLookup := some true }

def deallsSource : NormalizeSource := (answeringStage ⟨"1", one_ne_empty⟩).source

def oneScraped : StageTables where
  jobs := { rawJobs := oneRawJob.tables.jobs.rawJobs, normalizedJobs := Table.empty _ }

/-- The run of that orchestrator. -/
def refusedRun : Except PyException (List SourcePipelineResult) × StageSession :=
  (refusingRunner.buildOrchestrator deallsSource).normalizeSources "d-normalize"
    (uniqueSourcesByPlatform [deallsSource]) (.begin oneScraped "all" 0 0)

theorem refusedRun_ok : refusedRun.1.isOk = true := by decide +kernel

/-- The run ends without raising, and the raw job has no row, no refusal and no quarantine row. -/
theorem failed_raw_job_disappears :
    refusedRun.1.isOk = true ∧
      deallsRaw "r1" "1" ∈ ((refusingRunner.buildOrchestrator deallsSource).withSource
        deallsSource).scope "d-normalize" oneScraped ∧
      ¬ Accounted refusedRun.2.committed (deallsRaw "r1" "1") := by
  refine ⟨refusedRun_ok, List.mem_cons_self, ?_⟩
  rintro (hrow | ⟨row, hfind, hrefused⟩ | ⟨row, hrow, -⟩)
  · revert hrow
    decide +kernel
  · have hdecision : (refusedRun.2.committed.decisions.find? "r1").map
        NormalizationEligibilityDecision.decision = some .normalizationEligible := by
      decide +kernel
    rw [show (deallsRaw "r1" "1").id = "r1" from rfl] at hfind
    rw [hfind] at hdecision
    exact hrefused (Option.some.inj hdecision)
  · have hnone : refusedRun.2.committed.quarantine.length = 0 := by decide +kernel
    rw [List.length_eq_zero_iff.mp hnone] at hrow
    cases hrow

theorem accounted_iff_refusedRun :
    (∀ source' ∈ uniqueSourcesByPlatform [deallsSource],
      ∀ raw ∈ ((refusingRunner.buildOrchestrator deallsSource).withSource source').scope
          "d-normalize" oneScraped, Accounted refusedRun.2.committed raw) ↔
      ∀ source' ∈ uniqueSourcesByPlatform [deallsSource],
        ∀ raw ∈ ((refusingRunner.buildOrchestrator deallsSource).withSource source').scope
            "d-normalize" oneScraped,
          ¬ Dropped ((refusingRunner.buildOrchestrator deallsSource).sourcePasses "d-normalize"
            (uniqueSourcesByPlatform [deallsSource]) (.begin oneScraped "all" 0 0)) "d-normalize"
            refusedRun.2.view.durable oneScraped raw := by
  have hids : FreshRowIds refusingRunner.env.host oneScraped.jobs.normalizedJobs 0 := by
    intro _ _ row hrow
    exact absurd hrow List.not_mem_nil
  obtain ⟨results, hrun⟩ := Stateful.exists_of_isOk refusedRun_ok
  exact refusingRunner.accounted_iff tallyHost_newId_injective hids hrun

end Bisakerja
