import BisakerjaScraper.Pipeline.NormalizeSource

/-! The actions of the normalize stage.

    Whatever the stage does, it does with a few actions: it notes something outside the database, it
    rolls back or commits, it writes a job or the decisions of the gate, logs a request, or changes
    the quarantine. A condition that each of them keeps is kept by the stage, however it ends. -/

namespace Bisakerja
open Schemes

/-- A condition that the decisions of the gate keep: some rows were written, and the table shows
    the last of them on each raw job. -/
def KeptByDecided (I : StageSession → Prop) : Prop :=
  ∀ (s : StageSession) (rows : List NormalizationEligibilityDecision)
    (decisions : EligibilityDecisions), (∀ rawJobId, decisions.find? rawJobId
      = (lastWrite NormalizationEligibilityDecision.rawJobId rows rawJobId).or
        (s.tables.decisions.find? rawJobId)) → I s →
      I { s with
        tables := { s.tables with decisions }
        history := s.history ++ [.wrote (.decided rows)] }

/-- A condition that every other action keeps. -/
structure KeptByAction (h : StageHost) (hasQuarantine : Bool) (I : StageSession → Prop) : Prop where
  noted : ∀ s s' : StageSession, s'.tables = s.tables → s'.committed = s.committed →
    s'.history = s.history → s.ticks ≤ s'.ticks → I s → I s'
  rolledBack : ∀ s : StageSession, I s → I s.rollback
  committed : ∀ s : StageSession, I s → I s.commit
  stored : ∀ (s : StageSession) (raw : RawJob) (job : CanonicalJobSchema),
    I s → I (s.upsert h raw job).2
  logged : ∀ (s : StageSession) (log : AIRequestLog), I s →
    I { s with tables := { s.tables with aiRequestLogs := s.tables.aiRequestLogs ++ [log] } }
  quarantined : hasQuarantine = true → ∀ (s : StageSession) (rows : List NormalizationQuarantine),
    I s → I { s with tables := { s.tables with quarantine := rows } }

namespace KeptByAction

variable {stage : NormalizeStage} {I : StageSession → Prop}
  (hI : KeptByAction stage.env stage.hasQuarantine I)
include hI

/-- Something is noted outside the database. -/
theorem change {f : StageSession → StageSession} (htables : ∀ s, (f s).tables = s.tables)
    (hcommitted : ∀ s, (f s).committed = s.committed) (hhistory : ∀ s, (f s).history = s.history)
    (hticks : ∀ s, (f s).ticks = s.ticks) : Keeps I (.change f : StageM PUnit) :=
  .change fun s hs => hI.noted s (f s) (htables s) (hcommitted s) (hhistory s) (hticks s).ge hs

theorem changeResult (f : SourcePipelineResult → SourcePipelineResult) :
    Keeps I (Bisakerja.changeResult f) :=
  hI.change (fun _ => rfl) (fun _ => rfl) (fun _ => rfl) fun _ => rfl

theorem logEvents (events : List NormalizeEvent) : Keeps I (Bisakerja.logEvents events) :=
  hI.change (fun _ => rfl) (fun _ => rfl) (fun _ => rfl) fun _ => rfl

theorem nextCall : Keeps I Bisakerja.nextCall :=
  .update fun s hs => hI.noted s _ rfl rfl rfl (Nat.le_refl _) hs

theorem ticked {s : StageSession} (hs : I s) : I { s with ticks := s.ticks + 1 } :=
  hI.noted s _ rfl rfl rfl (Nat.le_succ _) hs

/-- A database operation that is tried twice. -/
theorem dbOperationWithRetry {α : Type} {operation : StageSession → α × StageSession}
    (hop : ∀ s, I s → I (operation s).2) :
    Keeps I (Bisakerja.dbOperationWithRetry stage.env operation) := by
  have hattempt : Keeps I (dbAttempt stage.env operation) :=
    triple_dbAttempt (fun _ hs => hop _ (hI.ticked hs)) fun _ hs _ => hI.rolledBack _ (hI.ticked hs)
  exact hattempt.handle fun _ => hattempt

/-- A database operation that is tried once. -/
theorem dbOperation {α : Type} {operation : StageSession → α × StageSession}
    (hop : ∀ s, I s → I (operation s).2) : Keeps I (Bisakerja.dbOperation stage.env operation) :=
  triple_dbOperation (fun _ hs => hop _ (hI.ticked hs)) fun _ hs _ => hI.ticked hs

theorem upsert (raw : RawJob) (job : CanonicalJobSchema) :
    Keeps I (upsertNormalizedJobWithRetry stage.env raw job) :=
  hI.dbOperationWithRetry fun s hs => hI.stored s raw job hs

theorem commitNormalizeProgress : Keeps I (Bisakerja.commitNormalizeProgress stage.env) :=
  hI.dbOperationWithRetry hI.committed

theorem recordNormalizationAiLog (raw : RawJob) (item : AINormalizationBatchPromptItem)
    (status : AIRequestStatus) (normalizedJobId : Option String) (summary : Dict)
    (error : Option PyException) :
    Keeps I (stage.recordNormalizationAiLog raw item status normalizedJobId summary error) :=
  hI.dbOperationWithRetry fun s hs => hI.logged s _ hs

/-- What is done where there is a quarantine. -/
theorem whenQuarantine {f : StageSession → List NormalizationQuarantine} :
    Keeps I (stage.whenQuarantine (.change fun s =>
      { s with tables := { s.tables with quarantine := f s } })) :=
  Triple.ite (fun hq => Keeps.change fun s hs => hI.quarantined hq s (f s) hs) fun _ => Keeps.pure _

theorem resolve (raw : RawJob) : Keeps I (stage.whenQuarantine (resolveForRawJob raw)) :=
  hI.whenQuarantine

theorem recordNormalizeFailure (raw : RawJob) (exc : PyException) :
    Keeps I (stage.recordNormalizeFailure raw exc) :=
  (hI.changeResult _).bind fun _ => hI.whenQuarantine

/-! ### The stage behind the gate -/

theorem normalizeJob (prompt : AINormalizationPromptInput) :
    Keeps I (stage.client.normalizeJob prompt) :=
  hI.nextCall.bind fun _ => (Keeps.ofExcept _).bind fun _ => (Keeps.ofExcept _).bind fun _ =>
    (hI.logEvents _).bind fun _ => .pure _

theorem normalizeJobs (input : AINormalizationBatchPromptInput) :
    Keeps I (stage.client.normalizeJobs input) :=
  .ite (.raise _) (hI.nextCall.bind fun _ => (Keeps.ofExcept _).bind fun _ =>
    (Keeps.ofExcept _).bind fun _ => (hI.logEvents _).bind fun _ => .pure _)

theorem recordFailedRequest (raw : RawJob) (item : AINormalizationBatchPromptItem)
    (exc : PyException) (summary : Dict) (error : Option PyException) :
    Keeps I (do
      stage.recordNormalizeFailure raw exc
      stage.recordNormalizationAiLog raw item .failed none summary error) :=
  (hI.recordNormalizeFailure raw exc).bind fun _ => hI.recordNormalizationAiLog raw item _ _ _ _

/-- A job is written, its raw job leaves the quarantine, and it is counted. -/
theorem storeMapped (raw : RawJob) (job : CanonicalJobSchema) : Keeps I (do
    let _ ← upsertNormalizedJobWithRetry stage.env raw job
    stage.whenQuarantine (resolveForRawJob raw)
    countNormalized) :=
  (hI.upsert raw job).bind fun _ => (hI.resolve raw).bind fun _ => hI.changeResult _

theorem storeNormalized (raw : RawJob) (item : AINormalizationBatchPromptItem)
    (job : CanonicalJobSchema) : Keeps I (stage.storeNormalized raw item job) :=
  (hI.upsert raw job).bind fun _ => (hI.recordNormalizationAiLog raw item _ _ _ _).bind fun _ =>
    (hI.resolve raw).bind fun _ => hI.changeResult _

theorem promptItem (raw : RawJob) : Keeps I (stage.promptItem raw) := by
  unfold NormalizeStage.promptItem
  cases stage.source.mapRawJob raw with
  | error exc => exact (hI.recordNormalizeFailure raw exc).bind fun _ => .pure _
  | ok mapped =>
    refine (Keeps.ofExcept _).bind fun prompt => ?_
    cases prompt with
    | none =>
      exact (hI.upsert raw mapped).bind fun _ => (hI.resolve raw).bind fun _ =>
        (hI.changeResult _).bind fun _ => .pure _
    | some prompt => exact .pure _

theorem promptItems (rawBatch : List RawJob) : Keeps I (stage.promptItems rawBatch) := by
  induction rawBatch with
  | nil => exact .pure _
  | cons raw rest ih => exact (hI.promptItem raw).bind fun _ => ih.bind fun _ => .pure _

theorem storeBatchItem (items : NormalizeStage.PromptItems)
    (result : AINormalizationBatchItemResult) : Keeps I (stage.storeBatchItem items result) := by
  unfold NormalizeStage.storeBatchItem
  split
  · exact .raise _
  · split
    · exact hI.storeNormalized _ _ _
    · exact hI.recordFailedRequest _ _ _ _ _

theorem mapStoredRawJob (raw : RawJob) : Keeps I (stage.mapStoredRawJob raw) := by
  refine (Keeps.ofExcept _).bind fun mapped => (Keeps.ofExcept _).bind fun prompt => ?_
  cases prompt with
  | none => exact .pure _
  | some prompt => exact (hI.normalizeJob prompt).handle fun _ => .raise _

theorem normalizeSingle (entry : RawJob × AINormalizationBatchPromptItem) :
    Keeps I (stage.normalizeSingle entry) := by
  refine hI.commitNormalizeProgress.bind fun _ =>
    (hI.mapStoredRawJob entry.1).attempt.bind fun answer => ?_
  cases answer with
  | ok job => exact hI.storeNormalized entry.1 entry.2 job
  | error exc => exact hI.recordFailedRequest _ _ _ _ _

theorem normalizeItems (items : NormalizeStage.PromptItems) :
    Keeps I (stage.normalizeItems items) := by
  refine .ite (.pure _) (.ite ?_ (.forEach items fun entry _ => hI.normalizeSingle entry))
  refine hI.commitNormalizeProgress.bind fun _ => (hI.normalizeJobs _).attempt.bind fun answer => ?_
  cases answer with
  | ok results => exact .forEach results fun result _ => hI.storeBatchItem items result
  | error exc => exact .forEach items fun entry _ => hI.recordFailedRequest _ _ _ _ _

theorem normalizeSourceWithAiBatch (rawJobs : List RawJob) :
    Keeps I (stage.normalizeSourceWithAiBatch rawJobs) :=
  .forEach _ fun rawBatch _ => hI.commitNormalizeProgress.bind fun _ =>
    ((hI.promptItems rawBatch).bind fun items => hI.normalizeItems items).bind fun _ =>
      hI.commitNormalizeProgress

/-! ### The stage of a source -/

omit hI in
/-- The part of the stage behind the gate, with an AI client or without. -/
theorem normalizeEligible {o : PipelineOrchestrator} (hI : KeptByAction o.env o.hasQuarantine I)
    (eligible : List RawJob) : Keeps I (o.normalizeEligible eligible) := by
  refine .ite (hI.normalizeSourceWithAiBatch eligible) (.forEach eligible fun raw _ => ?_)
  have hstore : Keeps I (o.storeMapped raw) :=
    (Keeps.ofExcept _).bind fun mapped => hI.storeMapped raw mapped
  refine hstore.attempt.bind fun result => ?_
  cases result with
  | ok _ => exact .pure _
  | error exc => exact hI.recordNormalizeFailure raw exc

omit hI in
theorem gate {o : PipelineOrchestrator} (hI : KeptByAction o.env o.hasQuarantine I)
    (hdecided : KeptByDecided I) (runId : String) (rawJobs : List RawJob) :
    Keeps I (o.gate runId rawJobs) := by
  unfold PipelineOrchestrator.gate
  cases o.eligibilityResolver with
  | none => exact .ite (.raise _) (.pure _)
  | some text =>
    refine (Keeps.ofExcept _).bind fun existing => (hI.dbOperation fun s hs => ?_).bind
      fun decisions => (hI.changeResult _).bind fun _ => .pure _
    exact hdecided _ _ _ (EligibilityResolver.find?_resolveAll_rows _ _ _) hs

omit hI in
/-- The stage of one source. -/
theorem normalizeSource {o : PipelineOrchestrator} (hI : KeptByAction o.env o.hasQuarantine I)
    (hdecided : KeptByDecided I) (runId : String) : Keeps I (o.normalizeSource runId) :=
  (hI.dbOperation fun _ hs => hs).bind fun rawJobs =>
    (hI.changeResult _).bind fun _ => (hI.gate hdecided runId rawJobs).bind fun eligible =>
      (hI.normalizeEligible eligible).bind fun _ =>
        (hI.dbOperation hI.committed).bind fun _ => hI.changeResult _

end KeptByAction

end Bisakerja
