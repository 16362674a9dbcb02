import BisakerjaScraper.Pipeline.Normalize

/-! The steps of the normalize stage that write no job.

    Such a step may commit or roll back, log a request or quarantine a raw job. What it leaves
    alone is stated once; a condition that only speaks of that is kept by each of them. -/

namespace Bisakerja
open Schemes

/-- The raw job and the job of a write, when it is one. -/
def StageWrite.stored? : StageWrite → Option (RawJob × CanonicalJobSchema)
  | .stored raw job => some (raw, job)
  | .decided _ => none

/-- The jobs a session has written, whether they lasted or not. -/
def StageSession.stored (s : StageSession) : List (RawJob × CanonicalJobSchema) :=
  (txWrites s.history).filterMap StageWrite.stored?

theorem stored_upsert (h : StageHost) (raw : RawJob) (job : CanonicalJobSchema) (s : StageSession) :
    (s.upsert h raw job).2.stored = s.stored ++ [(raw, job)] := by
  change (txWrites (s.history ++ [.wrote (.stored raw job)])).filterMap StageWrite.stored? = _
  rw [txWrites_append, List.filterMap_append]
  rfl

/-- The session after a job was counted as normalized and persisted. -/
def StageSession.countNormalized (s : StageSession) : StageSession :=
  { s with result := { s.result with counts := { s.result.counts with
    normalized := s.result.counts.normalized + 1
    persisted := s.result.counts.persisted + 1 } } }

/-- What a step does to the transaction: nothing, a rollback or a commit. The quarantine only
    changes where there is one. -/
inductive TransactionStep (hasQuarantine : Bool) (s s' : StageSession) : Prop
  | none (htables : s'.tables.jobs = s.tables.jobs)
      (hdecisions : s'.tables.decisions = s.tables.decisions)
      (hquarantine : hasQuarantine = false → s'.tables.quarantine = s.tables.quarantine)
      (hcommitted : s'.committed = s.committed) (hhistory : s'.history = s.history)
  | rolledBack (htables : s'.tables = s.committed) (hcommitted : s'.committed = s.committed)
      (hhistory : s'.history = s.history ++ [.rolledBack])
  | committed (htables : s'.tables = s.tables) (hcommitted : s'.committed = s.tables)
      (hhistory : s'.history = s.history ++ [.committed])

/-- A step that writes no job and counts none. -/
structure Quiet (hasQuarantine : Bool) (s s' : StageSession) : Prop where
  journal : s'.journal = s.journal
  calls : s'.calls = s.calls
  persisted : s'.result.counts.persisted = s.result.counts.persisted
  ticks : s.ticks ≤ s'.ticks
  transaction : TransactionStep hasQuarantine s s'

/-- A condition that quiet steps keep. -/
def KeptByQuiet (hasQuarantine : Bool) (P : StageSession → Prop) : Prop :=
  ∀ s s', Quiet hasQuarantine s s' → P s → P s'

namespace Quiet

variable {q : Bool} {s s' : StageSession}

theorem tables (h : Quiet q s s') :
    s'.tables.jobs = s.tables.jobs ∨ s'.tables.jobs = s.committed.jobs := by
  cases h.transaction with
  | none htables => exact .inl htables
  | rolledBack htables => exact .inr (congrArg StageTables.jobs htables)
  | committed htables => exact .inl (congrArg StageTables.jobs htables)

theorem committed (h : Quiet q s s') :
    s'.committed.jobs = s.committed.jobs ∨ s'.committed.jobs = s.tables.jobs := by
  cases h.transaction with
  | none _ _ _ hcommitted => exact .inl (congrArg StageTables.jobs hcommitted)
  | rolledBack _ hcommitted => exact .inl (congrArg StageTables.jobs hcommitted)
  | committed _ hcommitted => exact .inr (congrArg StageTables.jobs hcommitted)

theorem writes (h : Quiet q s s') : txWrites s'.history = txWrites s.history := by
  cases h.transaction with
  | none _ _ _ _ hhistory => rw [hhistory]
  | rolledBack _ _ hhistory =>
    rw [hhistory, txWrites_append]
    exact List.append_nil _
  | committed _ _ hhistory =>
    rw [hhistory, txWrites_append]
    exact List.append_nil _

theorem stored (h : Quiet q s s') : s'.stored = s.stored :=
  congrArg (List.filterMap StageWrite.stored?) h.writes

end Quiet

theorem quiet_rollback {q : Bool} {s : StageSession} {ticks : ℕ} (h : s.ticks ≤ ticks) :
    Quiet q s { s with ticks := ticks }.rollback :=
  ⟨rfl, rfl, rfl, h, .rolledBack rfl rfl rfl⟩

theorem quiet_commit {q : Bool} (s : StageSession) : Quiet q s s.commit :=
  ⟨rfl, rfl, rfl, Nat.le_refl _, .committed rfl rfl rfl⟩

/-- A step that touches neither the tables nor the transaction is quiet. -/
theorem quiet_tick {q : Bool} {s : StageSession} {ticks : ℕ} (h : s.ticks ≤ ticks) :
    Quiet q s { s with ticks := ticks } :=
  ⟨rfl, rfl, rfl, h, .none rfl rfl (fun _ => rfl) rfl rfl⟩

namespace KeptByQuiet

variable {stage : NormalizeStage} {P : StageSession → Prop}
  (hP : KeptByQuiet stage.hasQuarantine P)
include hP

/-- A database operation that is tried twice. -/
theorem dbOperationWithRetry {α : Type}
    {operation : StageSession → α × StageSession} {Q : α → StageSession → Prop}
    (hop : ∀ s, P s → Q (operation s).1 (operation s).2) :
    Triple P (dbOperationWithRetry stage.env operation) Q (fun _ => P) := by
  have hattempt : Triple P (dbAttempt stage.env operation) Q (fun _ => P) :=
    triple_dbAttempt (fun s hs => hop _ (hP s _ (quiet_tick (Nat.le_succ _)) hs))
      fun s hs _ => hP s _ (quiet_rollback (Nat.le_succ _)) hs
  exact hattempt.handle fun _ => hattempt

theorem change {f : StageSession → StageSession} {E : PyException → StageSession → Prop}
    (hf : ∀ s, Quiet stage.hasQuarantine s (f s)) : Triple P (.change f) (fun _ => P) E :=
  .change fun s hs => hP s (f s) (hf s) hs

theorem quietOperation {f : StageSession → StageSession}
    (hf : ∀ s, Quiet stage.hasQuarantine s (f s)) :
    Triple P (Bisakerja.dbOperationWithRetry stage.env fun s => (⟨⟩, f s)) (fun _ : PUnit => P)
      (fun _ => P) :=
  hP.dbOperationWithRetry fun s hs => hP s (f s) (hf s) hs

theorem commitNormalizeProgress :
    Triple P (Bisakerja.commitNormalizeProgress stage.env) (fun _ => P) (fun _ => P) :=
  hP.quietOperation quiet_commit

end KeptByQuiet

/-- What is done where there is a quarantine. -/
theorem triple_whenQuarantine {P : StageSession → Prop} (stage : NormalizeStage)
    {action : StageM PUnit} {E : PyException → StageSession → Prop}
    (h : stage.hasQuarantine = true → Triple P action (fun _ => P) E) :
    Triple P (stage.whenQuarantine action) (fun _ => P) E :=
  .ite h fun _ => .pure fun _ hs => hs

/-- A change of the quarantine, where there is one. -/
theorem quiet_quarantine {q : Bool} (hq : q = true) (s : StageSession)
    (rows : List NormalizationQuarantine) :
    Quiet q s { s with tables := { s.tables with quarantine := rows } } := by
  refine ⟨rfl, rfl, rfl, Nat.le_refl _, .none rfl rfl (fun hnone => ?_) rfl rfl⟩
  rw [hq] at hnone
  cases hnone

namespace KeptByQuiet

variable {P : StageSession → Prop} (stage : NormalizeStage)
  (hP : KeptByQuiet stage.hasQuarantine P) (raw : RawJob)
include hP

theorem recordNormalizationAiLog (item : AINormalizationBatchPromptItem)
    (status : AIRequestStatus) (normalizedJobId : Option String) (summary : Dict)
    (error : Option PyException) :
    Triple P (stage.recordNormalizationAiLog raw item status normalizedJobId summary error)
      (fun _ => P) (fun _ => P) :=
  hP.quietOperation fun _ => ⟨rfl, rfl, rfl, Nat.le_refl _, .none rfl rfl (fun _ => rfl) rfl rfl⟩

theorem recordNormalizeFailure (exc : PyException) {E : PyException → StageSession → Prop} :
    Triple P (stage.recordNormalizeFailure raw exc) (fun _ => P) E :=
  .bind (hP.change fun _ => ⟨rfl, rfl, rfl, Nat.le_refl _, .none rfl rfl (fun _ => rfl) rfl rfl⟩)
    fun _ => triple_whenQuarantine stage fun hq => hP.change fun s => quiet_quarantine hq s _

theorem resolve {E : PyException → StageSession → Prop} :
    Triple P (stage.whenQuarantine (resolveForRawJob raw)) (fun _ => P) E :=
  triple_whenQuarantine stage fun hq => hP.change fun s => quiet_quarantine hq s _

/-- What follows the upsert of a job: its log, the quarantine, and the count. -/
theorem afterUpsert {Q : StageSession → Prop} (item : AINormalizationBatchPromptItem)
    (normalizedJobId : String) {E : PyException → StageSession → Prop}
    (hcount : ∀ s, P s → Q s.countNormalized) (hE : ∀ e s, P s → E e s) :
    Triple P (do
      stage.recordNormalizationAiLog raw item .success (some normalizedJobId)
        (normalizationResponseSummary stage.sourcePlatform (some item.endpointType.value) 1 1 0) none
      stage.whenQuarantine (resolveForRawJob raw)
      Bisakerja.countNormalized) (fun _ => Q) E :=
  ((hP.recordNormalizationAiLog stage raw item _ _ _ _).weaken_error hE).bind fun _ =>
    (hP.resolve stage raw).bind fun _ => .change hcount

end KeptByQuiet

end Bisakerja
