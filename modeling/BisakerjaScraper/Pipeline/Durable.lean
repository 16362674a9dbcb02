import BisakerjaScraper.Pipeline.Actions
import BisakerjaScraper.Pipeline.Steps

/-! What of a normalize stage lasts.

    Whatever the stage does, and however it ends, it moves in steps that leave the tables alone,
    roll back, commit, or write decisions or one job. So the committed tables are at any time those
    of the start with the durable writes applied: under each identity stands the last durable
    write, and on each raw job the last durable decision. -/

namespace Bisakerja
open Schemes

/-- A step of the stage behind the gate. -/
inductive StageStep (h : StageHost) (q : Bool) (s : StageSession) : StageSession → Prop
  | quiet {s' : StageSession} (hquiet : Quiet q s s') : StageStep h q s s'
  | noted {s' : StageSession} (htables : s'.tables = s.tables) (hcommitted : s'.committed = s.committed)
      (hhistory : s'.history = s.history) (hticks : s'.ticks = s.ticks) : StageStep h q s s'
  | stored (raw : RawJob) (job : CanonicalJobSchema) : StageStep h q s (s.upsert h raw job).2

/-- A condition that every step keeps. -/
def KeptByStep (h : StageHost) (q : Bool) (I : StageSession → Prop) : Prop :=
  ∀ s s', StageStep h q s s' → I s → I s'

/-- Every action is one or two steps. -/
theorem KeptByStep.keptByAction {h : StageHost} {q : Bool} {I : StageSession → Prop}
    (hI : KeptByStep h q I) : KeptByAction h q I where
  noted s s' htables hcommitted hhistory hticks hs := by
    have hnoted : I { s' with ticks := s.ticks } :=
      hI s _ (.noted htables hcommitted hhistory rfl) hs
    exact hI _ s' (.quiet (quiet_tick (s := { s' with ticks := s.ticks }) hticks)) hnoted
  rolledBack s hs := hI s _ (.quiet (quiet_rollback (Nat.le_refl _))) hs
  committed s hs := hI s _ (.quiet (quiet_commit s)) hs
  stored s raw job hs := hI s _ (.stored raw job) hs
  logged s log hs := hI s _
    (.quiet ⟨rfl, rfl, rfl, Nat.le_refl _, .none rfl rfl (fun _ => rfl) rfl rfl⟩) hs
  quarantined hq s rows hs := hI s _ (.quiet (quiet_quarantine hq s rows)) hs

/-! ### The tables and the durable writes -/

/-- What the transaction of a session has made durable, and what it has not. -/
def StageSession.view (s : StageSession) : TxView StageWrite := TxView.replay {} s.history

/-- The decisions of a write, when it is one. -/
def StageWrite.decisions : StageWrite → List NormalizationEligibilityDecision
  | .decided rows => rows
  | .stored _ _ => []

/-- The identity a job is written under. -/
def writtenIdentity (write : RawJob × CanonicalJobSchema) : String × String := write.2.identity

/-- The row is as the write of a job leaves it. -/
def NormalizedJob.HoldsWrite (isoformat : Time → String) (write : RawJob × CanonicalJobSchema)
    (row : NormalizedJob) : Prop :=
  row.rewrite isoformat write.2 (some write.1.id) = row

/-- The jobs that some writes store. -/
def storedOf (writes : List StageWrite) : List (RawJob × CanonicalJobSchema) :=
  writes.filterMap StageWrite.stored?

/-- The jobs whose write is committed. -/
def StageSession.durable (s : StageSession) : List (RawJob × CanonicalJobSchema) :=
  storedOf s.view.durable

/-- The decisions that some writes make. -/
def decidedOf (writes : List StageWrite) : List NormalizationEligibilityDecision :=
  writes.flatMap StageWrite.decisions

/-- The tables are those of the start with some writes applied. -/
structure Reflects (isoformat : Time → String) (start : StageTables) (writes : List StageWrite)
    (tables : StageTables) : Prop where
  rawJobs : tables.jobs.rawJobs = start.jobs.rawJobs
  untouched : ∀ identity, lastWrite writtenIdentity (storedOf writes) identity = none →
    tables.jobs.findNormalizedJob identity = start.jobs.findNormalizedJob identity
  written : ∀ identity write, lastWrite writtenIdentity (storedOf writes) identity = some write →
    ∃ row, tables.jobs.findNormalizedJob identity = some row ∧ row.HoldsWrite isoformat write
  decisions : ∀ rawJobId, tables.decisions.find? rawJobId
    = (lastWrite NormalizationEligibilityDecision.rawJobId (decidedOf writes) rawJobId).or
      (start.decisions.find? rawJobId)

namespace Reflects

variable {host : Host} {isoformat : Time → String} {start tables tables' : StageTables}
  {writes : List StageWrite}

/-- Nothing written, nothing changed. -/
theorem refl (isoformat : Time → String) (start : StageTables) : Reflects isoformat start [] start := by
  refine ⟨rfl, fun _ _ => rfl, fun identity write hlast => ?_, fun _ => rfl⟩
  rw [storedOf, List.filterMap_nil, lastWrite_nil] at hlast
  cases hlast

/-- Only jobs and decisions count. -/
theorem congr (h : Reflects isoformat start writes tables) (hjobs : tables'.jobs = tables.jobs)
    (hdecisions : tables'.decisions = tables.decisions) :
    Reflects isoformat start writes tables' := by
  refine ⟨?_, fun identity hnone => ?_, fun identity write hlast => ?_, fun rawJobId => ?_⟩
  · rw [hjobs]
    exact h.rawJobs
  · rw [hjobs]
    exact h.untouched identity hnone
  · rw [hjobs]
    exact h.written identity write hlast
  · rw [hdecisions]
    exact h.decisions rawJobId

theorem upsert (h : Reflects isoformat start writes tables) {ticks : ℕ}
    (hfresh : FreshRowIds host tables.jobs.normalizedJobs ticks) (raw : RawJob)
    (job : CanonicalJobSchema) :
    Reflects isoformat start (writes ++ [.stored raw job])
      { tables with jobs := (upsertNormalizedJob host isoformat job (some raw.id)
        { tables := tables.jobs, ticks }).2.tables } := by
  have hstored : storedOf (writes ++ [.stored raw job]) = storedOf writes ++ [(raw, job)] := by
    unfold storedOf
    rw [List.filterMap_append]
    rfl
  have hdecided : decidedOf (writes ++ [.stored raw job]) = decidedOf writes := by
    unfold decidedOf
    rw [List.flatMap_append]
    exact List.append_nil _
  refine ⟨?_, fun identity hnone => ?_, fun identity write hlast => ?_, fun rawJobId => ?_⟩
  · dsimp only
    rw [upsertNormalizedJob_rawJobs]
    exact h.rawJobs
  · rw [hstored, lastWrite_append] at hnone
    split at hnone
    · cases hnone
    · next hne =>
      dsimp only
      rw [findNormalizedJob_upsertNormalizedJob_of_ne _ _ _ _ hne]
      exact h.untouched identity hnone
  · rw [hstored, lastWrite_append] at hlast
    dsimp only
    split at hlast
    · next hidentity =>
      cases hlast
      subst hidentity
      exact findNormalizedJob_upsertNormalizedJob_self isoformat job (some raw.id) hfresh
    · next hne =>
      rw [findNormalizedJob_upsertNormalizedJob_of_ne _ _ _ _ hne]
      exact h.written identity write hlast
  · rw [hdecided]
    exact h.decisions rawJobId

theorem decided (h : Reflects isoformat start writes tables)
    {rows : List NormalizationEligibilityDecision} {decisions : EligibilityDecisions}
    (hrows : ∀ rawJobId, decisions.find? rawJobId
      = (lastWrite NormalizationEligibilityDecision.rawJobId rows rawJobId).or
        (tables.decisions.find? rawJobId)) :
    Reflects isoformat start (writes ++ [.decided rows]) { tables with decisions } := by
  have hstored : storedOf (writes ++ [.decided rows]) = storedOf writes := by
    unfold storedOf
    rw [List.filterMap_append]
    exact List.append_nil _
  have hdecided : decidedOf (writes ++ [.decided rows]) = decidedOf writes ++ rows := by
    unfold decidedOf
    rw [List.flatMap_append]
    exact congrArg _ (List.append_nil rows)
  refine ⟨h.rawJobs, ?_, ?_, fun rawJobId => ?_⟩
  · rw [hstored]
    exact h.untouched
  · rw [hstored]
    exact h.written
  · rw [hdecided, lastWrite_append_list, hrows, h.decisions, Option.or_assoc]

end Reflects

/-- What holds along a stage that began with the tables `start`: the rows to come get new ids, the
    tables reflect the writes, and without a quarantine its table stays as it is. -/
structure Follows (h : StageHost) (q : Bool) (start : StageTables) (s : StageSession) : Prop where
  fresh : FreshRowIds h.host s.tables.jobs.normalizedJobs s.ticks
  freshCommitted : FreshRowIds h.host s.committed.jobs.normalizedJobs s.ticks
  shown : Reflects h.isoformat start s.view.all s.tables
  durable : Reflects h.isoformat start s.view.durable s.committed
  quarantine : q = false → s.tables.quarantine = start.quarantine
  quarantineCommitted : q = false → s.committed.quarantine = start.quarantine

theorem view_append {s : StageSession} {history : List (TxEvent StageWrite)}
    {event : TxEvent StageWrite} (h : s.history = history ++ [event]) :
    s.view = (TxView.replay {} history).step event := by
  unfold StageSession.view
  rw [h, TxView.replay_append]
  rfl

variable {h : StageHost} {q : Bool} {start : StageTables}

theorem Follows.quiet {s s' : StageSession} (hquiet : Quiet q s s') (hs : Follows h q start s) :
    Follows h q start s' := by
  cases hquiet.transaction with
  | none htables hdecisions hquarantine hcommitted hhistory =>
    have hview : s'.view = s.view := by
      unfold StageSession.view
      rw [hhistory]
    refine ⟨?_, ?_, ?_, ?_, fun hq => (hquarantine hq).trans (hs.quarantine hq), ?_⟩
    · rw [htables]
      exact hs.fresh.mono hquiet.ticks
    · rw [hcommitted]
      exact hs.freshCommitted.mono hquiet.ticks
    · rw [hview]
      exact hs.shown.congr htables hdecisions
    · rw [hcommitted, hview]
      exact hs.durable
    · rw [hcommitted]
      exact hs.quarantineCommitted
  | rolledBack htables hcommitted hhistory =>
    have hview := view_append hhistory
    rw [← htables] at hcommitted
    refine ⟨?_, ?_, ?_, ?_, ?_, ?_⟩
    · rw [htables]
      exact hs.freshCommitted.mono hquiet.ticks
    · rw [hcommitted, htables]
      exact hs.freshCommitted.mono hquiet.ticks
    · rw [htables, hview, TxView.all, TxView.step, List.append_nil]
      exact hs.durable
    · rw [hcommitted, htables, hview]
      exact hs.durable
    · rw [htables]
      exact hs.quarantineCommitted
    · rw [hcommitted, htables]
      exact hs.quarantineCommitted
  | committed htables hcommitted hhistory =>
    have hview := view_append hhistory
    refine ⟨?_, ?_, ?_, ?_, ?_, ?_⟩
    · rw [htables]
      exact hs.fresh.mono hquiet.ticks
    · rw [hcommitted]
      exact hs.fresh.mono hquiet.ticks
    · rw [htables, hview, TxView.all, TxView.step, List.append_nil]
      exact hs.shown
    · rw [hcommitted, hview]
      exact hs.shown
    · rw [htables]
      exact hs.quarantine
    · rw [hcommitted]
      exact hs.quarantine

theorem Follows.kept (hinj : Function.Injective h.host.newId) (start : StageTables) :
    KeptByStep h q (Follows h q start) := by
  intro s s' hstep hs
  cases hstep with
  | quiet hquiet => exact hs.quiet hquiet
  | noted htables hcommitted hhistory hticks =>
    have hview : s'.view = s.view := by
      unfold StageSession.view
      rw [hhistory]
    refine ⟨?_, ?_, ?_, ?_, ?_, ?_⟩
    · rw [htables, hticks]
      exact hs.fresh
    · rw [hcommitted, hticks]
      exact hs.freshCommitted
    · rw [htables, hview]
      exact hs.shown
    · rw [hcommitted, hview]
      exact hs.durable
    · rw [htables]
      exact hs.quarantine
    · rw [hcommitted]
      exact hs.quarantineCommitted
  | stored raw job =>
    obtain ⟨hfresh, hticks⟩ := freshRowIds_upsertNormalizedJob hinj h.isoformat job (some raw.id)
      (s := { tables := s.tables.jobs, ticks := s.ticks }) hs.fresh
    have hview : (s.upsert h raw job).2.view = s.view.step (.wrote (.stored raw job)) :=
      view_append rfl
    refine ⟨hfresh, hs.freshCommitted.mono hticks, ?_, ?_, hs.quarantine, hs.quarantineCommitted⟩
    · rw [hview, TxView.all, TxView.step, ← List.append_assoc]
      exact hs.shown.upsert hs.fresh raw job
    · rw [hview]
      exact hs.durable

theorem Follows.keptByDecided (start : StageTables) : KeptByDecided (Follows h q start) := by
  intro s rows decisions hrows hs
  have hview := view_append (s := { s with
    tables := { s.tables with decisions }
    history := s.history ++ [.wrote (.decided rows)] }) rfl
  refine ⟨hs.fresh, hs.freshCommitted, ?_, ?_, hs.quarantine, hs.quarantineCommitted⟩
  · rw [hview, TxView.all, TxView.step, ← List.append_assoc]
    exact hs.shown.decided hrows
  · rw [hview]
    exact hs.durable

end Bisakerja
