import BisakerjaScraper.Pipeline.Durable

/-! A source that went through the normalize stage.

    It passed the gate, its eligible raw jobs were normalized, and the last commit went through.
    What the gate leaves behind is said once here. -/

namespace Bisakerja
open Schemes

/-- A database operation that was tried once and returned. -/
theorem dbOperation_ok {α : Type} {h : StageHost} {operation : StageSession → α × StageSession}
    {s s' : StageSession} {a : α} (hrun : dbOperation h operation s = (.ok a, s')) :
    operation { s with ticks := s.ticks + 1 } = (a, s') := by
  unfold dbOperation at hrun
  dsimp only at hrun
  split at hrun
  · cases hrun
  · cases hrun
    rfl

namespace PipelineOrchestrator

variable {o : PipelineOrchestrator} {runId : String} {s s' : StageSession}

/-- The decisions the gate made, and what it let through. -/
inductive Decided (o : PipelineOrchestrator) (runId : String) (s : StageSession)
    (eligible : List RawJob) (s₁ : StageSession) : Prop
  | gate (text : IdentityText) (existing : BackendExisting)
      (hresolver : o.eligibilityResolver = some text)
      (hlookup : lookupBackendIdentities text o.backend o.backendIdentityLookup
        o.requireBackendIdentityLookup (o.scope runId s.tables) = .ok existing)
      (heligible : eligible = eligibleRawJobs (o.scope runId s.tables)
        ((o.resolver text (o.scope runId s.tables) existing s.tables).resolveForRawJobs
          (decisionScopeRunId runId) s.tables.decisions).1)
      (hdecisions : s₁.tables.decisions
        = ((o.resolver text (o.scope runId s.tables) existing s.tables).resolveForRawJobs
          (decisionScopeRunId runId) s.tables.decisions).2)
      (hhistory : s₁.history = s.history ++ [.wrote (.decided
        ((o.resolver text (o.scope runId s.tables) existing s.tables).resolveForRawJobs
          (decisionScopeRunId runId) s.tables.decisions).1)])
  | ungated (hresolver : o.eligibilityResolver = none) (heligible : eligible = o.scope runId s.tables)
      (hdecisions : s₁.tables.decisions = s.tables.decisions) (hhistory : s₁.history = s.history)

/-- The session behind the gate. -/
structure Gated (o : PipelineOrchestrator) (runId : String) (s : StageSession)
    (eligible : List RawJob) (s₁ : StageSession) : Prop where
  jobs : s₁.tables.jobs = s.tables.jobs
  quarantine : s₁.tables.quarantine = s.tables.quarantine
  committed : s₁.committed = s.committed
  calls : s₁.calls = s.calls
  ticks : s.ticks ≤ s₁.ticks
  persisted : s₁.result.counts.persisted = s.result.counts.persisted
  decided : o.Decided runId s eligible s₁

/-- The session after the last commit of a source. -/
def close (s : StageSession) : StageSession :=
  let committed := { s with ticks := s.ticks + 1 }.commit
  { committed with result := closeResult committed.result }

/-- A source that ends without raising: gate, normalization, commit. -/
theorem normalizeSource_ok (h : o.normalizeSource runId s = (.ok ⟨⟩, s')) :
    ∃ eligible s₁ s₂, o.Gated runId s eligible s₁ ∧
      o.normalizeEligible eligible s₁ = (.ok ⟨⟩, s₂) ∧ s' = close s₂ := by
  unfold normalizeSource at h
  obtain ⟨rawJobs, t₁, hscope, h⟩ := Stateful.bind_ok_iff.mp h
  obtain ⟨_, t₂, hfetched, h⟩ := Stateful.bind_ok_iff.mp h
  obtain ⟨eligible, s₁, hgate, h⟩ := Stateful.bind_ok_iff.mp h
  obtain ⟨_, s₂, hnormalize, h⟩ := Stateful.bind_ok_iff.mp h
  obtain ⟨_, s₃, hcommit, hclose⟩ := Stateful.bind_ok_iff.mp h
  cases dbOperation_ok hscope
  cases hfetched
  cases dbOperation_ok hcommit
  cases hclose
  refine ⟨eligible, s₁, s₂, ?_, hnormalize, rfl⟩
  unfold gate at hgate
  cases hresolver : o.eligibilityResolver with
  | none =>
    rw [hresolver] at hgate
    dsimp only at hgate
    split at hgate
    · cases hgate
    · cases hgate
      exact ⟨rfl, rfl, rfl, rfl, Nat.le_succ _, rfl, .ungated hresolver rfl rfl rfl⟩
  | some text =>
    rw [hresolver] at hgate
    dsimp only at hgate
    obtain ⟨existing, t₃, hlookup, hgate⟩ := Stateful.bind_ok_iff.mp hgate
    obtain ⟨decisions, t₄, hresolve, hgate⟩ := Stateful.bind_ok_iff.mp hgate
    obtain ⟨_, t₅, hskipped, hgate⟩ := Stateful.bind_ok_iff.mp hgate
    cases hlooked : lookupBackendIdentities text o.backend o.backendIdentityLookup
        o.requireBackendIdentityLookup (o.scope runId s.tables) with
    | error exc =>
      change Stateful.ofExcept (lookupBackendIdentities text o.backend o.backendIdentityLookup
        o.requireBackendIdentityLookup (o.scope runId s.tables)) _ = _ at hlookup
      rw [hlooked] at hlookup
      cases hlookup
    | ok found =>
      change Stateful.ofExcept (lookupBackendIdentities text o.backend o.backendIdentityLookup
        o.requireBackendIdentityLookup (o.scope runId s.tables)) _ = _ at hlookup
      rw [hlooked] at hlookup
      cases hlookup
      cases dbOperation_ok hresolve
      cases hskipped
      cases hgate
      exact ⟨rfl, rfl, rfl, rfl, Nat.le_add_right _ 2, rfl,
        .gate text existing hresolver hlooked rfl rfl rfl⟩

theorem sublist_eligibleRawJobs (rawJobs : List RawJob)
    (decisions : List NormalizationEligibilityDecision) :
    (eligibleRawJobs rawJobs decisions).Sublist rawJobs := by
  unfold eligibleRawJobs
  induction rawJobs generalizing decisions with
  | nil => exact .refl _
  | cons raw rest ih =>
    cases decisions with
    | nil => exact List.nil_sublist _
    | cons row rows =>
      rw [List.zip_cons_cons]
      by_cases hrow : row.decision = .normalizationEligible
      · rw [List.filterMap_cons_some (b := raw) (by simp [hrow])]
        exact (ih rows).cons_cons raw
      · rw [List.filterMap_cons_none (by simp [hrow])]
        exact (ih rows).cons raw

/-- The gate lets raw jobs of the scope through. -/
theorem Gated.sublist {eligible : List RawJob} {s₁ : StageSession}
    (h : o.Gated runId s eligible s₁) : eligible.Sublist (o.scope runId s.tables) := by
  cases h.decided with
  | gate text existing _ _ heligible _ _ =>
    rw [heligible]
    exact sublist_eligibleRawJobs _ _
  | ungated _ heligible _ _ =>
    rw [heligible]

/-- A session that has written nothing yet. -/
structure Fresh (o : PipelineOrchestrator) (s : StageSession) : Prop where
  committed : s.committed = s.tables
  history : s.history = []
  persisted : s.result.counts.persisted = 0
  rowIds : FreshRowIds o.env.host s.tables.jobs.normalizedJobs s.ticks

/-- The gate stores no job. -/
theorem Decided.stored {eligible : List RawJob} {s₁ : StageSession}
    (h : o.Decided runId s eligible s₁) : s₁.stored = s.stored := by
  unfold StageSession.stored
  cases h with
  | gate text existing _ _ _ _ hhistory =>
    rw [hhistory, txWrites_append, List.filterMap_append]
    exact List.append_nil _
  | ungated _ _ _ hhistory => rw [hhistory]

/-- A session that has written nothing reflects its own tables. -/
theorem Fresh.follows (hs : o.Fresh s) (q : Bool) : Follows o.env q s.tables s := by
  have hview : s.view = {} := by
    unfold StageSession.view
    rw [hs.history]
    rfl
  refine ⟨hs.rowIds, ?_, ?_, ?_, fun _ => rfl, ?_⟩
  · rw [hs.committed]
    exact hs.rowIds
  · rw [hview]
    exact .refl _ _
  · rw [hview, hs.committed]
    exact .refl _ _
  · rw [hs.committed]
    exact fun _ => rfl

/-- However a source ends, the committed tables are those of its start with the durable writes
    applied. -/
theorem follows_normalizeSource (hinj : Function.Injective o.env.host.newId) {start : StageTables}
    (hs : Follows o.env o.hasQuarantine start s) :
    Follows o.env o.hasQuarantine start (o.normalizeSource runId s).2 :=
  ((Follows.kept hinj start).keptByAction.normalizeSource (Follows.keptByDecided start) runId).of_run
    hs

/-- After a source nothing is left uncommitted. -/
theorem pending_close (s : StageSession) : (close s).view.pending = [] :=
  TxView.pending_replay_committed s.history

end PipelineOrchestrator

end Bisakerja
