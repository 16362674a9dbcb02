import BisakerjaScraper.Pipeline.Attempts

/-! The accounts of a normalized source.

    What a source fetched is what the gate excluded and what it attempted, and every attempt is
    either normalized or an error. So the counters of a source that does not raise add up, whatever
    the mapper, the AI and the database did. -/

namespace Bisakerja
open Schemes NormalizeStage

namespace PipelineOrchestrator

variable (o : PipelineOrchestrator) (runId : String)

/-- The raw jobs the gate lets through, where it does not raise. -/
def eligibleOf (tables : StageTables) : Option (List RawJob) :=
  match o.eligibilityResolver with
  | some text =>
    match lookupBackendIdentities text o.backend o.backendIdentityLookup
        o.requireBackendIdentityLookup (o.scope runId tables) with
    | .ok existing => some (eligibleRawJobs (o.scope runId tables)
        ((o.resolver text (o.scope runId tables) existing tables).resolveForRawJobs
          (decisionScopeRunId runId) tables.decisions).1)
    | .error _ => none
  | none => if o.requireBackendIdentityLookup then none else some (o.scope runId tables)

/-- How many raw jobs the gate excludes. -/
def excludedCount (tables : StageTables) : ℕ :=
  (o.scope runId tables).length - ((o.eligibleOf runId tables).getD []).length

/-- The attempts on the eligible raw jobs. -/
def attempts (eligible : List RawJob) (call : ℕ) : List (Trial (Option String)) :=
  if o.hasAiClient then
    o.batchesAttempts (chunked o.config.aiNormalizationBatchSize eligible) call
  else eligible.map fun raw => attemptOn raw (o.source.mapRawJob raw).isOk

variable {o runId}

/-- Every eligible raw job is attempted once. -/
theorem length_attempts (eligible : List RawJob) (call : ℕ) :
    (o.attempts eligible call).length = eligible.length := by
  unfold attempts
  split
  · rw [length_batchesAttempts, flatten_chunked o.config.batchSize_pos]
  · exact List.length_map _

/-! ### The steps of a source -/

/-- A database operation that is tried once. -/
theorem once_dbOperation {α : Type} {operation : StageSession → α × StageSession}
    {P : StageSession → Prop} {Q : α → StageSession → Prop} {E : PyException → StageSession → Prop}
    (hop : ∀ s, P s → Q (operation { s with ticks := s.ticks + 1 }).1
      (operation { s with ticks := s.ticks + 1 }).2)
    (hfails : ¬ o.NeverFails → ∀ exc s, P s → E exc { s with ticks := s.ticks + 1 }) :
    Triple P (dbOperation o.env operation) Q E := by
  refine triple_dbOperation hop fun s hs hfail => hfails (fun hnever => ?_) _ s hs
  rw [hnever] at hfail
  cases hfail

section Mapped

variable {start : StageSession} {done : List (Trial (Option String))} {call : ℕ}

theorem books_storeMapped (raw : RawJob) :
    Triple (o.Books start done call) (o.storeMapped raw)
      (fun _ s => o.Books start (done ++ [attemptOn raw true]) call s ∧
        (o.source.mapRawJob raw).isOk = true)
      (fun _ s => o.Books start done call s ∧
        ((o.source.mapRawJob raw).isOk = false ∨ ¬ o.NeverFails)) := by
  refine .bind ((Triple.ofExcept_outcome _).weaken_error ?_) fun mapped =>
    .of_fact fun hmapped => ?_
  · rintro exc s ⟨hs, herror⟩
    rw [herror]
    exact ⟨hs, .inl rfl⟩
  · rw [hmapped]
    refine .bind ((ledger_upsert raw mapped).weaken_error fun _ _ hs => ⟨hs.1, .inr hs.2⟩)
      fun _ => ?_
    exact (books_stored raw).conseq (fun _ => id) (fun _ _ hs => ⟨hs, rfl⟩) fun _ _ => id

/-- A mapped job that cannot be written is an attempt that failed. -/
theorem books_normalizeMapped (raw : RawJob) {E : PyException → StageSession → Prop} :
    Triple (o.Books start done call) (o.normalizeMapped raw)
      (fun _ => o.Books start (done ++ [attemptOn raw (o.source.mapRawJob raw).isOk]) call) E := by
  refine (books_storeMapped raw).attempt.bind fun result => ?_
  cases result with
  | ok _ =>
    refine .of_fact fun hok => .pure fun s hs => ?_
    rw [hok]
    exact hs
  | error exc =>
    refine .of_fact fun hfailed => (books_recordNormalizeFailure raw exc).conseq (fun _ => id)
      (fun _ s hs => ?_) fun _ _ => id
    rcases hfailed with hfailed | hfailed
    · rw [hfailed]
      exact hs
    · exact ⟨hs.calls, by simpa using hs.tallied, fun _ hnever => absurd hnever hfailed⟩

theorem books_normalizeEligible (eligible : List RawJob) (s₁ : StageSession) :
    Triple (· = s₁) (o.normalizeEligible eligible)
      (fun _ s => ∃ call', o.Books s₁ (o.attempts eligible s₁.calls) call' s) o.DatabaseFailed := by
  unfold normalizeEligible attempts
  refine .ite (fun hclient => ?_) fun hclient => ?_
  · rw [if_pos hclient]
    have hloop : Triple (o.Books s₁ [] s₁.calls) (o.normalizeSourceWithAiBatch eligible) _ _ :=
      books_normalizeBatches _
    refine hloop.conseq (fun s hs => ?_) (fun _ _ => id) fun _ _ => id
    rw [hs]
    exact books_self s₁
  · rw [if_neg hclient]
    have hloop := Triple.forEach (f := o.normalizeMapped) (E := o.DatabaseFailed)
      (I := fun done => o.Books s₁
        (done.map fun raw => attemptOn raw (o.source.mapRawJob raw).isOk) s₁.calls) eligible
      fun done raw _ _ => (books_normalizeMapped raw).conseq (fun _ => id)
        (fun _ s hs => by simpa using hs) fun _ _ => id
    refine hloop.conseq (fun s hs => ?_) (fun _ s hs => ⟨_, hs⟩) fun _ _ => id
    rw [hs]
    exact books_self s₁

end Mapped

/-- A source behind its gate: nothing is attempted yet. -/
structure Admitted (o : PipelineOrchestrator) (runId : String) (start : StageSession)
    (eligible : List RawJob) (s : StageSession) : Prop where
  letThrough : o.eligibleOf runId start.tables = some eligible
  calls : s.calls = start.calls
  quarantine : s.tables.quarantine = start.tables.quarantine
  result : s.result = { start.result with counts := { start.result.counts with
    fetched := (o.scope runId start.tables).length
    skipped := start.result.counts.skipped +
      ((o.scope runId start.tables).length - eligible.length) } }

/-- A source that raises: the database failed, or its gate raised and nothing was committed. -/
def Raised (o : PipelineOrchestrator) (runId : String) (start : StageSession) (_ : PyException)
    (s : StageSession) : Prop :=
  ¬ o.NeverFails ∨ (o.eligibleOf runId start.tables = none ∧ s.committed = start.committed)

/-- A source that does not raise: its accounts and its quarantine. -/
structure Closed (o : PipelineOrchestrator) (runId : String) (start : StageSession)
    (eligible : List RawJob) (s : StageSession) : Prop where
  letThrough : o.eligibleOf runId start.tables = some eligible
  committed : s.committed = s.tables
  fetched : s.result.counts.fetched = (o.scope runId start.tables).length
  parsed : s.result.counts.parsed = s.result.counts.normalized
  attempts : s.result.counts.normalized + s.result.errors.length
    = start.result.counts.normalized + start.result.errors.length + eligible.length
  persisted : s.result.counts.persisted + start.result.counts.normalized
    = start.result.counts.persisted + s.result.counts.normalized
  skipped : s.result.counts.skipped + start.result.errors.length
    = start.result.counts.skipped + ((o.scope runId start.tables).length - eligible.length)
      + s.result.errors.length
  book : o.hasQuarantine = true → o.NeverFails →
    s.tables.book = bookTrials start.tables.book (o.attempts eligible start.calls)

/-- A source at its gate: the tables and the calls are those it started with. -/
structure AtGate (o : PipelineOrchestrator) (runId : String) (start : StageSession)
    (s : StageSession) : Prop where
  tables : s.tables = start.tables
  committed : s.committed = start.committed
  calls : s.calls = start.calls
  result : s.result = { start.result with counts := { start.result.counts with
    fetched := (o.scope runId start.tables).length } }

theorem admitted_gate (start : StageSession) :
    Triple (o.AtGate runId start) (o.gate runId (o.scope runId start.tables))
      (o.Admitted runId start) (o.Raised runId start) := by
  unfold gate
  cases hresolver : o.eligibilityResolver with
  | none =>
    refine .ite (fun hrequired => .raise fun s hs => ?_) fun hfree => .pure fun s hs => ?_
    · exact .inr ⟨by simp [eligibleOf, hresolver, hrequired], hs.committed⟩
    · refine ⟨by simp [eligibleOf, hresolver, hfree], hs.calls, by rw [hs.tables], ?_⟩
      rw [hs.result, Nat.sub_self]
      rfl
  | some text =>
    refine .bind ((Triple.ofExcept_outcome _).weaken_error ?_) fun existing =>
      .of_fact fun hlookup => ?_
    · rintro exc s ⟨hs, hlookup⟩
      exact .inr ⟨by simp [eligibleOf, hresolver, hlookup], hs.committed⟩
    have hresolve : Triple (o.AtGate runId start)
        (dbOperation o.env
          (o.resolve text (decisionScopeRunId runId) (o.scope runId start.tables) existing))
        (fun decisions s => o.eligibleOf runId start.tables
            = some (eligibleRawJobs (o.scope runId start.tables) decisions) ∧
          s.calls = start.calls ∧ s.tables.quarantine = start.tables.quarantine ∧
          s.result = { start.result with counts := { start.result.counts with
            fetched := (o.scope runId start.tables).length } }) (o.Raised runId start) := by
      refine once_dbOperation (fun s hs => ?_) fun hfails _ _ _ => .inl hfails
      refine ⟨?_, hs.calls, by rw [← hs.tables]; rfl, hs.result⟩
      simp only [eligibleOf, hresolver, hlookup, resolve, hs.tables]
    refine hresolve.bind fun decisions => ?_
    refine Triple.bind (Q := fun _ => o.Admitted runId start
      (eligibleRawJobs (o.scope runId start.tables) decisions)) (.change ?_)
      fun _ => .pure fun _ => id
    rintro s ⟨hthrough, hcalls, hquarantine, hresult⟩
    refine ⟨hthrough, hcalls, hquarantine, ?_⟩
    dsimp only
    rw [hresult]

theorem closes_normalizeSource (start : StageSession) :
    Triple (· = start) (o.normalizeSource runId)
      (fun _ s => ∃ eligible, o.Closed runId start eligible s) (o.Raised runId start) := by
  have hscope : Triple (· = start) (dbOperation o.env fun s => (o.scope runId s.tables, s))
      (fun rawJobs s => rawJobs = o.scope runId start.tables ∧
        s = { start with ticks := start.ticks + 1 }) (o.Raised runId start) := by
    refine once_dbOperation ?_ fun hfails _ _ _ => .inl hfails
    rintro s rfl
    exact ⟨rfl, rfl⟩
  refine hscope.bind fun rawJobs => ?_
  refine Triple.bind (Q := fun _ s => o.AtGate runId start s ∧ rawJobs = o.scope runId start.tables)
    (.change ?_) fun _ => .of_fact ?_
  · rintro s ⟨rfl, rfl⟩
    exact ⟨⟨rfl, rfl, rfl, rfl⟩, rfl⟩
  rintro rfl
  refine (admitted_gate start).bind fun eligible => ?_
  have hnormalize : Triple (o.Admitted runId start eligible) (o.normalizeEligible eligible)
      (fun _ s => ∃ s₁, o.Admitted runId start eligible s₁ ∧
        ∃ call', o.Books s₁ (o.attempts eligible s₁.calls) call' s) (o.Raised runId start) := by
    intro s₁ h₁
    exact (books_normalizeEligible eligible s₁).conseq (fun _ => id) (fun _ _ hs => ⟨s₁, h₁, hs⟩)
      (fun _ _ => .inl) s₁ rfl
  refine hnormalize.bind fun _ => ?_
  have hcommit : Triple (fun s => ∃ s₁, o.Admitted runId start eligible s₁ ∧
        ∃ call', o.Books s₁ (o.attempts eligible s₁.calls) call' s)
      (dbOperation o.env fun s => (⟨⟩, s.commit))
      (fun (_ : PUnit) s => s.committed = s.tables ∧ ∃ s₁, o.Admitted runId start eligible s₁ ∧
        ∃ call', o.Books s₁ (o.attempts eligible s₁.calls) call' s) (o.Raised runId start) := by
    refine once_dbOperation ?_ fun hfails _ _ _ => .inl hfails
    rintro s ⟨s₁, h₁, call', hs⟩
    exact ⟨rfl, s₁, h₁, call', ⟨hs.calls, hs.tallied, hs.book⟩⟩
  refine hcommit.bind fun _ => .change ?_
  rintro s ⟨hcommitted, s₁, h₁, call', hs⟩
  obtain ⟨hfetched, hattempts, hpersisted, hskipped⟩ := hs.tallied
  rw [h₁.result] at hfetched hattempts hpersisted hskipped
  rw [length_attempts] at hattempts
  refine ⟨eligible, h₁.letThrough, hcommitted, hfetched, rfl, hattempts, hpersisted, hskipped, ?_⟩
  intro hq hnever
  have hbook := hs.book hq hnever
  rw [h₁.calls] at hbook
  unfold StageTables.book at hbook ⊢
  rw [h₁.quarantine] at hbook
  exact hbook

/-! ### The accounts -/

theorem length_le_of_eligibleOf {tables : StageTables} {eligible : List RawJob}
    (h : o.eligibleOf runId tables = some eligible) :
    eligible.length ≤ (o.scope runId tables).length := by
  unfold eligibleOf at h
  split at h
  · split at h
    · cases h
      exact (sublist_eligibleRawJobs _ _).length_le
    · cases h
  · split at h
    · cases h
    · cases h
      exact Nat.le_refl _

/-- A source that begins with nothing counted and does not raise: what it fetched was normalized or
    skipped, what it normalized it parsed and persisted, and its errors are what it skipped beyond
    what the gate excluded. -/
theorem normalizeSource_accounts {s s' : StageSession} {platform : String}
    (hs : s.result = { sourcePlatform := platform, status := .started })
    (h : o.normalizeSource runId s = (.ok ⟨⟩, s')) :
    s'.result.counts.fetched = s'.result.counts.normalized + s'.result.counts.skipped ∧
      s'.result.counts.parsed = s'.result.counts.normalized ∧
      s'.result.counts.normalized = s'.result.counts.persisted ∧
      s'.result.errors.length + o.excludedCount runId s.tables = s'.result.counts.skipped := by
  have hcloses : Triple _ (o.normalizeSource runId) _ _ := closes_normalizeSource s
  have hclosed := hcloses s rfl
  rw [h] at hclosed
  obtain ⟨eligible, hclosed⟩ := hclosed
  have hle := length_le_of_eligibleOf hclosed.letThrough
  have hfetched := hclosed.fetched
  have hattempts := hclosed.attempts
  have hpersisted := hclosed.persisted
  have hskipped := hclosed.skipped
  rw [hs] at hattempts hpersisted hskipped
  unfold excludedCount
  rw [hclosed.letThrough, Option.getD_some]
  simp only [List.length_nil, Nat.zero_add, Nat.add_zero] at hattempts hpersisted hskipped
  exact ⟨by omega, hclosed.parsed, by omega, by omega⟩

end PipelineOrchestrator

theorem normalizeSource_accounts_twoMapped :
    let o := gateless (· == 4)
    let after := (o.normalizeSource "x" twoMappedSession).2
    after.result.counts.fetched = after.result.counts.normalized + after.result.counts.skipped ∧
      after.result.counts.parsed = after.result.counts.normalized ∧
      after.result.counts.normalized = after.result.counts.persisted ∧
      after.result.errors.length + o.excludedCount "x" twoMappedSession.tables
        = after.result.counts.skipped :=
  PipelineOrchestrator.normalizeSource_accounts rfl (Stateful.eq_of_isOk (by decide +kernel))

end Bisakerja
