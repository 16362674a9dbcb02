import BisakerjaScraper.Pipeline.Plan
import BisakerjaScraper.Pipeline.SourceRun

/-! A normalize run, source after source.

    What the gate of a source decides and what its mapper and the AI give is settled by the tables
    the source begins with. A run writes nothing else, and its committed tables are those of its
    start with the writes applied that the database keeps. -/

namespace Bisakerja
open Schemes

/-! ### The run -/

/-- `unique_sources_by_platform`. -/
def uniqueSourcesByPlatform (sources : List NormalizeSource) : List NormalizeSource :=
  (sources.foldl (fun (acc : List NormalizeSource × List SourcePlatform) source =>
    if source.platform ∈ acc.2 then acc
    else (acc.1 ++ [source], acc.2 ++ [source.platform])) ([], [])).1

namespace PipelineOrchestrator

variable (o : PipelineOrchestrator)

/-- The orchestrator at work on a source. -/
def withSource (source : NormalizeSource) : PipelineOrchestrator := { o with source }

/-- The loop of `run_normalize`. -/
def normalizeSources (runId : String) :
    List NormalizeSource → StageM (List SourcePipelineResult)
  | [] => pure []
  | source :: rest => do
    changeResult fun _ => { sourcePlatform := source.platform.value, status := .started }
    (o.withSource source).normalizeSource runId
    let result ← .update fun s => (s.result, s)
    let results ← normalizeSources runId rest
    pure (result :: results)

end PipelineOrchestrator

/-! ### What a run gives its raw jobs -/

namespace PipelineOrchestrator

variable (o : PipelineOrchestrator) (runId : String)

/-- The decisions of the gate on the tables a source begins with: none without a resolver, nor where
    the lookup raises. -/
def gateDecisions (tables : StageTables) : List NormalizationEligibilityDecision :=
  match o.eligibilityResolver with
  | none => []
  | some text =>
    match lookupBackendIdentities text o.backend o.backendIdentityLookup
        o.requireBackendIdentityLookup (o.scope runId tables) with
    | .error _ => []
    | .ok existing =>
      ((o.resolver text (o.scope runId tables) existing tables).resolveForRawJobs
        (decisionScopeRunId runId) tables.decisions).1

/-- The raw jobs that go on behind the gate. -/
def passed (tables : StageTables) : List RawJob :=
  match o.eligibilityResolver with
  | none => o.scope runId tables
  | some _ => eligibleRawJobs (o.scope runId tables) (o.gateDecisions runId tables)

/-- The jobs that the mapper, or the AI after it, gives the raw jobs behind the gate. -/
def givenJobs (tables : StageTables) (call : ℕ) : List (RawJob × CanonicalJobSchema) :=
  if o.hasAiClient then o.plannedJobs (o.passed runId tables) call
  else (o.passed runId tables).filterMap fun raw =>
    (o.source.mapRawJob raw).toOption.map fun job => (raw, job)

/-- A job is given to a raw job that went on. -/
theorem fst_mem_passed {tables : StageTables} {call : ℕ} {write : RawJob × CanonicalJobSchema}
    (h : write ∈ o.givenJobs runId tables call) : write.1 ∈ o.passed runId tables := by
  unfold givenJobs at h
  split at h
  · exact NormalizeStage.fst_mem_plannedJobs h
  · obtain ⟨raw, hraw, hjob⟩ := List.mem_filterMap.mp h
    obtain ⟨job, -, rfl⟩ := Option.map_eq_some_iff.mp hjob
    exact hraw

end PipelineOrchestrator

/-- A source of a run, with the session it begins with. -/
structure SourcePass where
  orchestrator : PipelineOrchestrator
  begun : StageSession

/-- The passes of a run. -/
def PipelineOrchestrator.sourcePasses (o : PipelineOrchestrator) (runId : String) :
    List NormalizeSource → StageSession → List SourcePass
  | [], _ => []
  | source :: rest, s =>
    let begun : StageSession :=
      { s with result := { sourcePlatform := source.platform.value, status := .started } }
    ⟨o.withSource source, begun⟩ ::
      sourcePasses o runId rest ((o.withSource source).normalizeSource runId begun).2

namespace SourcePass

variable (pass : SourcePass) (runId : String)

/-- `gateDecisions` of a pass. -/
def decisions : List NormalizationEligibilityDecision :=
  pass.orchestrator.gateDecisions runId pass.begun.tables

/-- `givenJobs` of a pass. -/
def jobs : List (RawJob × CanonicalJobSchema) :=
  pass.orchestrator.givenJobs runId pass.begun.tables pass.begun.calls

/-- A write that the pass can make: its decisions, or a job it gives. -/
def Gives : StageWrite → Prop
  | .decided rows => rows = pass.decisions runId
  | .stored raw job => (raw, job) ∈ pass.jobs runId

end SourcePass

/-! ### A pass writes what it gives -/

theorem mem_stored {s : StageSession} {raw : RawJob} {job : CanonicalJobSchema} :
    (raw, job) ∈ s.stored ↔ .stored raw job ∈ txWrites s.history := by
  unfold StageSession.stored
  rw [List.mem_filterMap]
  constructor
  · rintro ⟨_ | _, hmem, heq⟩ <;> cases heq
    exact hmem
  · intro h
    exact ⟨_, h, rfl⟩

/-- All decisions a session has written are among some writes. -/
def DecidedWithin (writes : List StageWrite) (s : StageSession) : Prop :=
  ∀ rows, .decided rows ∈ txWrites s.history → .decided rows ∈ writes

/-- All jobs a session has stored are among some jobs. -/
def StoredWithin (jobs : List (RawJob × CanonicalJobSchema)) (s : StageSession) : Prop :=
  ∀ write ∈ s.stored, write ∈ jobs

theorem DecidedWithin.kept {h : StageHost} {q : Bool} (writes : List StageWrite) :
    KeptByStep h q (DecidedWithin writes) := by
  intro s s' hstep hs rows hmem
  cases hstep with
  | quiet hquiet =>
    rw [hquiet.writes] at hmem
    exact hs rows hmem
  | noted _ _ hhistory _ =>
    rw [hhistory] at hmem
    exact hs rows hmem
  | stored raw job =>
    change _ ∈ txWrites (s.history ++ [.wrote (.stored raw job)]) at hmem
    rw [txWrites_append, List.mem_append] at hmem
    rcases hmem with hmem | hmem
    · exact hs rows hmem
    · cases List.mem_singleton.mp hmem

theorem StoredWithin.kept {q : Bool} (jobs : List (RawJob × CanonicalJobSchema)) :
    KeptByQuiet q (StoredWithin jobs) := by
  intro s s' hquiet hs write hmem
  rw [NormalizeStage.stored_of_quiet hquiet] at hmem
  exact hs write hmem

namespace PipelineOrchestrator

variable {o : PipelineOrchestrator} {runId : String} {s s' s₁ : StageSession}
  {eligible : List RawJob}

theorem Decided.passed (h : o.Decided runId s eligible s₁) : eligible = o.passed runId s.tables := by
  unfold PipelineOrchestrator.passed gateDecisions
  cases h with
  | gate text existing hresolver hlookup heligible _ _ =>
    rw [hresolver]
    dsimp only
    rw [hlookup]
    exact heligible
  | ungated hresolver heligible _ _ =>
    rw [hresolver]
    exact heligible

/-- The gate adds its decisions to the writes. -/
theorem Decided.writes (h : o.Decided runId s eligible s₁) :
    DecidedWithin (txWrites s.history ++ [.decided (o.gateDecisions runId s.tables)]) s₁ := by
  intro rows hmem
  unfold gateDecisions
  cases h with
  | gate text existing hresolver hlookup _ _ hhistory =>
    rw [hresolver]
    dsimp only
    rw [hlookup]
    rw [hhistory, txWrites_append] at hmem
    exact hmem
  | ungated _ _ _ hhistory =>
    rw [hhistory] at hmem
    exact List.mem_append_left _ hmem

/-- One turn without an AI client stores the mapped job or nothing. -/
theorem storedWithin_normalizeMapped (jobs : List (RawJob × CanonicalJobSchema)) {raw : RawJob}
    (hmapped : ∀ job, o.source.mapRawJob raw = .ok job → (raw, job) ∈ jobs)
    {E : PyException → StageSession → Prop} :
    Triple (StoredWithin jobs) (o.normalizeMapped raw) (fun _ => StoredWithin jobs) E := by
  have hkept := StoredWithin.kept (q := o.hasQuarantine) jobs
  have hstore : Triple (StoredWithin jobs) (o.storeMapped raw) (fun _ => StoredWithin jobs)
      (fun _ => StoredWithin jobs) := by
    refine (Triple.ofExcept (o.source.mapRawJob raw)).bind fun mapped => .of_fact fun hjob => ?_
    have hupsert : Triple (StoredWithin jobs) (upsertNormalizedJobWithRetry o.env raw mapped)
        (fun _ => StoredWithin jobs) (fun _ => StoredWithin jobs) := by
      refine hkept.dbOperationWithRetry fun s hs write hmem => ?_
      rw [stored_upsert, List.mem_append] at hmem
      rcases hmem with hmem | hmem
      · exact hs write hmem
      · rw [List.mem_singleton.mp hmem]
        exact hmapped mapped hjob
    exact hupsert.bind fun _ => (hkept.resolve o.toNormalizeStage raw).bind fun _ =>
      .change fun _ hs => hs
  refine hstore.attempt.bind fun result => ?_
  cases result with
  | ok _ => exact .pure fun _ hs => hs
  | error exc => exact hkept.recordNormalizeFailure o.toNormalizeStage raw exc

/-- Behind the gate, the jobs stored are given ones. -/
theorem storedWithin_normalizeEligible
    (hrun : o.normalizeEligible (o.passed runId s.tables) s₁ = (.ok ⟨⟩, s')) :
    StoredWithin (s₁.stored ++ o.givenJobs runId s.tables s₁.calls) s' := by
  unfold givenJobs
  unfold normalizeEligible at hrun
  split at hrun
  · next hclient =>
    have hend := @NormalizeStage.at_normalizeSourceWithAiBatch o.toNormalizeStage _ _ _
      (o.passed runId s.tables) s₁ (NormalizeStage.At.self s₁)
    rw [hrun] at hend
    obtain ⟨_, hat⟩ := hend
    intro write hmem
    rw [if_pos hclient, ← hat.stored]
    exact hmem
  · next hclient =>
    rw [if_neg hclient]
    have hloop := Triple.forEach_inv (f := o.normalizeMapped) (E := fun _ _ => True)
      (o.passed runId s.tables) fun raw hraw => storedWithin_normalizeMapped (s₁.stored ++ (o.passed runId s.tables).filterMap fun raw =>
          (o.source.mapRawJob raw).toOption.map fun job => (raw, job)) fun job hjob => by
        refine List.mem_append_right _ (List.mem_filterMap.mpr ⟨raw, hraw, ?_⟩)
        rw [hjob]
        rfl
    have hend := hloop s₁ fun write hmem => List.mem_append_left _ hmem
    rw [hrun] at hend
    exact hend

/-- A source that ends without raising has written its decisions and jobs it gives, nothing else. -/
theorem gives_normalizeSource (h : o.normalizeSource runId s = (.ok ⟨⟩, s')) {w : StageWrite}
    (hmem : w ∈ txWrites s'.history) : w ∈ txWrites s.history ∨ SourcePass.Gives ⟨o, s⟩ runId w := by
  obtain ⟨eligible, s₁, s₂, hgated, hrun, rfl⟩ := normalizeSource_ok h
  have hclose : txWrites (close s₂).history = txWrites s₂.history := by
    change txWrites (s₂.history ++ [.committed]) = _
    rw [txWrites_append]
    exact List.append_nil _
  rw [hclose] at hmem
  cases w with
  | decided rows =>
    have hkept : KeptByStep o.env o.hasQuarantine
        (DecidedWithin (txWrites s.history ++ [.decided (o.gateDecisions runId s.tables)])) :=
      DecidedWithin.kept _
    have hdecided := (hkept.keptByAction.normalizeEligible eligible).of_run hgated.decided.writes
    rw [hrun] at hdecided
    rcases List.mem_append.mp (hdecided rows hmem) with hold | hnew
    · exact .inl hold
    · exact .inr (StageWrite.decided.inj (List.mem_singleton.mp hnew))
  | stored raw job =>
    rw [hgated.decided.passed] at hrun
    have hstored := storedWithin_normalizeEligible hrun (raw, job) (mem_stored.mpr hmem)
    rw [hgated.decided.stored, hgated.calls] at hstored
    rcases List.mem_append.mp hstored with hold | hnew
    · exact .inl (mem_stored.mp hold)
    · exact .inr hnew

/-- A run of sources that ends without raising has written what its passes give. -/
theorem gives_normalizeSources {sources : List NormalizeSource}
    {results : List SourcePipelineResult}
    (h : o.normalizeSources runId sources s = (.ok results, s')) {w : StageWrite}
    (hmem : w ∈ txWrites s'.history) :
    w ∈ txWrites s.history ∨ ∃ pass ∈ o.sourcePasses runId sources s, pass.Gives runId w := by
  induction sources generalizing s results with
  | nil =>
    cases h
    exact .inl hmem
  | cons source rest ih =>
    unfold normalizeSources at h
    obtain ⟨_, t₁, hbegun, h⟩ := Stateful.bind_ok_iff.mp h
    cases hbegun
    obtain ⟨_, t₂, hsource, h⟩ := Stateful.bind_ok_iff.mp h
    obtain ⟨_, t₃, hresult, h⟩ := Stateful.bind_ok_iff.mp h
    cases hresult
    obtain ⟨_, t₄, hrest, hpure⟩ := Stateful.bind_ok_iff.mp h
    cases hpure
    unfold sourcePasses
    dsimp only
    rw [hsource]
    rcases ih hrest with hold | ⟨pass, hpass, hgives⟩
    · rcases gives_normalizeSource hsource hold with hold | hgives
      · exact .inl hold
      · exact .inr ⟨_, List.mem_cons_self, hgives⟩
    · exact .inr ⟨pass, List.mem_cons_of_mem _ hpass, hgives⟩

/-- The passes of a run, one a source, in order. -/
theorem sources_sourcePasses (o : PipelineOrchestrator) (runId : String) (sources : List NormalizeSource) (s : StageSession) :
    (o.sourcePasses runId sources s).map SourcePass.orchestrator = sources.map o.withSource := by
  induction sources generalizing s with
  | nil => rfl
  | cons source rest ih =>
    unfold sourcePasses
    dsimp only
    rw [List.map_cons, List.map_cons, ih]

/-- A run follows its durable writes from its start to each pass and to its end. -/
theorem follows_sourcePasses (hinj : Function.Injective o.env.host.newId) {start : StageTables}
    {sources : List NormalizeSource} (hs : Follows o.env o.hasQuarantine start s) :
    ∀ pass ∈ o.sourcePasses runId sources s, Follows o.env o.hasQuarantine start pass.begun := by
  induction sources generalizing s with
  | nil =>
    intro pass hpass
    unfold sourcePasses at hpass
    exact absurd hpass List.not_mem_nil
  | cons source rest ih =>
    have hbegun := Follows.kept (q := o.hasQuarantine) hinj start s
      { s with result := { sourcePlatform := source.platform.value, status := .started } }
      (.noted rfl rfl rfl rfl) hs
    intro pass hpass
    unfold sourcePasses at hpass
    dsimp only at hpass
    rcases List.mem_cons.mp hpass with rfl | hpass
    · exact hbegun
    · exact ih (follows_normalizeSource (o := o.withSource source) hinj hbegun) pass hpass

/-- What every action and the decisions keep, a normalize run keeps. -/
theorem keeps_normalizeSources {I : StageSession → Prop}
    (hI : KeptByAction o.env o.hasQuarantine I) (hdecided : KeptByDecided I) (runId : String)
    (sources : List NormalizeSource) : Keeps I (o.normalizeSources runId sources) := by
  induction sources with
  | nil => exact .pure _
  | cons source rest ih =>
    exact (hI.changeResult _).bind fun _ =>
      (KeptByAction.normalizeSource (o := o.withSource source) hI hdecided runId).bind fun _ =>
        (Keeps.update fun _ => id).bind fun _ => ih.bind fun _ => .pure _

theorem follows_normalizeSources (runId : String) (hinj : Function.Injective o.env.host.newId)
    {start : StageTables} (sources : List NormalizeSource) :
    Keeps (Follows o.env o.hasQuarantine start) (o.normalizeSources runId sources) :=
  o.keeps_normalizeSources (Follows.kept hinj start).keptByAction (Follows.keptByDecided start) runId
    sources

/-- The decisions of a gate are on the raw jobs of its scope, in order. -/
theorem ids_gateDecisions (o : PipelineOrchestrator) (runId : String) (tables : StageTables) :
    (o.gateDecisions runId tables).map NormalizationEligibilityDecision.rawJobId
        = (o.scope runId tables).map RawJob.id ∨ o.gateDecisions runId tables = [] := by
  unfold gateDecisions
  cases o.eligibilityResolver with
  | none => exact .inr rfl
  | some text =>
    dsimp only
    cases lookupBackendIdentities text o.backend o.backendIdentityLookup
        o.requireBackendIdentityLookup (o.scope runId tables) with
    | error exc => exact .inr rfl
    | ok existing =>
      exact .inl (EligibilityResolver.ids_resolveAll
        (r := o.resolver text (o.scope runId tables) existing tables) _ _ _)

end PipelineOrchestrator

/-! ### What a run leaves behind -/

theorem mem_decidedOf {writes : List StageWrite} {row : NormalizationEligibilityDecision} :
    row ∈ decidedOf writes ↔ ∃ rows, .decided rows ∈ writes ∧ row ∈ rows := by
  unfold decidedOf
  rw [List.mem_flatMap]
  constructor
  · rintro ⟨write, hwrite, hrow⟩
    cases write with
    | decided rows => exact ⟨rows, hwrite, hrow⟩
    | stored raw job => cases hrow
  · rintro ⟨rows, hwrite, hrow⟩
    exact ⟨.decided rows, hwrite, hrow⟩

theorem mem_storedOf {writes : List StageWrite} {write : RawJob × CanonicalJobSchema} :
    write ∈ storedOf writes ↔ .stored write.1 write.2 ∈ writes := by
  unfold storedOf
  rw [List.mem_filterMap]
  constructor
  · rintro ⟨_ | _, hmem, heq⟩ <;> cases heq
    exact hmem
  · intro h
    exact ⟨_, h, rfl⟩
theorem nodup_uniqueSourcesByPlatform (sources : List NormalizeSource) :
    ((uniqueSourcesByPlatform sources).map NormalizeSource.platform).Nodup := by
  suffices h : ∀ acc : List NormalizeSource × List SourcePlatform,
      acc.1.map NormalizeSource.platform = acc.2 → acc.2.Nodup →
        ((sources.foldl (fun (acc : List NormalizeSource × List SourcePlatform) source =>
          if source.platform ∈ acc.2 then acc
          else (acc.1 ++ [source], acc.2 ++ [source.platform])) acc).1.map
            NormalizeSource.platform).Nodup from h ([], []) rfl List.nodup_nil
  induction sources with
  | nil =>
    rintro acc hplatforms hnodup
    rwa [List.foldl_nil, hplatforms]
  | cons source rest ih =>
    rintro acc hplatforms hnodup
    rw [List.foldl_cons]
    split
    · exact ih acc hplatforms hnodup
    · next hnew =>
      refine ih _ ?_ ?_
      · rw [List.map_append, hplatforms]
        rfl
      · exact List.nodup_append.mpr ⟨hnodup, List.nodup_singleton _, by
          rintro platform hplatform _ hsource rfl
          exact hnew (List.mem_singleton.mp hsource ▸ hplatform)⟩

theorem SourcePlatform.value_injective : Function.Injective SourcePlatform.value := by
  intro a b h
  cases a <;> cases b <;> first | rfl | exact absurd h (by decide)

namespace PipelineOrchestrator

variable {o : PipelineOrchestrator} {runId : String} {s : StageSession}

theorem mem_scope {tables : StageTables} {raw : RawJob} (h : raw ∈ o.scope runId tables) :
    raw ∈ tables.jobs.rawJobs.rows ∧ raw.sourcePlatform = o.source.platform.value := by
  refine ⟨?_, NormalizeStage.mem_normalizeScope h⟩
  exact (List.mem_filter.mp ((List.mem_insertionSort _).mp h)).1

/-- Sources of different platforms decide on different raw jobs, and each decides once. -/
theorem decides_once (start : StageTables) {passes : List SourcePass}
    (hsources : (passes.map fun pass => pass.orchestrator.source.platform).Nodup)
    (hraw : ∀ pass ∈ passes, pass.begun.tables.jobs.rawJobs = start.jobs.rawJobs) :
    ∀ pass ∈ passes, ∀ row ∈ pass.decisions runId, ∀ pass' ∈ passes,
      ∀ row' ∈ pass'.decisions runId, row.rawJobId = row'.rawJobId → row = row' := by
  have hscope : ∀ pass ∈ passes, ∀ row ∈ pass.decisions runId, ∃ raw ∈ start.jobs.rawJobs.rows,
      raw.id = row.rawJobId ∧ raw.sourcePlatform = pass.orchestrator.source.platform.value := by
    intro pass hpass row hrow
    rcases ids_gateDecisions pass.orchestrator runId pass.begun.tables with hids | hnone
    · obtain ⟨raw, hmem, hid⟩ := List.mem_map.mp (hids ▸ List.mem_map_of_mem hrow)
      obtain ⟨hrows, hplatform⟩ := mem_scope hmem
      rw [hraw pass hpass] at hrows
      exact ⟨raw, hrows, hid, hplatform⟩
    · rw [SourcePass.decisions, hnone] at hrow
      cases hrow
  intro pass hpass row hrow pass' hpass' row' hrow' hid
  obtain ⟨raw, hmem, hraw₁, hplatform⟩ := hscope pass hpass row hrow
  obtain ⟨raw', hmem', hraw₂, hplatform'⟩ := hscope pass' hpass' row' hrow'
  have hsame : raw = raw' := List.inj_on_of_nodup_map start.jobs.rawJobs.unique hmem hmem'
    (hraw₁.trans (hid.trans hraw₂.symm))
  rw [hsame, hplatform'] at hplatform
  have hpasses : pass = pass' := List.inj_on_of_nodup_map hsources hpass hpass'
    (SourcePlatform.value_injective hplatform.symm)
  subst hpasses
  rcases ids_gateDecisions pass.orchestrator runId pass.begun.tables with hids | hnone
  · have hnodup : ((pass.decisions runId).map NormalizationEligibilityDecision.rawJobId).Nodup := by
      rw [SourcePass.decisions, hids]
      exact NormalizeStage.nodup_normalizeScope _ _ _
    exact List.inj_on_of_nodup_map hnodup hrow hrow' hid
  · rw [SourcePass.decisions, hnone] at hrow
    cases hrow

end PipelineOrchestrator

/-- The tables a run of passes leaves behind: those of its start with the kept writes applied, each
    of them given by a pass, and at most one decision on each raw job. -/
structure Settles (isoformat : Time → String) (passes : List SourcePass) (runId : String)
    (kept : List StageWrite) (start tables : StageTables) : Prop where
  reflects : Reflects isoformat start kept tables
  given : ∀ w ∈ kept, ∃ pass ∈ passes, pass.Gives runId w
  once : ∀ pass ∈ passes, ∀ row ∈ pass.decisions runId, ∀ pass' ∈ passes,
    ∀ row' ∈ pass'.decisions runId, row.rawJobId = row'.rawJobId → row = row'

/-- A run that ends without raising settles its raw jobs; without a quarantine its table stays. -/
theorem PipelineOrchestrator.settles_normalizeSources {o : PipelineOrchestrator}
    (hinj : Function.Injective o.env.host.newId) {sources : List NormalizeSource}
    {runId platform : String} {tables : StageTables} {calls ticks : ℕ}
    {results : List SourcePipelineResult} {s' : StageSession}
    (hids : FreshRowIds o.env.host tables.jobs.normalizedJobs ticks)
    (hrun : o.normalizeSources runId (uniqueSourcesByPlatform sources)
      (.begin tables platform calls ticks) = (.ok results, s')) :
    Settles o.env.isoformat (o.sourcePasses runId (uniqueSourcesByPlatform sources)
        (.begin tables platform calls ticks)) runId s'.view.durable tables s'.committed ∧
      (o.hasQuarantine = false → s'.committed.quarantine = tables.quarantine) := by
  have hstart : Follows o.env o.hasQuarantine tables (.begin tables platform calls ticks) :=
    Fresh.follows (o := o) (s := .begin tables platform calls ticks) ⟨rfl, rfl, rfl, hids⟩ _
  have hend : Follows o.env o.hasQuarantine tables s' := by
    have h := (follows_normalizeSources runId hinj
      (uniqueSourcesByPlatform sources)).of_run hstart
    rw [hrun] at h
    exact h
  refine ⟨⟨hend.durable, fun w hw => ?_, ?_⟩, hend.quarantineCommitted⟩
  · rcases TxView.mem_of_mem_durable hw with hnone | hwritten
    · exact absurd hnone List.not_mem_nil
    · exact (gives_normalizeSources hrun hwritten).resolve_left List.not_mem_nil
  · refine decides_once tables ?_ fun pass hpass =>
      (follows_sourcePasses hinj hstart pass hpass).shown.rawJobs
    have h := congrArg (List.map fun orchestrator : PipelineOrchestrator =>
      orchestrator.source.platform) (sources_sourcePasses o runId
        (uniqueSourcesByPlatform sources) (.begin tables platform calls ticks))
    rw [List.map_map, List.map_map] at h
    exact h ▸ nodup_uniqueSourcesByPlatform sources

end Bisakerja
