import BisakerjaScraper.Sync.Partition

/-! The life of a sync event over any sequence of runs.

    The event table is meant to be a delivery ledger with the worker's budget: an event is
    attempted only while it is pending or has failed with attempts left. The worker asks for that
    when it lists candidates and never again, so an attempt that halving repeats, and the attempt
    on a job whose payload does not build, can find an event that is given up or delivered. As long
    as those attempts find their events due, every run is a run of the ledger. -/

namespace Bisakerja
open Schemes Schemes.Delivery

namespace BackendSyncWorker

variable (w : BackendSyncWorker)

/-- The budget of the ledger: the worker's, or one where a single failure is final anyway. -/
def budget : ℕ := max w.maxAttempts 1

/-! ### The condition -/

/-- The ids of the jobs attempted since the last listing. -/
def seenStep (seen : List String) : Effect → List String
  | .listed _ => []
  | .attempted _ jobs _ => jobs.map NormalizedJob.id ++ seen
  | _ => seen

/-- The ids of the jobs the current run has already attempted. -/
def seenOf (journal : List Effect) : List String := journal.foldl seenStep []

/-- Every attempt on a job that its run has attempted before, or whose payload does not build,
    finds the job's event missing or retryable. -/
def AttemptsDue (journal : List Effect) : Prop :=
  ∀ pre db jobs events post, journal = pre ++ .attempted db jobs events :: post →
    ∀ job ∈ jobs, job.id ∈ seenOf pre ∨ w.contractValid db job = false →
      ∀ event, events.find? (w.keyOf db job) = some event →
        isRetryableEvent event w.maxAttempts = true

/-- One effect of a journal against the condition. -/
def effectDue (seen : List String) : Effect → Bool
  | .attempted db jobs events => jobs.all fun job =>
    !(job.id ∈ seen || !w.contractValid db job) ||
      (events.find? (w.keyOf db job)).all fun event => isRetryableEvent event w.maxAttempts
  | _ => true

/-- The condition, checked along a journal. -/
def attemptsDueFrom (seen : List String) : List Effect → Bool
  | [] => true
  | e :: journal => w.effectDue seen e && attemptsDueFrom (seenStep seen e) journal

theorem attemptsDueFrom_iff : ∀ (journal : List Effect) (seen : List String),
    w.attemptsDueFrom seen journal = true ↔
      ∀ pre e post, journal = pre ++ e :: post → w.effectDue (pre.foldl seenStep seen) e = true
  | [], seen => by simp [attemptsDueFrom]
  | e :: journal, seen => by
    rw [attemptsDueFrom, Bool.and_eq_true, attemptsDueFrom_iff journal]
    constructor
    · rintro ⟨hhead, htail⟩ pre e' post heq
      rcases pre with _ | ⟨e'', pre⟩
      · cases heq
        exact hhead
      · rw [List.cons_append, List.cons.injEq] at heq
        obtain ⟨rfl, heq⟩ := heq
        exact htail pre e' post heq
    · intro h
      exact ⟨h [] e journal rfl, fun pre e' post heq => h (e :: pre) e' post (by rw [heq]; rfl)⟩

theorem attemptsDue_iff (journal : List Effect) :
    w.AttemptsDue journal ↔ w.attemptsDueFrom [] journal = true := by
  rw [attemptsDueFrom_iff]
  constructor
  · intro h pre e post heq
    cases e with
    | attempted db jobs events =>
      rw [effectDue, List.all_eq_true]
      intro job hjob
      have hdue := h pre db jobs events post heq job hjob
      by_cases hcase : job.id ∈ seenOf pre ∨ w.contractValid db job = false
      · rw [Bool.or_eq_true, Option.all_eq_true]
        exact Or.inr (hdue hcase)
      · rw [not_or, Bool.not_eq_false] at hcase
        have hseen : job.id ∉ pre.foldl seenStep [] := hcase.1
        simp [hseen, hcase.2]
    | listed _ => rfl
    | created _ => rfl
    | posted _ _ _ => rfl
    | recorded _ _ => rfl
    | settled _ _ => rfl
  · intro h pre db jobs events post heq job hjob hcase event hfind
    have hall := h pre _ post heq
    rw [effectDue, List.all_eq_true] at hall
    have hone := hall job hjob
    rw [Bool.or_eq_true, Option.all_eq_true] at hone
    rcases hone with hone | hone
    · have hseen : job.id ∈ pre.foldl seenStep [] ∨ w.contractValid db job = false := hcase
      rcases hseen with hseen | hseen <;> simp [hseen] at hone
    · exact hone event hfind

instance (journal : List Effect) : Decidable (w.AttemptsDue journal) :=
  decidable_of_iff _ (w.attemptsDue_iff journal).symm

theorem AttemptsDue.of_prefix {journal journal' : List Effect} (h : w.AttemptsDue journal')
    (hpre : journal <+: journal') : w.AttemptsDue journal := by
  obtain ⟨tail, rfl⟩ := hpre
  intro pre db jobs events post heq
  refine h pre db jobs events (post ++ tail) ?_
  rw [heq, List.append_assoc, List.cons_append]

/-! ### Legal effects -/

/-- What the ledger allows in the course of an attempt. -/
def EffectLegal : Effect → Prop
  | .created event => event.mark = Mark.fresh
  | .recorded before after => Step w.budget before.mark after.mark ∧ after.attemptCount ≤ w.budget
  | .posted rows events _ => ∀ row ∈ rows, ∃ m, ledger events row.1 = some m ∧
      m.Retryable w.budget ∧ m.attempts < w.budget
  | _ => False

/-- Two states with a run of the ledger between them. -/
structure Moves (s s' : SyncState) : Prop where
  evolves : Evolves w.budget (ledger s.events) (ledger s'.events)
  effects : ∃ effects, s'.journal = s.journal ++ effects ∧ ∀ e ∈ effects, w.EffectLegal e

variable {w}

theorem Moves.refl (s : SyncState) : w.Moves s s :=
  ⟨Evolves.refl _, [], by simp, by simp⟩

theorem Moves.trans {s₁ s₂ s₃ : SyncState} (h₁ : w.Moves s₁ s₂) (h₂ : w.Moves s₂ s₃) :
    w.Moves s₁ s₃ := by
  obtain ⟨effects₁, hj₁, hl₁⟩ := h₁.effects
  obtain ⟨effects₂, hj₂, hl₂⟩ := h₂.effects
  refine ⟨h₁.evolves.trans h₂.evolves, effects₁ ++ effects₂, ?_, fun e he => ?_⟩
  · rw [hj₂, hj₁, List.append_assoc]
  · exact (List.mem_append.mp he).elim (hl₁ e) (hl₂ e)

theorem budget_pos (w : BackendSyncWorker) : 1 ≤ w.budget := le_max_right _ _

/-! ### The row operations move -/

/-- Recording on a ready reference is a legal attempt. -/
theorem moves_record {s : SyncState} {f : SyncEvent → SyncEvent}
    {hf : ∀ event, (f event).key = event.key} {key : EventKey} {ticks : ℕ}
    (hready : Ready w.budget (ledger s.events key))
    (hstep : ∀ event, event.mark.Retryable w.budget → Step w.budget event.mark (f event).mark) :
    w.Moves s (s.record key f hf ticks) := by
  unfold SyncState.record
  split
  · next event hfind =>
    have hmark : ledger s.events key = some event.mark := ledger_eq_some.mpr ⟨event, hfind, rfl⟩
    obtain ⟨hretry, hin⟩ := hready _ hmark
    have hfind' : (s.events.modify key f hf).find? key = some (f event) := by
      rw [Table.find?_modify_self, hfind]
      rfl
    have hmark' : ledger (s.events.modify key f hf) key = some (f event).mark :=
      ledger_eq_some.mpr ⟨f event, hfind', rfl⟩
    refine ⟨Evolves.single (k := key) (fun k' h => ledger_modify_of_ne f hf s.events h) hmark'
      (Relation.ReflTransGen.single ?_), [_], rfl, ?_⟩
    · rw [hmark]
      exact hstep event hretry
    · intro e he
      rw [List.mem_singleton] at he
      subst he
      exact ⟨hstep event hretry, ((hstep event hretry).inBudget w.budget_pos hin).attempts_le⟩
  · exact Moves.refl s

theorem moves_recordFailure {host : Host} {failure : SyncFailure} {m : ℕ} (hm : m ≤ w.budget)
    {s : SyncState} {key : EventKey} (hready : Ready w.budget (ledger s.events key)) :
    w.Moves s (recordFailure host failure m s key) := by
  refine moves_record hready fun event hretry => ?_
  rw [SyncEvent.fail_mark]
  exact Step.fail hretry hm

theorem moves_recordSuccess {host : Host} {result : SyncSuccess} {s : SyncState} {key : EventKey}
    (hready : Ready w.budget (ledger s.events key)) :
    w.Moves s (recordSuccess host result s key) :=
  moves_record hready fun _ hretry => Step.succeed hretry

/-- `prepare_event` makes no attempt: at most it starts a delivery. -/
theorem moves_prepareEvent {host : Host} {hash : StableHash} (job : NormalizedJob)
    (runId ph : Option String) (s : SyncState) :
    w.Moves s (prepareEvent host hash job runId ph s).2 := by
  refine ⟨Evolves.single (k := eventKey hash job ph)
    (fun k h => ledger_prepareEvent_of_ne host hash s job runId ph h)
    (ledger_prepareEvent host hash s job runId ph) Relation.ReflTransGen.refl, ?_⟩
  unfold prepareEvent
  dsimp only
  split
  · exact ⟨[], by simp, by simp⟩
  · exact ⟨[_], rfl, by simp [EffectLegal, newEvent_mark]⟩

theorem failureMaxAttempts_le (exc : BackendSyncErrorInfo) : w.failureMaxAttempts exc ≤ w.budget := by
  unfold failureMaxAttempts budget
  split <;> simp

theorem moves_recordOne (answer : Except BackendSyncError BackendSyncResult) {s : SyncState}
    {key : EventKey} (hready : Ready w.budget (ledger s.events key)) :
    w.Moves s (w.recordOne answer s key) := by
  rcases answer with (exc | exc) | result
  · exact moves_recordFailure (failureMaxAttempts_le exc) hready
  · exact moves_recordFailure (le_max_left _ _) hready
  · exact moves_recordSuccess hready

theorem moves_prepareJob {db : JobTables} {runId : Option String} {job : NormalizedJob}
    {s : SyncState} (hready : Ready w.budget (ledger s.events (w.keyOf db job))) :
    w.Moves s (w.prepareJob db runId job s).2 := by
  unfold prepareJob
  split
  · next exc hp =>
    have hkey : w.keyOf db job = eventKey w.hash job none := by simp [keyOf, payloadHash, hp]
    refine (moves_prepareEvent job runId none s).trans
      (moves_recordFailure w.budget_pos fun m hm => ?_)
    rw [prepareEvent_fst, ledger_prepareEvent, ← hkey] at hm
    cases hm
    exact hready.getD
  · exact moves_prepareEvent job runId _ s

/-! ### The attempt moves -/

/-- The jobs of a chunk are ready. -/
def ChunkReady (w : BackendSyncWorker) (db : JobTables) (jobs : List NormalizedJob)
    (s : SyncState) : Prop :=
  ∀ job ∈ jobs, Ready w.budget (ledger s.events (w.keyOf db job))

variable {db : JobTables} {jobs : List NormalizedJob} {s : SyncState}

theorem moves_preparedState (runId : Option String) (hnodup : (jobs.map NormalizedJob.id).Nodup)
    (hready : w.ChunkReady db jobs s) :
    w.Moves (s.log (.attempted db jobs s.events)) (w.preparedState db runId jobs s) :=
  sweep_rel (w.keyOf db) (fun s job => (w.prepareJob db runId job s).2) w.Moves
    (fun s job => Ready w.budget (ledger s.events (w.keyOf db job))) Moves.refl (fun _ _ _ => Moves.trans)
    (fun _ _ => moves_prepareJob)
    (fun s i j hne h => by rwa [(w.prepareJob_touches db runId).other s i _ hne])
    jobs _ (w.nodup_keyOf hnodup) hready

/-- Past the preparing loop, the rows to post are all there and ready. -/
theorem ready_preparedState (runId : Option String) (hnodup : (jobs.map NormalizedJob.id).Nodup)
    (hready : w.ChunkReady db jobs s) :
    ∀ key ∈ (jobs.filterMap (w.rowOf db)).map Prod.fst,
      ∃ m, ledger (w.preparedState db runId jobs s).events key = some m ∧
        m.Retryable w.budget ∧ m.InBudget w.budget := by
  intro key hkey
  rw [w.map_fst_rowOf] at hkey
  obtain ⟨job, hjob, rfl⟩ := List.mem_map.mp hkey
  rw [List.mem_filter] at hjob
  have hmark := w.preparedState_marks db runId s hnodup hjob.1
  simp only [prepareMark, hjob.2, if_true] at hmark
  exact ⟨_, hmark, (hready job hjob.1).getD⟩

theorem moves_postedState {chunkId : String} {rows : List (EventKey × Json)} {s : SyncState}
    (hrows : ∀ key ∈ rows.map Prod.fst, ∃ m, ledger s.events key = some m ∧
      m.Retryable w.budget ∧ m.InBudget w.budget) :
    w.Moves s (w.postedState chunkId rows s) := by
  have hled := w.postState_ledger chunkId rows s
  have hjournal : (w.postState chunkId rows s).journal = s.journal :=
    foldl_unchanged (f := SyncState.journal)
      (fun s key => journal_attachChunkMetadata s _ _ _ key) _ s
  refine ⟨?_, [.posted rows (w.postState chunkId rows s).events (w.chunkAnswer chunkId rows s)],
    ?_, ?_⟩
  · change Evolves w.budget (ledger s.events) (ledger (w.postState chunkId rows s).events)
    rw [hled]
    exact Evolves.refl _
  · simp [postedState, SyncState.log, hjournal]
  · intro e he
    rw [List.mem_singleton] at he
    subst he
    intro row hrow
    obtain ⟨m, hm, hretry, hin⟩ := hrows row.1 (List.mem_map_of_mem hrow)
    exact ⟨m, hled ▸ hm, hretry, Mark.attempts_lt_of_retryable w.budget_pos hretry hin⟩

/-- An attempt on a ready chunk is a run of the ledger. -/
theorem moves_attemptOnce (p : SyncParams) (chunkIndex : ℕ) (hne : jobs ≠ [])
    (hnodup : (jobs.map NormalizedJob.id).Nodup) (hready : w.ChunkReady db jobs s) :
    w.Moves (s.log (.attempted db jobs s.events)) (w.attemptOnce db p chunkIndex jobs s).2 := by
  have hprepared := moves_preparedState p.scrapeRunId hnodup hready
  have hrows := ready_preparedState p.scrapeRunId hnodup hready
  rw [attemptOnce_snd w db p chunkIndex hne]
  split
  · exact ⟨hprepared.evolves, hprepared.effects⟩
  · set rows := jobs.filterMap (w.rowOf db) with hrowsdef
    set s₁ := w.preparedState db p.scrapeRunId jobs s with hs₁
    have hposted : w.Moves s₁ (w.postedState (p.chunkId chunkIndex) rows s₁) :=
      moves_postedState hrows
    have hkeys : ((rows.map Prod.fst).map id).Nodup := by
      rw [List.map_id, w.map_fst_rowOf]
      exact (w.nodup_keyOf hnodup).sublist (List.filter_sublist.map _)
    have hrecorded : w.Moves (w.postedState (p.chunkId chunkIndex) rows s₁)
        ((rows.map Prod.fst).foldl (w.recordOne (w.chunkAnswer (p.chunkId chunkIndex) rows s₁))
          (w.postedState (p.chunkId chunkIndex) rows s₁)) := by
      refine sweep_rel id (w.recordOne (w.chunkAnswer (p.chunkId chunkIndex) rows s₁)) w.Moves
        (fun s key => Ready w.budget (ledger s.events key)) Moves.refl (fun _ _ _ => Moves.trans)
        (fun _ _ => moves_recordOne _) (fun s i j hne h => ?_) _ _ hkeys fun key hkey => ?_
      · have hother := (w.recordOne_touches
          (w.chunkAnswer (p.chunkId chunkIndex) rows s₁)).other s i j hne
        rw [hother]
        exact h
      · obtain ⟨m, hm, hr⟩ := hrows key hkey
        have hled : ledger (w.postedState (p.chunkId chunkIndex) rows s₁).events
          = ledger s₁.events := w.postState_ledger (p.chunkId chunkIndex) rows s₁
        rw [hled]
        intro m' hm'
        rw [hm] at hm'
        cases hm'
        exact hr
    have hall := (hprepared.trans hposted).trans hrecorded
    exact ⟨hall.evolves, hall.effects⟩

/-! ### What the journal remembers of a run -/

theorem seenStep_of_legal {e : Effect} (h : w.EffectLegal e) (seen : List String) :
    seenStep seen e = seen := by
  cases e with
  | listed _ => exact h.elim
  | attempted _ _ _ => exact h.elim
  | created _ => rfl
  | posted _ _ _ => rfl
  | recorded _ _ => rfl
  | settled _ _ => rfl

theorem seenOf_append_legal {journal effects : List Effect}
    (h : ∀ e ∈ effects, w.EffectLegal e) : seenOf (journal ++ effects) = seenOf journal := by
  unfold seenOf
  rw [List.foldl_append]
  generalize journal.foldl seenStep [] = seen
  induction effects with
  | nil => rfl
  | cons e effects ih =>
    rw [List.foldl_cons, seenStep_of_legal (h e List.mem_cons_self)]
    exact ih fun e' he' => h e' (List.mem_cons_of_mem e he')

theorem seenOf_append_attempted (journal : List Effect) (db : JobTables)
    (jobs : List NormalizedJob) (events : SyncEvents) :
    seenOf (journal ++ [.attempted db jobs events])
      = jobs.map NormalizedJob.id ++ seenOf journal := by
  simp [seenOf, seenStep]

theorem seenOf_append_settled (journal : List Effect) (jobs : List NormalizedJob)
    (r : ChunkSyncResult) : seenOf (journal ++ [.settled jobs r]) = seenOf journal := by
  simp [seenOf, seenStep]

/-! ### One run -/

/-- The effects of a journal that touch events are legal. -/
def JournalLegal (w : BackendSyncWorker) (journal : List Effect) : Prop :=
  ∀ e ∈ journal, (∃ jobs, e = .listed jobs) ∨ (∃ db jobs events, e = .attempted db jobs events) ∨
    (∃ jobs r, e = .settled jobs r) ∨ w.EffectLegal e

/-- A session that has run as a ledger since the ledger `l`. -/
structure Lawful (w : BackendSyncWorker) (l : Ledger EventKey) (s : SyncState) : Prop where
  evolves : Evolves w.budget l (ledger s.events)
  legal : w.JournalLegal s.journal
  inBudget : ∀ k m, ledger s.events k = some m → m.InBudget w.budget

theorem Lawful.moves {l : Ledger EventKey} {s s' : SyncState} (h : w.Lawful l s)
    (hmoves : w.Moves s s') : w.Lawful l s' := by
  obtain ⟨effects, hjournal, hlegal⟩ := hmoves.effects
  refine ⟨h.evolves.trans hmoves.evolves, fun e he => ?_,
    hmoves.evolves.inBudget w.budget_pos h.inBudget⟩
  rw [hjournal] at he
  rcases List.mem_append.mp he with he | he
  · exact h.legal e he
  · exact Or.inr (Or.inr (Or.inr (hlegal e he)))

theorem Lawful.log {l : Ledger EventKey} {s : SyncState} {e : Effect} (h : w.Lawful l s)
    (he : (∃ jobs, e = .listed jobs) ∨ (∃ db jobs events, e = .attempted db jobs events) ∨
      ∃ jobs r, e = .settled jobs r) : w.Lawful l (s.log e) := by
  refine ⟨h.evolves, fun e' he' => ?_, h.inBudget⟩
  rcases List.mem_append.mp he' with he' | he'
  · exact h.legal e' he'
  · rw [List.mem_singleton] at he'
    subst he'
    exact he.imp_right (Or.imp_right Or.inl)

/-- The invariant of a run: given that the attempts so far were due, the session is lawful and the
    events of the valid jobs not yet attempted are still due. -/
structure RunInvariant (w : BackendSyncWorker) (l : Ledger EventKey) (db : JobTables)
    (rest : List NormalizedJob) (s : SyncState) : Prop where
  nodup : (rest.map NormalizedJob.id).Nodup
  lawful : w.AttemptsDue s.journal → w.Lawful l s
  due : w.AttemptsDue s.journal → ∀ job ∈ rest, w.contractValid db job = true →
    job.id ∉ seenOf s.journal → Due w.budget (ledger s.events (w.keyOf db job))

theorem due_of_isRetryable {events : SyncEvents} {key : EventKey}
    (h : ∀ event, events.find? key = some event → isRetryableEvent event w.maxAttempts = true) :
    Due w.budget (ledger events key) := by
  intro m hm
  obtain ⟨event, hfind, rfl⟩ := ledger_eq_some.mp hm
  exact (isRetryableEvent_iff.mp (h event hfind)).mono (le_max_left _ _)

/-- When the attempt itself is due, it moves and leaves the untouched jobs due. -/
theorem RunInvariant.attempt {l : Ledger EventKey} {p : SyncParams} {rest : List NormalizedJob}
    {s : SyncState} (h : w.RunInvariant l db rest s) (chunkIndex n : ℕ) (hne : rest.take n ≠ []) :
    w.RunInvariant l db rest (w.attemptOnce db p chunkIndex (rest.take n) s).2 := by
  have hstarts := w.attemptOnce_journal db p chunkIndex s hne
  have hnodup : ((rest.take n).map NormalizedJob.id).Nodup :=
    h.nodup.sublist ((List.take_sublist n rest).map _)
  -- the guard on the longer journal covers this attempt and everything before it
  have hguard : w.AttemptsDue (w.attemptOnce db p chunkIndex (rest.take n) s).2.journal →
      w.Lawful l s ∧ w.ChunkReady db (rest.take n) s := by
    intro hdue
    have hbefore := hdue.of_prefix w ((List.prefix_append _ _).trans hstarts)
    have hnow := hdue.of_prefix w hstarts
    have hlawful := h.lawful hbefore
    refine ⟨hlawful, fun job hjob m hm => ⟨?_, hlawful.inBudget _ m hm⟩⟩
    by_cases hcase : job.id ∈ seenOf s.journal ∨ w.contractValid db job = false
    · exact due_of_isRetryable (hnow s.journal db (rest.take n) s.events [] rfl job hjob hcase) m hm
    · rw [not_or, Bool.not_eq_false] at hcase
      exact h.due hbefore job (List.mem_of_mem_take hjob) hcase.2 hcase.1 m hm
  refine ⟨h.nodup, fun hdue => ?_, fun hdue job hjob hvalid hunseen => ?_⟩
  · obtain ⟨hlawful, hready⟩ := hguard hdue
    exact (hlawful.log (Or.inr (Or.inl ⟨db, rest.take n, s.events, rfl⟩))).moves
      (moves_attemptOnce p chunkIndex hne hnodup hready)
  · obtain ⟨-, hready⟩ := hguard hdue
    obtain ⟨effects, hjournal, hlegal⟩ :=
      (moves_attemptOnce p chunkIndex hne hnodup hready).effects
    rw [hjournal, seenOf_append_legal hlegal, SyncState.log, seenOf_append_attempted,
      List.mem_append, not_or] at hunseen
    have hbefore := hdue.of_prefix w ((List.prefix_append _ _).trans hstarts)
    have hkey : w.keyOf db job ∉ (rest.take n).map (w.keyOf db) := by
      intro hmem
      obtain ⟨job', hjob', hkey⟩ := List.mem_map.mp hmem
      exact hunseen.1 (List.mem_map.mpr ⟨job', hjob', congrArg EventKey.normalizedJobId hkey⟩)
    obtain ⟨tick, hout⟩ := w.attemptOnce_outcome db p chunkIndex s hne hnodup
    rw [hout.frame _ hkey]
    exact h.due hbefore job hjob hvalid hunseen.2

theorem runInvariant_loop (l : Ledger EventKey) (p : SyncParams) :
    w.LoopInvariant db p fun rest _ s => w.RunInvariant l db rest s where
  retry rest g g' s chunkIndex hrest hpos _ hinv _ _ _ _ := by
    have hne : rest.take g.chunkSize ≠ [] := fun h =>
      (List.take_eq_nil_iff.mp h).elim (by omega) hrest
    exact hinv.attempt chunkIndex g.chunkSize hne
  settle rest g g' s chunkIndex r hrest hpos _ hinv _ _ _ _ _ := by
    have hne : rest.take g.chunkSize ≠ [] := fun h =>
      (List.take_eq_nil_iff.mp h).elim (by omega) hrest
    have hafter := hinv.attempt (p := p) chunkIndex g.chunkSize hne
    refine ⟨hafter.nodup.sublist ((List.drop_sublist _ _).map _), fun hdue => ?_,
      fun hdue job hjob hvalid hunseen => ?_⟩
    · have hbefore := hdue.of_prefix w (List.prefix_append _ _)
      exact (hafter.lawful hbefore).log (Or.inr (Or.inr ⟨_, _, rfl⟩))
    · have hbefore := hdue.of_prefix w (List.prefix_append _ _)
      rw [SyncState.log, seenOf_append_settled] at hunseen
      exact hafter.due hbefore job (List.mem_of_mem_drop hjob) hvalid hunseen

/-- A listed job whose payload builds has its event missing or retryable. -/
theorem due_of_candidate {p : SyncParams} {events : SyncEvents} {job : NormalizedJob}
    (hjob : job ∈ w.listBackendPayloadCandidates db p events)
    (hvalid : w.contractValid db job = true) :
    Due w.budget (ledger events (w.keyOf db job)) := by
  have hmem := (collectUpTo_sublist (w.isCandidate db events) p.limit _).subset hjob
  have hcand := (List.mem_filter.mp hmem).2
  refine due_of_isRetryable fun event hfind => ?_
  cases hp : w.payloadOf db job with
  | error exc => simp [contractValid, hp] at hvalid
  | ok payload =>
    have hkey : w.keyOf db job = eventKey w.hash job (some (w.hash.digest payload)) := by
      simp [keyOf, payloadHash, hp]
    rw [hkey] at hfind
    simpa [isCandidate, hp, findEvent, hfind] using hcand

/-! ### Any sequence of runs -/

theorem lawful_runOnce {l : Ledger EventKey} {s : SyncState} (run : SyncRun)
    (h : w.AttemptsDue s.journal → w.Lawful l s) :
    w.AttemptsDue (w.runOnce s run).journal → w.Lawful l (w.runOnce s run) := by
  set candidates := w.listBackendPayloadCandidates run.db run.params s.events with hcandidates
  have hstarts : s.journal <+: (s.log (.listed candidates)).journal := List.prefix_append _ _
  have hlisted : w.AttemptsDue (s.log (.listed candidates)).journal →
      w.Lawful l (s.log (.listed candidates)) :=
    fun hdue => (h (hdue.of_prefix w hstarts)).log (Or.inl ⟨candidates, rfl⟩)
  have hstart : w.RunInvariant l run.db candidates (s.log (.listed candidates)) :=
    ⟨w.nodup_candidates run.db run.params s.events, hlisted,
      fun _ job hjob hvalid _ => due_of_candidate hjob hvalid⟩
  rcases w.runOnce_cases s run (runInvariant_loop l run.params) fun _ _ _ _ => hstart
    with heq | ⟨g, hend⟩
  · rw [heq]
    exact hlisted
  · exact hend.lawful

theorem lawful_runHistory {l : Ledger EventKey} : ∀ (runs : List SyncRun) (s : SyncState),
    (w.AttemptsDue s.journal → w.Lawful l s) →
      w.AttemptsDue (w.runHistory runs s).journal → w.Lawful l (w.runHistory runs s)
  | [], _, h => h
  | run :: runs, s, h => lawful_runHistory runs (w.runOnce s run) (lawful_runOnce run h)

theorem lawful_initial (ticks : ℕ) :
    w.Lawful (ledger (SyncState.initial ticks).events) (SyncState.initial ticks) :=
  ⟨Evolves.refl _, by simp [JournalLegal, SyncState.initial],
    fun k m h => by simp [ledger, SyncState.initial] at h⟩

/-- Along any sequence of runs whose attempts were due, the session is lawful. -/
theorem lawful_of_attemptsDue {runs : List SyncRun} {ticks : ℕ}
    (hdue : w.AttemptsDue (w.runHistory runs (.initial ticks)).journal) :
    w.Lawful (ledger (SyncState.initial ticks).events) (w.runHistory runs (.initial ticks)) :=
  lawful_runHistory runs _ (fun _ => lawful_initial ticks) hdue

theorem Lawful.recorded {l : Ledger EventKey} {s : SyncState} (h : w.Lawful l s)
    {before after : SyncEvent} (he : .recorded before after ∈ s.journal) :
    Step w.budget before.mark after.mark ∧ after.attemptCount ≤ w.budget := by
  rcases h.legal _ he with ⟨_, h⟩ | ⟨_, _, _, h⟩ | ⟨_, _, h⟩ | h
  · cases h
  · cases h
  · cases h
  · exact h

theorem Lawful.posted {l : Ledger EventKey} {s : SyncState} (h : w.Lawful l s)
    {rows : List (EventKey × Json)} {events : SyncEvents}
    {answer : Except BackendSyncError BackendSyncResult}
    (he : .posted rows events answer ∈ s.journal) : ∀ row ∈ rows, ∃ m,
      ledger events row.1 = some m ∧ m.Retryable w.budget ∧ m.attempts < w.budget := by
  rcases h.legal _ he with ⟨_, h⟩ | ⟨_, _, _, h⟩ | ⟨_, _, h⟩ | h
  · cases h
  · cases h
  · cases h
  · exact h

/-! ### The retry budget -/

/-- CORRECT (given that every attempt is due): over any sequence of runs no event is recorded
    with, or left with, more than `max_attempts` attempts, and no payload is posted whose event
    has used them up. -/
theorem attempts_within_budget (w : BackendSyncWorker) (runs : List SyncRun) (ticks : ℕ)
    (hm : 1 ≤ w.maxAttempts)
    (hdue : w.AttemptsDue (w.runHistory runs (.initial ticks)).journal) :
    (∀ before after, .recorded before after ∈ (w.runHistory runs (.initial ticks)).journal →
      after.attemptCount ≤ w.maxAttempts) ∧
    (∀ event ∈ (w.runHistory runs (.initial ticks)).events.rows,
      event.attemptCount ≤ w.maxAttempts) ∧
    (∀ rows events answer,
      .posted rows events answer ∈ (w.runHistory runs (.initial ticks)).journal →
      ∀ row ∈ rows, ∀ event, events.find? row.1 = some event →
        event.attemptCount < w.maxAttempts) := by
  have hbudget : w.budget = w.maxAttempts := max_eq_left hm
  have hlawful := lawful_of_attemptsDue hdue
  refine ⟨fun before after he => ?_, fun event hevent => ?_, fun rows events answer he row hrow
    event hfind => ?_⟩
  · rw [← hbudget]
    exact (hlawful.recorded he).2
  · have hmark : ledger (w.runHistory runs (.initial ticks)).events event.key
        = some event.mark := ledger_eq_some.mpr ⟨event, Table.find?_of_mem hevent, rfl⟩
    rw [← hbudget]
    exact (hlawful.inBudget _ _ hmark).attempts_le
  · obtain ⟨m, hm', -, hlt⟩ := hlawful.posted he row hrow
    obtain ⟨event', hfind', rfl⟩ := ledger_eq_some.mp hm'
    rw [hfind] at hfind'
    cases hfind'
    rw [← hbudget]
    exact hlt

/-- The condition holds where one halving is enough: a failed pair goes through one by one. -/
theorem attempts_within_budget_twoJobs :
    let w := plainWorker 3 downForMany
    let s := w.runHistory [⟨twoJobs, { scrapeRunId := none, limit := 10 }⟩] (.initial 0)
    1 ≤ w.maxAttempts ∧ w.AttemptsDue s.journal ∧
      (∀ before after, .recorded before after ∈ s.journal → after.attemptCount ≤ w.maxAttempts) ∧
      (∀ event ∈ s.events.rows, event.attemptCount ≤ w.maxAttempts) ∧
      (∀ rows events answer, .posted rows events answer ∈ s.journal →
        ∀ row ∈ rows, ∀ event, events.find? row.1 = some event →
          event.attemptCount < w.maxAttempts) := by
  have hdue : (plainWorker 3 downForMany).AttemptsDue ((plainWorker 3 downForMany).runHistory
      [⟨twoJobs, { scrapeRunId := none, limit := 10 }⟩] (.initial 0)).journal := by
    decide +kernel
  exact ⟨by decide, hdue, attempts_within_budget _ _ 0 (by decide) hdue⟩

/-- Five jobs that build. -/
def fiveJobs : JobTables :=
  jobTables [plainJob "a" "Ac" 0, plainJob "b" "Ac" 0, plainJob "c" "Ac" 0,
    plainJob "d" "Ac" 0, plainJob "e" "Ac" 0] (by decide)

/-- The session after one run over five jobs with the default budget of three, while the backend
    is down for posts of more than one job: the chunk shrinks 5, 3, 2, 1. -/
def halvedRun : SyncState :=
  (plainWorker 3 downForMany).runHistory [⟨fiveJobs, { scrapeRunId := none, limit := 10 }⟩]
    (.initial 0)

/-- The effect posts an event that has failed three times. -/
def Effect.postsSpent : Effect → Bool
  | .posted rows events _ => rows.any fun row =>
    (events.find? row.1).any fun event => event.attemptCount = 3
  | _ => false

/-- The first of the five jobs is attempted four times, the last time after its third failure. -/
theorem attempts_exceed_budget :
    (∃ event ∈ halvedRun.events.rows, 3 < event.attemptCount) ∧
      ∃ rows events answer, .posted rows events answer ∈ halvedRun.journal ∧
        ∃ row ∈ rows, ∃ event, events.find? row.1 = some event ∧ event.attemptCount = 3 := by
  have hover : (halvedRun.events.rows.any fun event => 3 < event.attemptCount) = true := by
    decide +kernel
  have hpost : halvedRun.journal.any Effect.postsSpent = true := by decide +kernel
  refine ⟨by simpa using hover, ?_⟩
  obtain ⟨e, he, hmatch⟩ := List.any_eq_true.mp hpost
  cases e with
  | posted rows events answer =>
    obtain ⟨row, hrow, hevent⟩ := List.any_eq_true.mp hmatch
    obtain ⟨event, hfind, hcount⟩ := (Option.any_eq_true _ _).mp hevent
    exact ⟨rows, events, answer, he, row, hrow, event, hfind, by simpa using hcount⟩
  | listed _ => cases hmatch
  | attempted _ _ _ => cases hmatch
  | created _ => cases hmatch
  | recorded _ _ => cases hmatch
  | settled _ _ => cases hmatch

/-! ### Terminal states -/

/-- CORRECT (given that every attempt is due): an event changes status only from pending or
    failed, and an event that is sent or dead-lettered after some runs has the same status and
    attempt count after any further runs. -/
theorem terminal_events_stay (w : BackendSyncWorker) (earlier later : List SyncRun) (ticks : ℕ)
    (hdue : w.AttemptsDue (w.runHistory (earlier ++ later) (.initial ticks)).journal) :
    (∀ before after,
      .recorded before after ∈ (w.runHistory (earlier ++ later) (.initial ticks)).journal →
      (before.status = .pending ∨ before.status = .failed) ∧
        (after.status = .sent ∨ after.status = .failed ∨ after.status = .deadLetter)) ∧
    ∀ key event, (w.runHistory earlier (.initial ticks)).events.find? key = some event →
      event.status = .sent ∨ event.status = .deadLetter →
      ∃ event', (w.runHistory (earlier ++ later) (.initial ticks)).events.find? key = some event' ∧
        event'.status = event.status ∧ event'.attemptCount = event.attemptCount := by
  refine ⟨fun before after he => ?_, fun key event hfind hterm => ?_⟩
  · have hstatuses := ((lawful_of_attemptsDue hdue).recorded he).1.statuses
    cases hb : before.status <;> cases ha : after.status <;>
      simp [SyncEvent.mark, SyncEventStatus.delivery, hb, ha] at hstatuses ⊢
  · have happend : w.runHistory (earlier ++ later) (.initial ticks)
        = w.runHistory later (w.runHistory earlier (.initial ticks)) := List.foldl_append
    rw [happend] at hdue ⊢
    set s := w.runHistory earlier (.initial ticks) with hs
    have hstart : w.AttemptsDue s.journal → w.Lawful (ledger s.events) s := by
      intro h
      have hlawful := lawful_of_attemptsDue (hs ▸ h)
      exact ⟨Evolves.refl _, hlawful.legal, hlawful.inBudget⟩
    have hend := lawful_runHistory later s hstart hdue
    have hmark : ledger s.events key = some event.mark := ledger_eq_some.mpr ⟨event, hfind, rfl⟩
    obtain ⟨event', hfind', hmark'⟩ := ledger_eq_some.mp
      (hend.evolves.terminal hmark (SyncEvent.terminal_mark.mpr hterm))
    refine ⟨event', hfind', ?_, congrArg Mark.attempts hmark'⟩
    have hstatus := congrArg Mark.status hmark'
    simp only [SyncEvent.mark] at hstatus
    cases h : event.status <;> cases h' : event'.status <;>
      simp [SyncEventStatus.delivery, h, h'] at hstatus ⊢

/-- Two runs: the second finds both events delivered and lists nothing. -/
theorem terminal_events_stay_twoJobs :
    let w := plainWorker 3 downForMany
    let run : SyncRun := ⟨twoJobs, { scrapeRunId := none, limit := 10 }⟩
    let s := w.runHistory ([run] ++ [run]) (.initial 0)
    w.AttemptsDue s.journal ∧
      (∀ before after, .recorded before after ∈ s.journal →
        (before.status = .pending ∨ before.status = .failed) ∧
          (after.status = .sent ∨ after.status = .failed ∨ after.status = .deadLetter)) ∧
      ∀ key event, (w.runHistory [run] (.initial 0)).events.find? key = some event →
        event.status = .sent ∨ event.status = .deadLetter →
        ∃ event', s.events.find? key = some event' ∧ event'.status = event.status ∧
          event'.attemptCount = event.attemptCount := by
  have hdue : (plainWorker 3 downForMany).AttemptsDue ((plainWorker 3 downForMany).runHistory
      ([⟨twoJobs, { scrapeRunId := none, limit := 10 }⟩] ++
        [⟨twoJobs, { scrapeRunId := none, limit := 10 }⟩]) (.initial 0)).journal := by
    decide +kernel
  exact ⟨hdue, terminal_events_stay _ _ _ 0 hdue⟩

/-- In the run over five jobs a dead-lettered event is recorded as sent. -/
theorem dead_letter_becomes_sent :
    ∃ before after, .recorded before after ∈ halvedRun.journal ∧
      before.status = .deadLetter ∧ after.status = .sent := by
  have hrecorded : (halvedRun.journal.any fun
      | .recorded before after => before.status = .deadLetter && after.status = .sent
      | _ => false) = true := by
    decide +kernel
  obtain ⟨e, he, hmatch⟩ := List.any_eq_true.mp hrecorded
  cases e with
  | recorded before after =>
    simp only [Bool.and_eq_true, decide_eq_true_eq] at hmatch
    exact ⟨before, after, he, hmatch⟩
  | listed _ => cases hmatch
  | attempted _ _ _ => cases hmatch
  | created _ => cases hmatch
  | posted _ _ _ => cases hmatch
  | settled _ _ => cases hmatch

end BackendSyncWorker

end Bisakerja
