import BisakerjaScraper.Pipeline.RunStatus
import BisakerjaScraper.Schemes.Sections

/-! The session the sources of a scrape run share.

    The tasks of a run write to one session, and a source that fails rolls all of it back. But a
    task gives way only while it fetches: it writes and then commits or rolls back in one go. So the
    session has nothing pending whenever a task gives way, the run goes on as if every source had a
    session of its own, and a rollback discards the rows of its own source alone. -/

namespace Bisakerja
open Schemes

/-- The state of a run with the session its sources share: the tables as the open transaction shows
    them, those that are committed, and what each source did to the transaction. -/
structure SharedState (n : ℕ) where
  tasks : Fin n → SourceTask
  tables : JobTables
  committed : JobTables
  ticks : ℕ
  history : List (Fin n × TxEvent (String × String)) := []
  challenge : ChallengeState

namespace SharedState

variable {n : ℕ} (s : SharedState n)

/-- Moves one task. -/
def setTask (i : Fin n) (task : SourceTask) : SharedState n :=
  { s with tasks := Function.update s.tasks i task }

/-- The state without the transaction. -/
def isolated : ScrapeState n where
  tasks := s.tasks
  tables := s.committed
  ticks := s.ticks
  challenge := s.challenge

/-- The rows of the session that are durable and those that are pending, each with its source. -/
def view : TxView (Fin n × (String × String)) := TxView.replayTasks {} s.history

end SharedState

namespace ScrapeSource

variable (source : ScrapeSource) (env : ScrapeEnv)

/-- The jobs a source writes after its fetch, in order. -/
def fetchedJobs (outcome : Except PyException PaginatedFetchResult) : List LiveRawJob :=
  match outcome with
  | .error _ => []
  | .ok fetched =>
    match source.live.fetchRawJobs env.dates fetched with
    | .error _ => []
    | .ok jobs => orderFetchedRawJobs source.live.recencyMode jobs

/-- Writes that end in a commit or a rollback, and are those of all fetched jobs if the source
    completes. -/
structure LeavesSection (outcome : Except PyException PaginatedFetchResult) (s : ScrapeSession)
    (writes : List (String × String)) (commits : Bool) : Prop where
  settled : s.tables = s.committed
  history : s.history = writes.map .wrote ++ [if commits then .committed else .rolledBack]
  completed : s.result.status = .completed → commits = true ∧
    writes = (source.fetchedJobs env outcome).map LiveRawJob.identity

/-- Some writes of a source, and none committed. -/
def Unsettled (s : ScrapeSession) : Prop :=
  ∃ writes : List (String × String), s.history = writes.map .wrote

variable {source env}

theorem triple_storeJob_history (written : List LiveRawJob) (job : LiveRawJob) :
    Triple (fun s => s.history = (written.map LiveRawJob.identity).map .wrote)
      (source.storeJob env job)
      (fun _ s => s.history = ((written ++ [job]).map LiveRawJob.identity).map .wrote)
      (fun _ => Unsettled) := by
  refine ((triple_raiseIfSome _).weaken_error fun _ _ hs => ⟨_, hs.1⟩).bind fun _ => .change ?_
  rintro s ⟨hs, -⟩
  change s.history ++ [.wrote job.identity] = _
  rw [hs, List.map_append, List.map_append]
  rfl

theorem section_storeAll (ordered : List LiveRawJob) (fetched : PaginatedFetchResult) :
    Triple (fun s => s.history = []) (source.storeAll env ordered fetched)
      (fun _ s => s.tables = s.committed ∧
        s.history = (ordered.map LiveRawJob.identity).map .wrote ++ [.committed])
      (fun _ => Unsettled) := by
  have hloop := Triple.forEach (f := source.storeJob env)
    (I := fun written s => s.history = (written.map LiveRawJob.identity).map .wrote)
    (E := fun _ => Unsettled) ordered fun written job _ _ => triple_storeJob_history written job
  refine Triple.bind (.change fun s hs => hs) fun _ => hloop.bind fun _ =>
    ((triple_raiseIfSome _).weaken_error fun _ _ hs => ⟨_, hs.1⟩).bind fun _ => .change ?_
  rintro s ⟨hs, -⟩
  refine ⟨rfl, ?_⟩
  change s.history ++ [.committed] = _
  rw [hs]

theorem section_scrapeBody (outcome : Except PyException PaginatedFetchResult) :
    Triple (fun s => s.history = []) (source.scrapeBody env outcome)
      (fun _ s => ∃ writes, source.LeavesSection env outcome s writes true)
      (fun _ => Unsettled) := by
  unfold Unsettled
  cases outcome with
  | error exc => exact fun s hs => ⟨[], hs⟩
  | ok fetched =>
    cases hjobs : source.live.fetchRawJobs env.dates fetched with
    | error exc =>
      rw [scrapeBody_of_error hjobs]
      exact .raise fun s hs => ⟨[], hs⟩
    | ok jobs =>
      rw [scrapeBody_of_ok hjobs]
      refine (section_storeAll _ fetched).conseq (fun _ => id) ?_ fun _ _ => id
      rintro - s ⟨hsettled, hhistory⟩
      refine ⟨_, hsettled, hhistory, fun _ => ⟨rfl, ?_⟩⟩
      simp only [fetchedJobs, hjobs]

/-- A source leaves a section behind, whatever it met. -/
theorem section_scrapeSource (outcome : Except PyException PaginatedFetchResult) :
    Triple (fun s => s.history = []) (source.scrapeSource env outcome)
      (fun _ s => ∃ writes commits, source.LeavesSection env outcome s writes commits)
      (fun _ s => ∃ writes commits, source.LeavesSection env outcome s writes commits) := by
  refine Triple.handle ((section_scrapeBody outcome).conseq (fun _ => id) ?_ fun _ _ => id)
    fun exc => ?_
  · rintro - s ⟨writes, hs⟩
    exact ⟨writes, true, hs⟩
  · refine Triple.bind (Q := fun _ s =>
      ∃ writes commits, source.LeavesSection env outcome s writes commits) (.change ?_) fun _ =>
        (triple_raiseIfSome _).conseq (fun _ => id) (fun _ _ => And.left) fun _ _ => And.left
    rintro s ⟨writes, hs⟩
    refine ⟨writes, false, rfl, ?_, nofun⟩
    change s.history ++ [.rolledBack] = _
    rw [hs]
    rfl

end ScrapeSource

namespace ScrapeRun

variable {n : ℕ} (run : ScrapeRun n)

/-- No source has begun; the run itself is committed. -/
def startShared : SharedState n where
  tasks := fun _ => .waiting
  tables := run.tables
  committed := run.tables
  ticks := 0
  challenge := run.challenge

/-- The session as a source finds it. -/
def sharedSession (i : Fin n) (s : SharedState n) : ScrapeSession where
  tables := s.tables
  committed := s.committed
  result := (run.sources i).sourcePipelineResultFrom
  ticks := s.ticks

/-- What task `i` does to the shared session until it gives way again. -/
def advanceShared (s : SharedState n) (i : Fin n) : SharedState n :=
  match s.tasks i with
  | .waiting =>
    if (run.sources i).live.platform = .jobstreet ∧ s.challenge.blocked then
      s.setTask i (.fetched true (.ok s.challenge.blockedResult))
    else s.setTask i .fetching
  | .fetching =>
    match (run.sources i).feed.fetchPages run.env.settings (run.sources i).live.requestedLimit with
    | .error exc => s.setTask i (.fetched false (.error exc))
    | .ok pages =>
      { s.setTask i (.fetched false (.ok pages.fetchResult)) with
        challenge := s.challenge.remember pages.challenge }
  | .fetched blocked outcome =>
    let ended := (run.sources i).scrapeSource run.env outcome (run.sharedSession i s)
    let raised := match ended.1 with
      | .ok _ => none
      | .error exc => some exc
    { s.setTask i (.done blocked outcome ended.2.result raised) with
      tables := ended.2.tables
      committed := ended.2.committed
      ticks := ended.2.ticks
      history := s.history ++ ended.2.history.map fun event => (i, event) }
  | .done _ _ _ _ => s

/-- The run on the shared session under a schedule. -/
def executeShared (schedule : List (Fin n)) : SharedState n :=
  schedule.foldl run.advanceShared run.startShared

/-- Some section is that of a source that completed. -/
def Recorded (sections : List (TxSection (Fin n) (String × String))) (i : Fin n) :
    SourceTask → Prop
  | .done _ outcome result _ => result.status = .completed →
    ⟨i, ((run.sources i).fetchedJobs run.env outcome).map LiveRawJob.identity, true⟩ ∈ sections
  | _ => True

/-- Whenever a task gives way: nothing is pending, the transaction was used in sections, and every
    source that completed has its own. -/
structure Settled (s : SharedState n) (sections : List (TxSection (Fin n) (String × String))) :
    Prop where
  tables : s.tables = s.committed
  history : s.history = sections.flatMap TxSection.events
  recorded : ∀ i, run.Recorded sections i (s.tasks i)

variable {run}

/-- Moving one task leaves the sections of the others recorded. -/
theorem recorded_setTask {s : SharedState n} {i : Fin n} {task : SourceTask}
    {sections more : List (TxSection (Fin n) (String × String))}
    (h : ∀ j, run.Recorded sections j (s.tasks j)) (htask : run.Recorded (sections ++ more) i task)
    (j : Fin n) : run.Recorded (sections ++ more) j ((s.setTask i task).tasks j) := by
  change run.Recorded (sections ++ more) j (Function.update s.tasks i task j)
  by_cases hj : j = i
  · subst hj
    rw [Function.update_self]
    exact htask
  · rw [Function.update_of_ne hj]
    have hrecorded := h j
    cases htask : s.tasks j with
    | done blocked outcome result raised =>
      rw [htask] at hrecorded
      exact fun hcompleted => List.mem_append_left _ (hrecorded hcompleted)
    | _ => trivial

/-- A task that moves without storing leaves everything settled. -/
theorem Settled.setTask {s : SharedState n}
    {sections : List (TxSection (Fin n) (String × String))} (h : run.Settled s sections) {i : Fin n}
    {task : SourceTask} (htask : run.Recorded sections i task) :
    run.Settled (s.setTask i task) sections := by
  refine ⟨h.tables, h.history, fun j => ?_⟩
  have hrecorded : run.Recorded (sections ++ []) j ((s.setTask i task).tasks j) :=
    recorded_setTask h.recorded (by rwa [List.append_nil]) j
  rwa [List.append_nil] at hrecorded

/-- Whatever task goes on, the session is settled when it gives way, and the run without the
    transaction has gone on in the same way. -/
theorem settled_advanceShared {s : SharedState n}
    {sections : List (TxSection (Fin n) (String × String))} (h : run.Settled s sections)
    (i : Fin n) :
    (∃ sections', run.Settled (run.advanceShared s i) sections') ∧
      (run.advanceShared s i).isolated = run.advance s.isolated i := by
  have htasks : s.isolated.tasks i = s.tasks i := rfl
  unfold advanceShared advance
  rw [htasks]
  cases htask : s.tasks i with
  | waiting =>
    have hchallenge : s.isolated.challenge = s.challenge := rfl
    dsimp only
    rw [hchallenge]
    split
    · exact ⟨⟨sections, h.setTask trivial⟩, rfl⟩
    · exact ⟨⟨sections, h.setTask trivial⟩, rfl⟩
  | fetching =>
    cases (run.sources i).feed.fetchPages run.env.settings
        (run.sources i).live.requestedLimit with
    | error exc => exact ⟨⟨sections, h.setTask trivial⟩, rfl⟩
    | ok pages =>
      obtain ⟨htables, hhistory, hrecorded⟩ :
          run.Settled (s.setTask i (.fetched false (.ok pages.fetchResult))) sections :=
        h.setTask trivial
      exact ⟨⟨sections, htables, hhistory, hrecorded⟩, rfl⟩
  | fetched blocked outcome =>
    have hsession : run.sharedSession i s = run.session i s.isolated := by
      unfold sharedSession session
      rw [h.tables]
      rfl
    have hleaving : Triple _ ((run.sources i).scrapeSource run.env outcome) _ _ :=
      ScrapeSource.section_scrapeSource outcome
    have hsection := hleaving (run.session i s.isolated) rfl
    dsimp only
    rw [hsession]
    obtain ⟨writes, commits, hleaves⟩ : ∃ writes commits, (run.sources i).LeavesSection run.env
        outcome ((run.sources i).scrapeSource run.env outcome (run.session i s.isolated)).2 writes
        commits := by
      revert hsection
      rcases (run.sources i).scrapeSource run.env outcome (run.session i s.isolated) with
        ⟨_ | _, ended⟩ <;> exact id
    refine ⟨⟨sections ++ [⟨i, writes, commits⟩], hleaves.settled, ?_, ?_⟩, rfl⟩
    · change s.history ++ _ = _
      rw [h.history, hleaves.history, List.flatMap_append, List.flatMap_singleton]
      unfold TxSection.events
      simp
    · refine recorded_setTask h.recorded fun hcompleted => ?_
      obtain ⟨hcommits, hwrites⟩ := hleaves.completed hcompleted
      rw [hwrites, hcommits]
      exact List.mem_append_right _ (List.mem_singleton_self _)
  | done blocked outcome result raised => exact ⟨⟨sections, h⟩, rfl⟩

/-- Under every schedule the shared session is settled whenever a task gives way, and the run goes
    as if every source had a session of its own. -/
theorem settled_executeShared (schedule : List (Fin n)) :
    (∃ sections, run.Settled (run.executeShared schedule) sections) ∧
      (run.executeShared schedule).isolated = run.execute schedule := by
  unfold executeShared execute
  have hrun : ∀ (schedule : List (Fin n)) (s : SharedState n) sections, run.Settled s sections →
      (∃ sections', run.Settled (schedule.foldl run.advanceShared s) sections') ∧
        (schedule.foldl run.advanceShared s).isolated = schedule.foldl run.advance s.isolated := by
    intro schedule
    induction schedule with
    | nil => exact fun s sections h => ⟨⟨sections, h⟩, rfl⟩
    | cons i schedule ih =>
      intro s sections h
      obtain ⟨⟨sections', h'⟩, hsame⟩ := settled_advanceShared h i
      rw [List.foldl_cons, List.foldl_cons, ← hsame]
      exact ih _ sections' h'
  exact hrun schedule run.startShared [] ⟨rfl, rfl, fun _ => trivial⟩

/-- A source that meets no exception completes. -/
theorem completed_of_firstError (hinj : Function.Injective run.env.host.newId)
    (hfresh : FreshIds run.env.host { tables := run.tables, ticks := 0 }) {schedule : List (Fin n)}
    {i : Fin n} {blocked : Bool} {outcome : Except PyException PaginatedFetchResult}
    {result : SourcePipelineResult} {raised : Option PyException}
    (htask : (run.execute schedule).tasks i = .done blocked outcome result raised)
    (hnone : (run.sources i).firstError run.env outcome = none) :
    (run.sources i).Scraped run.env outcome result (run.execute schedule).tables := by
  have hsound := (sound_execute hinj hfresh schedule).tasks i
  rw [htask] at hsound
  cases hsound.2 with
  | scraped _ hscraped _ => exact hscraped
  | gaveUp exc hsome _ _ =>
    rw [hnone] at hsome
    cases hsome

theorem storedBy_of_mem_fetchedJobs {source : ScrapeSource} {env : ScrapeEnv}
    {outcome : Except PyException PaginatedFetchResult} {result : SourcePipelineResult}
    {tables : JobTables} (h : source.Scraped env outcome result tables) {job : LiveRawJob}
    (hjob : job ∈ source.fetchedJobs env outcome) : tables.StoredBy env.runId job.identity := by
  unfold ScrapeSource.fetchedJobs at hjob
  split at hjob
  · cases hjob
  · next fetched =>
    split at hjob
    · cases hjob
    · next jobs hjobs =>
      exact h.stored fetched jobs rfl hjobs job ((perm_orderFetchedRawJobs _ _).mem_iff.mp hjob)

end ScrapeRun

end Bisakerja
