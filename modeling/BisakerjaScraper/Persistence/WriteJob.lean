import BisakerjaScraper.Core.Errors
import BisakerjaScraper.Persistence.Repositories
import BisakerjaScraper.Schemes.Transaction
import Mathlib.Data.List.TakeWhile

/-! Many `write_job` calls on one session.

    A call writes the raw row and then the normalized row of a job. It opens a transaction of its
    own when none is open and commits it; otherwise it leaves both rows to whoever ends the open
    one. A call that fails rolls the session back, and with it whatever was pending. The tracker
    leaves a transaction open: its commit is followed by a refresh. -/

namespace Bisakerja
open Schemes

/-- The two writes of a job. -/
inductive WriteStage where | raw | normalized
  deriving DecidableEq

/-- A call of `write_job` by the task of a source. A failing one names the write and the class of
    the database error. -/
structure WriteCall where
  task : ℕ
  input : RawJobInput
  job : CanonicalJobSchema
  failure : Option (WriteStage × String) := none

/-- `PersistenceResult`. -/
structure PersistenceResult where
  rawJob : String
  normalizedJob : String
  rawCreated : Bool
  normalizedCreated : Bool

/-- A row that a call wrote, with the clock it wrote it at. -/
structure RowWrite where
  stage : WriteStage
  call : WriteCall
  rawJobId : String
  ticks : ℕ

namespace WriteCall

variable (call : WriteCall)

/-- The call writes both rows. -/
def succeeds : Bool := call.failure.isNone

/-- The rows of a call, by what they are. -/
def rows : List (WriteStage × WriteCall) := [(.raw, call), (.normalized, call)]

/-- The `PersistError` of a call. -/
def persistError (error : String) : PyException :=
  .scraper .persist "job persistence write failed" (some call.input.externalId) false
    [("error", .str error)]

end WriteCall

/-- What a row is and which call wrote it. -/
def RowWrite.origin (row : RowWrite) : WriteStage × WriteCall := (row.stage, row.call)

/-- The shared session: the rows it sees, those that are committed, whether a transaction is open,
    what happened, and what the tasks have counted. -/
structure WriteSession where
  tables : JobTables
  committed : JobTables
  ticks : ℕ := 0
  inTransaction : Bool := false
  history : List (TxEvent RowWrite) := []
  persisted : ℕ → ℕ := fun _ => 0

namespace WriteSession

/-- `session.commit()`. -/
def commit (s : WriteSession) : WriteSession :=
  { s with committed := s.tables, inTransaction := false, history := s.history ++ [.committed] }

/-- `session.rollback()`. -/
def rollback (s : WriteSession) : WriteSession :=
  { s with tables := s.committed, inTransaction := false, history := s.history ++ [.rolledBack] }

/-- `session.commit()` and `session.refresh(run)`: the refresh reads, in a new transaction. -/
def commitAndRefresh (s : WriteSession) : WriteSession := { s.commit with inTransaction := true }

/-- What the session has made durable, and what is pending. -/
def view (s : WriteSession) : TxView RowWrite := TxView.replay {} s.history

/-- The session a run writes with, when the tracker has started the run and when it has not. -/
def start (tables : JobTables) (ticks : ℕ) (tracked : Bool) : WriteSession :=
  let s : WriteSession := { tables := tables, committed := tables, ticks := ticks }
  if tracked then s.commitAndRefresh else s

end WriteSession

section Repository

variable (host : Host) (hash : StableHash) (isoformat : Time → String)

/-- `upsert_raw_job` and its flush. -/
def WriteCall.flushRaw (call : WriteCall) (s : WriteSession) :
    Except String (String × Bool) × WriteSession :=
  match call.failure with
  | some (.raw, error) => (.error error, s)
  | _ =>
    let stored := upsertRawJob host hash call.input { tables := s.tables, ticks := s.ticks }
    (.ok stored.1,
      { s with
        tables := stored.2.tables
        ticks := stored.2.ticks
        history := s.history ++ [.wrote ⟨.raw, call, stored.1.1, s.ticks⟩] })

/-- `upsert_normalized_job` and its flush. -/
def WriteCall.flushNormalized (call : WriteCall) (rawJobId : String) (s : WriteSession) :
    Except String (String × Bool) × WriteSession :=
  match call.failure with
  | some (.normalized, error) => (.error error, s)
  | _ =>
    let stored := upsertNormalizedJob host isoformat call.job (some rawJobId)
      { tables := s.tables, ticks := s.ticks }
    (.ok stored.1,
      { s with
        tables := stored.2.tables
        ticks := stored.2.ticks
        history := s.history ++ [.wrote ⟨.normalized, call, rawJobId, s.ticks⟩] })

/-- `write_job`. -/
def WriteCall.writeJob (call : WriteCall) (s : WriteSession) :
    Except PyException PersistenceResult × WriteSession :=
  match call.flushRaw host hash { s with inTransaction := true } with
  | (.error error, s') => (.error (call.persistError error), s'.rollback)
  | (.ok raw, s') =>
    match call.flushNormalized host isoformat raw.1 s' with
    | (.error error, s'') => (.error (call.persistError error), s''.rollback)
    | (.ok job, s'') =>
      (.ok ⟨raw.1, job.1, raw.2, job.2⟩, if s.inTransaction then s'' else s''.commit)

/-- One round of the loop of `_run_source`: a call that returns is counted for its source. -/
def WriteSession.round (s : WriteSession) (call : WriteCall) : WriteSession :=
  match call.writeJob host hash isoformat s with
  | (.ok _, s') =>
    { s' with persisted := Function.update s'.persisted call.task (s'.persisted call.task + 1) }
  | (.error _, s') => s'

/-- The calls of all tasks, in the order they reach the session. -/
def WriteSession.rounds (s : WriteSession) (calls : List WriteCall) : WriteSession :=
  calls.foldl (WriteSession.round host hash isoformat) s

/-- A whole run: the calls and then the commit of `complete_run`, `partial_run` or `fail_run`. -/
def WriteSession.finished (tables : JobTables) (ticks : ℕ) (tracked : Bool)
    (calls : List WriteCall) : WriteSession :=
  ((WriteSession.start tables ticks tracked).rounds host hash isoformat calls).commitAndRefresh

/-- The tables with one row write applied. -/
def RowWrite.apply (tables : JobTables) (row : RowWrite) : JobTables :=
  match row.stage with
  | .raw => (upsertRawJob host hash row.call.input ⟨tables, row.ticks⟩).2.tables
  | .normalized =>
    (upsertNormalizedJob host isoformat row.call.job (some row.rawJobId)
      ⟨tables, row.ticks⟩).2.tables

/-- A failed write discards only its own job: it raises, the committed tables hold the rows of the
    calls that succeeded and no others, and every source has counted the rows it has there. -/
structure DiscardsOnlyItself (tables : JobTables) (ticks : ℕ) (tracked : Bool)
    (calls : List WriteCall) : Prop where
  raises : ∀ call ∈ calls, ∀ stage error, call.failure = some (stage, error) →
    ∀ s, (call.writeJob host hash isoformat s).1 = .error (call.persistError error)
  survive : (WriteSession.finished host hash isoformat tables ticks tracked calls).view.durable.map
    RowWrite.origin = (calls.filter WriteCall.succeeds).flatMap WriteCall.rows
  stored : (WriteSession.finished host hash isoformat tables ticks tracked calls).committed
    = (WriteSession.finished host hash isoformat tables ticks tracked calls).view.durable.foldl
        (RowWrite.apply host hash isoformat) tables
  counted : ∀ task stage,
    (WriteSession.finished host hash isoformat tables ticks tracked calls).persisted task
      = (WriteSession.finished host hash isoformat tables ticks tracked calls).view.durable.countP
          fun row => row.stage = stage ∧ row.call.task = task

/-! ### What one call does to the session -/

variable {call : WriteCall}

theorem WriteSession.view_commit (s : WriteSession) :
    s.commit.view = { durable := s.view.all, pending := [] } := TxView.replay_committed _

theorem WriteSession.view_rollback (s : WriteSession) :
    s.rollback.view = { durable := s.view.durable, pending := [] } := TxView.replay_rolledBack _

/-- A call that fails takes back what is pending, and counts nothing. -/
theorem WriteSession.round_of_fails (h : call.succeeds = false) (s : WriteSession) :
    (s.round host hash isoformat call).view = { durable := s.view.durable, pending := [] } ∧
      (s.round host hash isoformat call).inTransaction = false ∧
      (s.round host hash isoformat call).committed = s.committed ∧
      (s.round host hash isoformat call).tables = s.committed ∧
      (s.round host hash isoformat call).persisted = s.persisted := by
  unfold WriteCall.succeeds at h
  cases hfailure : call.failure with
  | none => simp [hfailure] at h
  | some failure =>
    obtain ⟨_ | _, error⟩ := failure
    · simp only [round, WriteCall.writeJob, WriteCall.flushRaw, hfailure]
      exact ⟨WriteSession.view_rollback _, rfl, rfl, rfl, rfl⟩
    · simp only [round, WriteCall.writeJob, WriteCall.flushRaw, WriteCall.flushNormalized, hfailure]
      refine ⟨?_, rfl, rfl, rfl, rfl⟩
      -- the raw row was pending already
      rw [WriteSession.view_rollback]
      simp only [view, TxView.replay_wrote]

/-- A call that succeeds adds both of its rows, and commits when no transaction was open. -/
theorem WriteSession.round_of_succeeds (h : call.succeeds = true) (s : WriteSession) :
    ∃ (rawJobId : String) (ticks : ℕ) (written : WriteSession),
      s.round host hash isoformat call = (if s.inTransaction then written else written.commit) ∧
      written.inTransaction = true ∧ written.committed = s.committed ∧
      written.tables = [⟨.raw, call, rawJobId, s.ticks⟩, ⟨.normalized, call, rawJobId, ticks⟩].foldl
        (RowWrite.apply host hash isoformat) s.tables ∧
      written.view = { durable := s.view.durable
                       pending := s.view.pending ++
                        [⟨.raw, call, rawJobId, s.ticks⟩, ⟨.normalized, call, rawJobId, ticks⟩] } ∧
      written.persisted = Function.update s.persisted call.task (s.persisted call.task + 1) := by
  have hfailure : call.failure = none := by simpa [WriteCall.succeeds] using h
  let raw := upsertRawJob host hash call.input { tables := s.tables, ticks := s.ticks }
  let job := upsertNormalizedJob host isoformat call.job (some raw.1.1) raw.2
  refine ⟨raw.1.1, raw.2.ticks,
    { s with
      tables := job.2.tables
      ticks := job.2.ticks
      inTransaction := true
      history := s.history ++ [.wrote ⟨.raw, call, raw.1.1, s.ticks⟩] ++
        [.wrote ⟨.normalized, call, raw.1.1, raw.2.ticks⟩]
      persisted := Function.update s.persisted call.task (s.persisted call.task + 1) },
    ?_, rfl, rfl, rfl, ?_, rfl⟩
  · simp only [round, WriteCall.writeJob, WriteCall.flushRaw, WriteCall.flushNormalized, hfailure]
    split <;> rfl
  · simp only [view, TxView.replay_wrote]
    simp

/-! ### What a run keeps -/

theorem WriteSession.rounds_cons (s : WriteSession) (call : WriteCall) (rest : List WriteCall) :
    s.rounds host hash isoformat (call :: rest)
      = (s.round host hash isoformat call).rounds host hash isoformat rest := rfl

theorem WriteSession.rounds_append (s : WriteSession) (calls calls' : List WriteCall) :
    s.rounds host hash isoformat (calls ++ calls')
      = (s.rounds host hash isoformat calls).rounds host hash isoformat calls' := List.foldl_append

/-- In an open transaction calls that succeed pile up. -/
theorem WriteSession.rounds_of_open (calls : List WriteCall)
    (hcalls : ∀ call ∈ calls, call.succeeds = true) : ∀ {s : WriteSession}, s.inTransaction = true →
      (s.rounds host hash isoformat calls).inTransaction = true ∧
      (s.rounds host hash isoformat calls).view.durable = s.view.durable ∧
      (s.rounds host hash isoformat calls).view.pending.map RowWrite.origin
        = s.view.pending.map RowWrite.origin ++ calls.flatMap WriteCall.rows := by
  induction calls with
  | nil => exact fun h => ⟨h, rfl, by simp [rounds]⟩
  | cons call rest ih =>
    intro s hopen
    obtain ⟨hcall, hrest⟩ := List.forall_mem_cons.mp hcalls
    obtain ⟨rawJobId, ticks, written, hround, hin, -, -, hview, -⟩ :=
      round_of_succeeds host hash isoformat hcall s
    rw [if_pos hopen] at hround
    obtain ⟨hin', hdurable, hpending⟩ := ih hrest hin
    rw [rounds_cons, hround]
    refine ⟨hin', by rw [hdurable, hview], ?_⟩
    rw [hpending, hview]
    simp [RowWrite.origin, WriteCall.rows]

/-- With no transaction open every call ends its own, so what succeeds is durable at once. -/
theorem WriteSession.rounds_of_closed (calls : List WriteCall) :
    ∀ {s : WriteSession}, s.inTransaction = false → s.view.pending = [] →
      (s.rounds host hash isoformat calls).inTransaction = false ∧
      (s.rounds host hash isoformat calls).view.pending = [] ∧
      (s.rounds host hash isoformat calls).view.durable.map RowWrite.origin
        = s.view.durable.map RowWrite.origin ++
          (calls.filter WriteCall.succeeds).flatMap WriteCall.rows := by
  induction calls with
  | nil => exact fun h hpending => ⟨h, hpending, by simp [rounds]⟩
  | cons call rest ih =>
    intro s hclosed hnone
    rw [rounds_cons]
    cases hcall : call.succeeds with
    | false =>
      obtain ⟨hview, hin, -⟩ :=
        round_of_fails host hash isoformat hcall s
      obtain ⟨hin', hpending, hdurable⟩ := ih hin (by rw [hview])
      refine ⟨hin', hpending, ?_⟩
      rw [hdurable, hview, List.filter_cons_of_neg (by simp [hcall])]
    | true =>
      obtain ⟨rawJobId, ticks, written, hround, -, -, -, hview, -⟩ :=
        round_of_succeeds host hash isoformat hcall s
      rw [if_neg (by simp [hclosed])] at hround
      have hcommit := written.view_commit
      rw [hround]
      obtain ⟨hin', hpending, hdurable⟩ := ih (s := written.commit) rfl (by rw [hcommit])
      refine ⟨hin', hpending, ?_⟩
      rw [hdurable, hcommit, hview, List.filter_cons_of_pos hcall]
      simp [TxView.all, hnone, RowWrite.origin, WriteCall.rows]

/-- The calls whose rows are there when the run is finished: the first failure in a transaction that
    was open takes everything before it along. -/
def survivors (tracked : Bool) (calls : List WriteCall) : List WriteCall :=
  if tracked ∧ calls.all WriteCall.succeeds = false then
    (calls.dropWhile WriteCall.succeeds).filter WriteCall.succeeds
  else calls.filter WriteCall.succeeds

theorem WriteSession.view_start (tables : JobTables) (ticks : ℕ) (tracked : Bool) :
    (start tables ticks tracked).view = {} := by
  cases tracked <;> rfl

theorem WriteSession.inTransaction_start (tables : JobTables) (ticks : ℕ) (tracked : Bool) :
    (start tables ticks tracked).inTransaction = tracked := by
  cases tracked <;> rfl

theorem WriteSession.view_finished (tables : JobTables) (ticks : ℕ) (tracked : Bool)
    (calls : List WriteCall) :
    (finished host hash isoformat tables ticks tracked calls).view =
      { durable := ((start tables ticks tracked).rounds host hash isoformat calls).view.all
        pending := [] } :=
  view_commit _

/-- The first failure in an open transaction takes back what has piled up; from there on every call
    is on its own. -/
theorem WriteSession.all_rounds_of_failure (earlier rest : List WriteCall)
    (hearlier : ∀ call ∈ earlier, call.succeeds = true) (hcall : call.succeeds = false)
    {s : WriteSession} (hopen : s.inTransaction = true) :
    (s.rounds host hash isoformat (earlier ++ call :: rest)).view.all.map RowWrite.origin
      = s.view.durable.map RowWrite.origin ++
        (rest.filter WriteCall.succeeds).flatMap WriteCall.rows := by
  obtain ⟨-, hpiled, -⟩ := rounds_of_open host hash isoformat earlier hearlier hopen
  obtain ⟨hfailed, hclosed, -⟩ := round_of_fails host hash isoformat hcall
    (s.rounds host hash isoformat earlier)
  obtain ⟨-, hpending, hdurable⟩ := rounds_of_closed host hash isoformat rest hclosed
    (by rw [hfailed])
  rw [rounds_append, rounds_cons]
  simp only [TxView.all, hpending, List.append_nil, hdurable, hfailed, hpiled]

/-- What a finished run leaves behind. -/
theorem durable_finished (tables : JobTables) (ticks : ℕ) (tracked : Bool)
    (calls : List WriteCall) :
    (WriteSession.finished host hash isoformat tables ticks tracked calls).view.durable.map
      RowWrite.origin = (survivors tracked calls).flatMap WriteCall.rows := by
  have hview := WriteSession.view_start tables ticks tracked
  have hin := WriteSession.inTransaction_start tables ticks tracked
  rw [WriteSession.view_finished]
  unfold survivors
  by_cases hlost : tracked = true ∧ calls.all WriteCall.succeeds = false
  · obtain ⟨rfl, hfails⟩ := hlost
    rw [if_pos ⟨rfl, hfails⟩]
    have hsplit := List.takeWhile_append_dropWhile (p := WriteCall.succeeds) (l := calls)
    have hhead := List.head?_dropWhile_not WriteCall.succeeds calls
    cases hdrop : calls.dropWhile WriteCall.succeeds with
    | nil =>
      have hall := List.all_eq_true.mpr (List.dropWhile_eq_nil_iff.mp hdrop)
      rw [hall] at hfails
      cases hfails
    | cons call rest =>
      have hcall : call.succeeds = false := by simpa [hdrop] using hhead
      have hall := WriteSession.all_rounds_of_failure host hash isoformat
        (calls.takeWhile WriteCall.succeeds) rest (fun _ => List.mem_takeWhile_imp) hcall hin
      rw [hdrop] at hsplit
      rw [hsplit, hview] at hall
      rw [hall, List.filter_cons_of_neg (by simp [hcall])]
      rfl
  · rw [if_neg hlost]
    cases tracked with
    | false =>
      obtain ⟨-, hpending, hdurable⟩ := WriteSession.rounds_of_closed host hash isoformat calls hin
        (by rw [hview])
      simp only [TxView.all, hpending, List.append_nil, hdurable, hview]
      rfl
    | true =>
      have hall : ∀ call ∈ calls, call.succeeds = true := by simpa using hlost
      obtain ⟨-, hdurable, hpending⟩ :=
        WriteSession.rounds_of_open host hash isoformat calls hall hin
      rw [List.filter_eq_self.mpr hall]
      simp only [TxView.all, List.map_append, hdurable, hpending, hview]
      rfl

/-- The tables mirror the view: the committed ones hold the durable rows, the others the pending
    rows on top. -/
structure WriteSession.Mirrors (host : Host) (hash : StableHash) (isoformat : Time → String)
    (tables : JobTables) (s : WriteSession) : Prop where
  committed : s.committed = s.view.durable.foldl (RowWrite.apply host hash isoformat) tables
  tables : s.tables = s.view.pending.foldl (RowWrite.apply host hash isoformat) s.committed

theorem WriteSession.Mirrors.commit {tables : JobTables} {s : WriteSession}
    (h : s.Mirrors host hash isoformat tables) : s.commit.Mirrors host hash isoformat tables where
  committed := by
    rw [view_commit, TxView.all, List.foldl_append, ← h.committed, ← h.tables]
    rfl
  tables := by
    rw [view_commit]
    rfl

theorem WriteSession.mirrors_round {tables : JobTables} {s : WriteSession}
    (h : s.Mirrors host hash isoformat tables) (call : WriteCall) :
    (s.round host hash isoformat call).Mirrors host hash isoformat tables := by
  cases hcall : call.succeeds with
  | false =>
    obtain ⟨hview, -, hcommitted, htables, -⟩ :=
      round_of_fails host hash isoformat hcall s
    exact ⟨by rw [hcommitted, hview, h.committed], by rw [htables, hview, hcommitted]; rfl⟩
  | true =>
    obtain ⟨rawJobId, ticks, written, hround, -, hcommitted, htables, hview, -⟩ :=
      round_of_succeeds host hash isoformat hcall s
    have hwritten : written.Mirrors host hash isoformat tables :=
      ⟨by rw [hcommitted, hview, h.committed],
        by rw [htables, hview, List.foldl_append, hcommitted, ← h.tables]⟩
    rw [hround]
    split
    · exact hwritten
    · exact hwritten.commit

theorem WriteSession.mirrors_rounds {tables : JobTables} (calls : List WriteCall) :
    ∀ {s : WriteSession}, s.Mirrors host hash isoformat tables →
      (s.rounds host hash isoformat calls).Mirrors host hash isoformat tables := by
  induction calls with
  | nil => exact fun h => h
  | cons call rest ih => exact fun h => ih (mirrors_round host hash isoformat h call)

theorem WriteSession.mirrors_start (tables : JobTables) (ticks : ℕ) (tracked : Bool) :
    (start tables ticks tracked).Mirrors host hash isoformat tables := by
  cases tracked <;> exact ⟨rfl, rfl⟩

/-- A source counts its calls that return. -/
theorem WriteSession.persisted_rounds (task : ℕ) (calls : List WriteCall) :
    ∀ s : WriteSession, (s.rounds host hash isoformat calls).persisted task
      = s.persisted task +
        (calls.filter WriteCall.succeeds).countP fun call => call.task = task := by
  induction calls with
  | nil => exact fun s => rfl
  | cons call rest ih =>
    intro s
    rw [rounds_cons, ih]
    cases hcall : call.succeeds with
    | false =>
      obtain ⟨-, -, -, -, hpersisted⟩ :=
        round_of_fails host hash isoformat hcall s
      rw [hpersisted, List.filter_cons_of_neg (by simp [hcall])]
    | true =>
      obtain ⟨rawJobId, ticks, written, hround, -, -, -, -, hpersisted⟩ :=
        round_of_succeeds host hash isoformat hcall s
      have hround : (s.round host hash isoformat call).persisted
          = Function.update s.persisted call.task (s.persisted call.task + 1) := by
        rw [hround, ← hpersisted]
        split <;> rfl
      rw [hround, List.filter_cons_of_pos hcall, List.countP_cons]
      by_cases htask : call.task = task
      · simp [htask]
        omega
      · simp [htask, Function.update_of_ne (Ne.symm htask)]

/-- A call has one row of each kind. -/
theorem countP_rows (task : ℕ) (stage : WriteStage) (calls : List WriteCall) :
    (calls.flatMap WriteCall.rows).countP (fun row => row.1 = stage ∧ row.2.task = task)
      = calls.countP fun call => call.task = task := by
  induction calls with
  | nil => rfl
  | cons call rest ih =>
    rw [List.flatMap_cons, List.countP_append, ih, List.countP_cons, Nat.add_comm]
    by_cases htask : call.task = task <;> cases stage <;> simp [WriteCall.rows, htask]

theorem length_rows (calls : List WriteCall) :
    (calls.flatMap WriteCall.rows).length = 2 * calls.length := by
  induction calls with
  | nil => rfl
  | cons call rest ih => simp [WriteCall.rows, ih]; omega

/-- Everything that succeeded survives exactly when nothing that succeeded was pending at the first
    failure. -/
theorem length_survivors_iff (tracked : Bool) (calls : List WriteCall) :
    (survivors tracked calls).length = (calls.filter WriteCall.succeeds).length ↔
      tracked = false ∨ (∀ call ∈ calls, call.succeeds = true) ∨
        ∀ call ∈ calls.head?, call.succeeds = false := by
  have hsplit : (calls.filter WriteCall.succeeds).length
      = (calls.takeWhile WriteCall.succeeds).length +
        ((calls.dropWhile WriteCall.succeeds).filter WriteCall.succeeds).length := by
    conv_lhs => rw [← List.takeWhile_append_dropWhile (p := WriteCall.succeeds) (l := calls)]
    rw [List.filter_append, List.length_append,
      List.filter_eq_self.mpr fun _ => List.mem_takeWhile_imp]
  unfold survivors
  cases tracked with
  | false => simp
  | true =>
    cases hall : calls.all WriteCall.succeeds with
    | true =>
      have hall' : ∀ call ∈ calls, call.succeeds = true := by simpa using hall
      simpa using Or.inl hall'
    | false =>
      have hnot : ¬ ∀ call ∈ calls, call.succeeds = true := by simpa using hall
      simp only [hnot, and_self, if_true, hsplit, Bool.true_eq_false, false_or]
      cases calls with
      | nil => simp
      | cons call rest => cases hcall : call.succeeds <;> simp [hcall]

/-- A failing call raises its `PersistError`. -/
theorem WriteCall.writeJob_of_failure {stage : WriteStage} {error : String}
    (h : call.failure = some (stage, error)) (s : WriteSession) :
    (call.writeJob host hash isoformat s).1 = .error (call.persistError error) := by
  cases stage <;> simp only [writeJob, flushRaw, flushNormalized, h]

/-- BUG: `write_job` commits only what it opened, but its error branch rolls back all there is. A
    run keeps failures apart exactly when no transaction is open as it starts, or no call fails, or
    the very first one does. -/
theorem discardsOnlyItself_iff (tables : JobTables) (ticks : ℕ) (tracked : Bool)
    (calls : List WriteCall) :
    DiscardsOnlyItself host hash isoformat tables ticks tracked calls ↔
      tracked = false ∨ (∀ call ∈ calls, call.succeeds = true) ∨
        ∀ call ∈ calls.head?, call.succeeds = false := by
  have hdurable := durable_finished host hash isoformat tables ticks tracked calls
  rw [← length_survivors_iff]
  constructor
  · intro h
    have hlength := congrArg List.length (hdurable.symm.trans h.survive)
    rw [length_rows, length_rows] at hlength
    omega
  · intro h
    have hsurvive : survivors tracked calls = calls.filter WriteCall.succeeds := by
      unfold survivors at h ⊢
      split at h
      · next hlost =>
        rw [if_pos hlost]
        exact ((List.dropWhile_sublist _).filter _).eq_of_length h
      · next hkept => rw [if_neg hkept]
    refine ⟨fun call _ stage error hfailure s =>
      WriteCall.writeJob_of_failure host hash isoformat hfailure s, by rw [hdurable, hsurvive],
      ?_, fun task stage => ?_⟩
    · have hmirrors := WriteSession.mirrors_rounds host hash isoformat calls
        (WriteSession.mirrors_start host hash isoformat tables ticks tracked)
      exact hmirrors.commit.committed
    · have hstart : (WriteSession.start tables ticks tracked).persisted task = 0 := by
        cases tracked <;> rfl
      have hcounted := WriteSession.persisted_rounds host hash isoformat task calls
        (WriteSession.start tables ticks tracked)
      rw [hstart, Nat.zero_add, ← countP_rows task stage, ← hsurvive, ← hdurable,
        List.countP_map] at hcounted
      exact hcounted

end Repository

/-- A call of a source for a job of Dealls. -/
def callFor (task : ℕ) (externalId : NonEmptyStr) (failure : Option (WriteStage × String)) :
    WriteCall where
  task := task
  input :=
    { scrapeRunId := "run", sourcePlatform := "dealls", externalId := externalId
      sourceUrl := none, rawPayload := [] }
  job :=
    { source :=
        { platform := .dealls, externalJobId := externalId, sourceUrl := ⟨"d.id", url_ne_empty⟩
          scrapedAt := 0 }
      title := ⟨"Engineer", by decide⟩
      company := { name := ⟨"Ac", ac_ne_empty⟩ }
      employmentTypes_nodup := List.nodup_nil
      skills_nodup := List.nodup_nil
      lastSeenAt := 0 }
  failure := failure

/-- A run the tracker has started: the first source writes its job, then the normalized write of
    the second fails. -/
def secondFails : List WriteCall :=
  [callFor 0 ⟨"a", by decide⟩ none,
    callFor 1 ⟨"b", by decide⟩ (some (.normalized, "OperationalError"))]

/-- Numbered ids on a clock that counts. -/
def countingHost : Host := ⟨fun t => t, toString, fun _ => 0⟩

/-- A hash that tells nothing apart. -/
def flatHash : StableHash := ⟨fun _ => "h", fun _ => by decide⟩

/-- Neither source has a row left, and the first has counted one. -/
theorem row_of_other_source_lost :
    let tables : JobTables := ⟨⟨[], by simp⟩, ⟨[], by simp⟩⟩
    let finished := WriteSession.finished countingHost flatHash (fun _ => "1970-01-01") tables 0
      true secondFails
    ¬ DiscardsOnlyItself countingHost flatHash (fun _ => "1970-01-01") tables 0 true secondFails ∧
      finished.committed.rawJobs.rows.length = 0 ∧
      finished.committed.normalizedJobs.rows.length = 0 ∧ finished.persisted 0 = 1 := by
  refine ⟨fun h => ?_, by decide +kernel, by decide +kernel, by decide +kernel⟩
  have hlength := congrArg List.length h.survive
  rw [durable_finished, length_rows, length_rows] at hlength
  cases hlength

end Bisakerja
