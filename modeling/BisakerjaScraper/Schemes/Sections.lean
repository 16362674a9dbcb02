import BisakerjaScraper.Schemes.Transaction

/-! Sections of a shared transaction.

    Tasks that share a session write in sections: a task writes, and then commits or rolls back,
    before another task goes on. Then nothing is pending between two sections, so what a task has
    committed stays and a rollback finds nothing but writes of its own task. -/

namespace Schemes

universe u v
variable {τ : Type u} {ω : Type v}

/-- A section: its task, what it writes, and whether it commits that. -/
structure TxSection (τ : Type u) (ω : Type v) where
  task : τ
  writes : List ω
  commits : Bool

/-- The events of a section. -/
def TxSection.events (s : TxSection τ ω) : List (τ × TxEvent ω) :=
  (s.writes.map fun w => (s.task, .wrote w)) ++
    [(s.task, if s.commits then .committed else .rolledBack)]

/-- The writes of a section with their task. -/
def TxSection.tagged (s : TxSection τ ω) : List (τ × ω) := s.writes.map fun w => (s.task, w)

/-- An event whose write names its task. -/
def tagEvent : τ × TxEvent ω → TxEvent (τ × ω)
  | (task, .wrote w) => .wrote (task, w)
  | (_, .committed) => .committed
  | (_, .rolledBack) => .rolledBack

/-- What the shared session holds after a history, from a view. -/
def TxView.replayTasks (v : TxView (τ × ω)) (history : List (τ × TxEvent ω)) : TxView (τ × ω) :=
  v.replay (history.map tagEvent)

namespace TxView

variable {v : TxView (τ × ω)}

theorem replayTasks_append (history history' : List (τ × TxEvent ω)) :
    v.replayTasks (history ++ history') = (v.replayTasks history).replayTasks history' := by
  unfold replayTasks
  rw [List.map_append, replay_append]

theorem replayTasks_wrote (task : τ) (writes : List ω) :
    v.replayTasks (writes.map fun w => (task, .wrote w))
      = { v with pending := v.pending ++ writes.map fun w => (task, w) } := by
  induction writes generalizing v with
  | nil => simp [replayTasks]
  | cons w writes ih =>
    change ({ v with pending := v.pending ++ [(task, w)] } : TxView (τ × ω)).replayTasks _ = _
    rw [ih]
    simp

/-- A section adds what it commits and leaves nothing pending. -/
theorem replayTasks_section (h : v.pending = []) (s : TxSection τ ω) :
    v.replayTasks s.events
      = { durable := v.durable ++ if s.commits then s.tagged else [], pending := [] } := by
  unfold TxSection.events TxSection.tagged
  rw [replayTasks_append, replayTasks_wrote, h]
  cases s.commits <;> simp [replayTasks, replay_cons, tagEvent, step]

/-- What sections leave durable: what the committing ones wrote. -/
theorem replayTasks_sections (h : v.pending = []) (sections : List (TxSection τ ω)) :
    v.replayTasks (sections.flatMap TxSection.events)
      = { durable := v.durable ++ (sections.filter TxSection.commits).flatMap TxSection.tagged
          pending := [] } := by
  induction sections generalizing v with
  | nil =>
    rw [← h]
    simp [replayTasks]
  | cons s sections ih =>
    rw [List.flatMap_cons, replayTasks_append, replayTasks_section h, ih rfl]
    cases hcommits : s.commits <;> simp [hcommits]

/-- A pending write was pending before or is one of a task that has written since. -/
theorem task_of_pending {history : List (τ × TxEvent ω)} {w : τ × ω}
    (h : w ∈ (v.replayTasks history).pending) : w ∈ v.pending ∨ w.1 ∈ history.map Prod.fst := by
  induction history generalizing v with
  | nil => exact .inl h
  | cons event history ih =>
    obtain ⟨task, event⟩ := event
    rcases ih (v := v.step (tagEvent (task, event))) h with hpending | htask
    · cases event with
      | wrote w' =>
        rcases List.mem_append.mp hpending with hpending | hpending
        · exact .inl hpending
        · rw [List.mem_singleton.mp hpending]
          exact .inr List.mem_cons_self
      | committed => exact absurd hpending List.not_mem_nil
      | rolledBack => exact absurd hpending List.not_mem_nil
    · exact .inr (List.mem_cons_of_mem _ htask)

theorem task_of_mem_events {s : TxSection τ ω} {event : τ × TxEvent ω} (h : event ∈ s.events) :
    event.1 = s.task := by
  rcases List.mem_append.mp h with h | h
  · obtain ⟨w, -, rfl⟩ := List.mem_map.mp h
    rfl
  · rw [List.mem_singleton.mp h]

/-- A rollback within sections discards writes of its own task only. -/
theorem discards_own (h : v.pending = []) {sections : List (TxSection τ ω)}
    {before after : List (τ × TxEvent ω)} {task : τ}
    (hsplit : sections.flatMap TxSection.events = before ++ (task, .rolledBack) :: after) :
    ∀ w ∈ (v.replayTasks before).pending, w.1 = task := by
  induction sections generalizing v before with
  | nil => exact absurd hsplit (by simp)
  | cons s sections ih =>
    rw [List.flatMap_cons] at hsplit
    rcases List.append_eq_append_iff.mp hsplit with ⟨rest, rfl, hrest⟩ | ⟨rest, hevents, hrest⟩
    · rw [replayTasks_append, replayTasks_section h]
      exact ih rfl hrest
    · cases rest with
      | nil =>
        rw [List.append_nil] at hevents
        rw [← hevents, replayTasks_section h]
        nofun
      | cons event rest =>
        rw [List.cons_append, List.cons.injEq] at hrest
        obtain ⟨rfl, -⟩ := hrest
        have hmem : ∀ event ∈ before, event.1 = s.task := fun event hevent =>
          task_of_mem_events (by rw [hevents]; exact List.mem_append_left _ hevent)
        have hlast : (task, TxEvent.rolledBack) ∈ s.events := by
          rw [hevents]
          exact List.mem_append_right _ List.mem_cons_self
        have htask : task = s.task := task_of_mem_events hlast
        intro w hw
        rcases task_of_pending hw with hw | hw
        · rw [h] at hw
          exact absurd hw List.not_mem_nil
        · obtain ⟨event, hevent, heq⟩ := List.mem_map.mp hw
          rw [← heq, htask]
          exact hmem event hevent

end TxView

end Schemes
