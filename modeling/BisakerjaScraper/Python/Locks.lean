import Mathlib.Data.List.Basic
import Mathlib.Logic.Function.Iterate

/-! `asyncio.Lock` and `asyncio.Semaphore`.

    Taking a lock that is free does not suspend the coroutine. Otherwise it waits in line, and a
    release wakes the first in line, who takes the lock when it goes on. A semaphore has several
    places: whoever is woken is given a place at once. -/

namespace Bisakerja

/-- `asyncio.Lock`, with its waiters and whether each has been woken. -/
structure Lock where
  locked : Bool := false
  waiters : List (ℕ × Bool) := []

namespace Lock

/-- `acquire` up to its first await: the lock, and whether the caller has it. -/
def acquire (lock : Lock) (caller : ℕ) : Lock × Bool :=
  if lock.locked = false ∧ lock.waiters = [] then ({ lock with locked := true }, true)
  else ({ lock with waiters := lock.waiters ++ [(caller, false)] }, false)

/-- `_wake_up_first`. -/
def wakeUpFirst (lock : Lock) : Lock :=
  { lock with
    waiters := match lock.waiters with
      | [] => []
      | (caller, _) :: rest => (caller, true) :: rest }

/-- `release`. -/
def release (lock : Lock) : Lock := wakeUpFirst { lock with locked := false }

/-- The rest of `acquire`, for a waiter that has been woken. -/
def takeUp (lock : Lock) (caller : ℕ) : Lock where
  locked := true
  waiters := lock.waiters.filter (·.1 ≠ caller)

/-- The rest of `acquire`, for a waiter that is cancelled. -/
def abandon (lock : Lock) (caller : ℕ) : Lock :=
  let rest := { lock with waiters := lock.waiters.filter (·.1 ≠ caller) }
  if rest.locked then rest else rest.wakeUpFirst

/-- A caller has been woken. -/
def Woken (lock : Lock) (caller : ℕ) : Prop := (caller, true) ∈ lock.waiters

instance (lock : Lock) (caller : ℕ) : Decidable (lock.Woken caller) :=
  inferInstanceAs (Decidable (_ ∈ _))

@[simp] theorem acquire_free (caller : ℕ) : acquire {} caller = ({ locked := true }, true) := rfl

@[simp] theorem release_held : release { locked := true } = {} := rfl

end Lock

/-- `asyncio.Semaphore`, with its counter, its waiters and whether each has been woken. -/
structure Semaphore where
  value : ℕ
  waiters : List (ℕ × Bool) := []

/-- The waiters when the first that sleeps has been woken, if one sleeps. -/
def wakeFirst : List (ℕ × Bool) → Option (List (ℕ × Bool))
  | [] => none
  | (caller, false) :: rest => some ((caller, true) :: rest)
  | (caller, true) :: rest => (wakeFirst rest).map ((caller, true) :: ·)

namespace Semaphore

/-- `acquire` up to its first await: the semaphore, and whether the caller has a place. -/
def acquire (semaphore : Semaphore) (caller : ℕ) : Semaphore × Bool :=
  if semaphore.value ≠ 0 ∧ semaphore.waiters = [] then
    ({ semaphore with value := semaphore.value - 1 }, true)
  else ({ semaphore with waiters := semaphore.waiters ++ [(caller, false)] }, false)

/-- `_wake_up_next`. -/
def wakeUpNext (semaphore : Semaphore) : Semaphore :=
  match wakeFirst semaphore.waiters with
  | some waiters => ⟨semaphore.value - 1, waiters⟩
  | none => semaphore

/-- `release`. -/
def release (semaphore : Semaphore) : Semaphore :=
  wakeUpNext { semaphore with value := semaphore.value + 1 }

/-- The rest of `acquire`, for a waiter that has been woken: it leaves the line, and while there are
    places the next are woken. -/
def takeUp (semaphore : Semaphore) (caller : ℕ) : Semaphore :=
  wakeUpNext^[semaphore.value]
    { semaphore with waiters := semaphore.waiters.filter (·.1 ≠ caller) }

/-- A line of waiters: those woken stand before those asleep. -/
def line (woken asleep : List ℕ) : List (ℕ × Bool) :=
  woken.map (·, true) ++ asleep.map (·, false)

theorem wakeFirst_line_nil (woken : List ℕ) : wakeFirst (line woken []) = none := by
  induction woken with
  | nil => rfl
  | cons caller woken ih => exact congrArg (Option.map _) ih

theorem wakeFirst_line_cons (woken : List ℕ) (caller : ℕ) (asleep : List ℕ) :
    wakeFirst (line woken (caller :: asleep)) = some (line (woken ++ [caller]) asleep) := by
  induction woken with
  | nil => rfl
  | cons first woken ih => exact congrArg (Option.map _) ih

theorem acquire_line_sleep (value : ℕ) (woken asleep : List ℕ) (caller : ℕ)
    (h : value = 0 ∨ line woken asleep ≠ []) :
    acquire ⟨value, line woken asleep⟩ caller
      = (⟨value, line woken (asleep ++ [caller])⟩, false) := by
  have hnot : ¬ (value ≠ 0 ∧ line woken asleep = []) := fun hfree =>
    h.elim hfree.1 fun hline => hline hfree.2
  rw [acquire, if_neg hnot]
  simp [line]

theorem release_line_nil (value : ℕ) (woken : List ℕ) :
    release ⟨value, line woken []⟩ = ⟨value + 1, line woken []⟩ := by
  simp [release, wakeUpNext, wakeFirst_line_nil]

theorem release_line_cons (value : ℕ) (woken : List ℕ) (caller : ℕ) (asleep : List ℕ) :
    release ⟨value, line woken (caller :: asleep)⟩ = ⟨value, line (woken ++ [caller]) asleep⟩ := by
  simp [release, wakeUpNext, wakeFirst_line_cons]

/-- As many as are woken one after the other are the first of those asleep. -/
theorem iterate_wakeUpNext_line (n : ℕ) : ∀ (value : ℕ) (woken asleep : List ℕ),
    wakeUpNext^[n] ⟨value, line woken asleep⟩
      = ⟨value - min n asleep.length, line (woken ++ asleep.take n) (asleep.drop n)⟩ := by
  induction n with
  | zero => simp
  | succ n ih =>
    intro value woken asleep
    rw [Function.iterate_succ_apply]
    cases asleep with
    | nil =>
      have hnobody : wakeUpNext ⟨value, line woken []⟩ = ⟨value, line woken []⟩ := by
        simp [wakeUpNext, wakeFirst_line_nil]
      rw [hnobody, ih]
      simp
    | cons caller asleep =>
      have hfirst : wakeUpNext ⟨value, line woken (caller :: asleep)⟩
          = ⟨value - 1, line (woken ++ [caller]) asleep⟩ := by
        simp [wakeUpNext, wakeFirst_line_cons]
      have hvalue : value - 1 - min n asleep.length = value - min (n + 1) (asleep.length + 1) := by
        omega
      rw [hfirst, ih, hvalue]
      simp

/-- The first of the line takes up its place, and as many are woken as there are places. -/
theorem takeUp_line {value : ℕ} {woken asleep : List ℕ} {caller : ℕ}
    (hnot : caller ∉ woken ++ asleep) : takeUp ⟨value, line (caller :: woken) asleep⟩ caller
      = ⟨value - min value asleep.length,
          line (woken ++ asleep.take value) (asleep.drop value)⟩ := by
  rw [List.mem_append, not_or] at hnot
  have hgone : ∀ (callers : List ℕ) (flag : Bool), caller ∉ callers →
      (callers.map (·, flag)).filter (fun waiter => waiter.1 ≠ caller) = callers.map (·, flag) := by
    intro callers flag hcallers
    refine List.filter_eq_self.mpr fun waiter hwaiter => ?_
    obtain ⟨other, hother, rfl⟩ := List.mem_map.mp hwaiter
    simpa using fun heq : other = caller => hcallers (heq ▸ hother)
  have hline : (line (caller :: woken) asleep).filter (fun waiter => waiter.1 ≠ caller)
      = line woken asleep := by
    unfold line
    rw [List.filter_append, List.map_cons, List.filter_cons_of_neg (by simp), hgone woken _ hnot.1,
      hgone asleep _ hnot.2]
  unfold takeUp
  rw [hline]
  exact iterate_wakeUpNext_line value value woken asleep

end Semaphore

end Bisakerja
