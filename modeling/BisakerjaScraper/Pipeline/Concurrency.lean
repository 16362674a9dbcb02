import BisakerjaScraper.Python.Locks
import BisakerjaScraper.Schemes.Table
import Mathlib.Algebra.Order.Ring.Int
import Mathlib.Data.List.Nodup
import Mathlib.Data.List.Perm.Subperm

/-! Calls gathered under a semaphore.

    `map_with_concurrency` starts a coroutine for each item, lets so many of them into the mapper at
    a time, and gathers what they return. Which of the calls ends next is not known beforehand.
    Whatever it is: the calls begin in the order of the items, never more of them are under way than
    there are places, no place is lost, and the list that is returned is in the order of the items. -/

namespace Bisakerja
open Schemes

variable {ε β : Type}

/-- What may happen next. The event loop goes on with what is ready in the order in which it became
    ready; so the coroutines start in order, and of those woken the first of the line goes on. -/
inductive PoolEvent (ε β : Type) where
  | start
  | resume
  | finish (call : ℕ) (result : Except ε β)

/-- The coroutines: how many have run to their first await, the mapper calls that have begun, and
    those that have ended, in the order of time. -/
structure Pool (ε β : Type) where
  semaphore : Semaphore
  started : ℕ := 0
  begun : List ℕ := []
  ended : List (ℕ × Except ε β) := []

namespace Pool

variable (count : ℕ) (s : Pool ε β)

/-- The calls under way. -/
def running : List ℕ := s.begun.filter fun call => call ∉ s.ended.map Prod.fst

/-- One event. What cannot happen changes nothing. -/
def step : PoolEvent ε β → Pool ε β
  | .start =>
    if s.started < count then
      match s.semaphore.acquire s.started with
      | (semaphore, true) =>
        { s with semaphore, started := s.started + 1, begun := s.begun ++ [s.started] }
      | (semaphore, false) => { s with semaphore, started := s.started + 1 }
    else s
  | .resume =>
    match s.semaphore.waiters with
    | (call, true) :: _ =>
      { s with semaphore := s.semaphore.takeUp call, begun := s.begun ++ [call] }
    | _ => s
  | .finish call result =>
    if call ∈ s.running then
      { s with semaphore := s.semaphore.release, ended := s.ended ++ [(call, result)] }
    else s

/-- The first failure. -/
def failure : Option ε := s.ended.findSome? fun entry =>
  match entry.2 with
  | .error exc => some exc
  | .ok _ => none

/-- What a call has returned. -/
def returned (call : ℕ) : Option β :=
  (s.ended.find? fun entry => entry.1 = call).bind fun entry => entry.2.toOption

/-- The future of `asyncio.gather`: the first failure, else the results when all have ended. -/
def outcome : Option (Except ε (List β)) :=
  match s.failure with
  | some exc => some (.error exc)
  | none =>
    if s.ended.length = count then some (.ok ((List.range count).filterMap s.returned)) else none

/-- How far the coroutines have come, all together. -/
def progress : ℕ := s.started + s.begun.length + s.ended.length

/-- What is known at any time of a gathering of so many calls. -/
structure Gathered (count : ℕ) (concurrency : ℤ) (s : Pool ε β) : Prop where
  inOrder : s.begun <+: List.range count
  bounded : (s.running.length : ℤ) ≤ max concurrency 1
  moves : ∀ event, s.step count event = s ∨ s.progress < (s.step count event).progress
  finite : s.progress ≤ 3 * count
  goesOn : s.ended.length < count → ∀ result, ∃ event ∈ [.start, .resume] ++
    s.running.map (.finish · result), s.progress < (s.step count event).progress
  done : (s.outcome count).isSome = true ↔
    s.ended.length = count ∨ ∃ entry ∈ s.ended, entry.2.isOk = false
  results : ∀ results, s.outcome count = some (.ok results) →
    results.length = count ∧ ∀ (i : ℕ) (hi : i < results.length), (i, .ok results[i]) ∈ s.ended
  raised : ∀ exc, s.outcome count = some (.error exc) → ∃ front call back,
    s.ended = front ++ (call, .error exc) :: back ∧ ∀ entry ∈ front, entry.2.isOk = true

end Pool

/-- `map_with_concurrency` on so many items, after some events. -/
def mapWithConcurrency (count : ℕ) (concurrency : ℤ) (events : List (PoolEvent ε β)) : Pool ε β :=
  events.foldl (Pool.step count) { semaphore := { value := (max concurrency 1).toNat } }

namespace Pool

/-- What holds of the coroutines at any time, with those who have been woken and those asleep. -/
structure Sound (count places : ℕ) (s : Pool ε β) (woken asleep : List ℕ) : Prop where
  waiters : s.semaphore.waiters = Semaphore.line woken asleep
  idle : woken = [] → asleep = [] ∨ s.semaphore.value = 0
  places : s.semaphore.value + woken.length + s.begun.length = places + s.ended.length
  order : s.begun ++ (woken ++ asleep) = List.range s.started
  started : s.started ≤ count
  once : (s.ended.map Prod.fst).Nodup
  begun : ∀ entry ∈ s.ended, entry.1 ∈ s.begun

variable {count places : ℕ} {s : Pool ε β} {woken asleep : List ℕ}

theorem Sound.nodup (h : s.Sound count places woken asleep) :
    (s.begun ++ (woken ++ asleep)).Nodup := by
  rw [h.order]
  exact List.nodup_range

theorem Sound.semaphore (h : s.Sound count places woken asleep) :
    s.semaphore = ⟨s.semaphore.value, Semaphore.line woken asleep⟩ := by
  rw [← h.waiters]

/-- Each call that has begun is under way or has ended. -/
theorem Sound.length_running (h : s.Sound count places woken asleep) :
    s.running.length + s.ended.length = s.begun.length := by
  have hnodup : s.begun.Nodup := h.nodup.of_append_left
  have hperm : (s.begun.filter fun call => call ∈ s.ended.map Prod.fst).Perm
      (s.ended.map Prod.fst) := by
    refine (List.perm_ext_iff_of_nodup (hnodup.filter _) h.once).mpr fun call => ?_
    rw [List.mem_filter, decide_eq_true_eq, and_iff_right_iff_imp]
    intro hcall
    obtain ⟨entry, hentry, rfl⟩ := List.mem_map.mp hcall
    exact h.begun entry hentry
  have hlen := hperm.length_eq
  rw [List.length_map] at hlen
  have hsplit := List.length_eq_length_filter_add (l := s.begun)
    fun call => decide (call ∈ s.ended.map Prod.fst)
  unfold running
  simp only [decide_not]
  omega

/-! ### One event -/

/-- A coroutine starts: it has a place at once, or goes to the end of the line. -/
theorem Sound.start (h : s.Sound count places woken asleep) (hlt : s.started < count) :
    ∃ woken' asleep', (s.step count .start).Sound count places woken' asleep' ∧
      s.progress < (s.step count .start).progress := by
  have horder := h.order
  simp only [step, if_pos hlt]
  by_cases hfree : s.semaphore.value ≠ 0 ∧ s.semaphore.waiters = []
  · have hline := h.waiters.symm.trans hfree.2
    obtain ⟨rfl, rfl⟩ : woken = [] ∧ asleep = [] := by simpa [Semaphore.line] using hline
    have hacquire : s.semaphore.acquire s.started
        = ({ s.semaphore with value := s.semaphore.value - 1 }, true) := by
      rw [Semaphore.acquire, if_pos hfree]
    rw [hacquire]
    have hplaces := h.places
    refine ⟨[], [], ⟨h.waiters, fun _ => .inl rfl, ?_, ?_, hlt, h.once, fun entry hentry => ?_⟩, ?_⟩
    · simp only [List.length_append, List.length_nil, List.length_singleton] at hplaces ⊢
      omega
    · rw [List.append_nil, List.append_nil] at horder ⊢
      rw [horder, List.range_succ]
    · exact List.mem_append_left _ (h.begun entry hentry)
    · simp only [progress, List.length_append, List.length_singleton]
      omega
  · have hbusy : s.semaphore.value = 0 ∨ Semaphore.line woken asleep ≠ [] := by
      rw [← h.waiters]
      tauto
    have hacquire : s.semaphore.acquire s.started
        = (⟨s.semaphore.value, Semaphore.line woken (asleep ++ [s.started])⟩, false) := by
      rw [h.semaphore]
      exact Semaphore.acquire_line_sleep _ _ _ _ hbusy
    rw [hacquire]
    refine ⟨woken, asleep ++ [s.started], ⟨rfl, fun hwoken => ?_, h.places, ?_, hlt, h.once, h.begun⟩,
      ?_⟩
    · rcases hbusy with hzero | hline
      · exact .inr hzero
      · refine (h.idle hwoken).imp_left fun hasleep => absurd ?_ hline
        rw [hwoken, hasleep]
        rfl
    · rw [List.range_succ, ← horder, List.append_assoc, List.append_assoc]
    · simp only [progress]
      omega

/-- The first of those woken goes on: its call begins. -/
theorem Sound.resume {call : ℕ} (h : s.Sound count places (call :: woken) asleep) :
    ∃ woken' asleep', (s.step count .resume).Sound count places woken' asleep' ∧
      s.progress < (s.step count .resume).progress := by
  have hnodup := h.nodup
  have hnot : call ∉ woken ++ asleep := by
    rw [List.cons_append] at hnodup
    exact (List.nodup_cons.mp hnodup.of_append_right).1
  have hstep : s.step count .resume
      = { s with
          semaphore := ⟨s.semaphore.value - min s.semaphore.value asleep.length, Semaphore.line
            (woken ++ asleep.take s.semaphore.value) (asleep.drop s.semaphore.value)⟩
          begun := s.begun ++ [call] } := by
    have hwaiters : s.semaphore.waiters = (call, true) :: Semaphore.line woken asleep := h.waiters
    simp only [step, hwaiters]
    rw [← Semaphore.takeUp_line hnot, ← h.semaphore]
  rw [hstep]
  have hplaces := h.places
  refine ⟨woken ++ asleep.take s.semaphore.value, asleep.drop s.semaphore.value,
    ⟨rfl, fun _ => ?_, ?_, ?_, h.started, h.once, fun entry hentry => ?_⟩, ?_⟩
  · rcases le_total asleep.length s.semaphore.value with hle | hle
    · exact .inl (List.drop_eq_nil_of_le hle)
    · right
      dsimp only
      omega
  · simp only [List.length_append, List.length_cons, List.length_take, List.length_nil] at hplaces ⊢
    omega
  · rw [List.append_assoc, List.append_assoc, List.take_append_drop, ← h.order]
    rfl
  · exact List.mem_append_left _ (h.begun entry hentry)
  · simp only [progress, List.length_append, List.length_singleton]
    omega

/-- A call ends: its place goes to the first of those asleep, or is free. -/
theorem Sound.finish {call : ℕ} (h : s.Sound count places woken asleep) (hcall : call ∈ s.running)
    (result : Except ε β) :
    ∃ woken' asleep', (s.step count (.finish call result)).Sound count places woken' asleep' ∧
      s.progress < (s.step count (.finish call result)).progress := by
  obtain ⟨hbegun, hnot⟩ := List.mem_filter.mp hcall
  rw [decide_eq_true_eq] at hnot
  have hplaces := h.places
  simp only [step, if_pos hcall]
  have honce : ((s.ended ++ [(call, result)]).map Prod.fst).Nodup := by
    rw [List.map_append, List.nodup_append]
    refine ⟨h.once, List.nodup_singleton _, fun other hother call' hcall' => ?_⟩
    obtain rfl : call' = call := List.mem_singleton.mp hcall'
    exact fun heq : other = call' => hnot (heq ▸ hother)
  have hended : ∀ entry ∈ s.ended ++ [(call, result)], entry.1 ∈ s.begun := by
    intro entry hentry
    rcases List.mem_append.mp hentry with hold | hnew
    · exact h.begun entry hold
    · rw [List.mem_singleton.mp hnew]
      exact hbegun
  have hprogress : s.progress
      < s.started + s.begun.length + (s.ended ++ [(call, result)]).length := by
    simp only [progress, List.length_append, List.length_singleton]
    omega
  cases asleep with
  | nil =>
    have hrelease : s.semaphore.release = ⟨s.semaphore.value + 1, Semaphore.line woken []⟩ := by
      rw [h.semaphore]
      exact Semaphore.release_line_nil _ _
    rw [hrelease]
    refine ⟨woken, [], ⟨rfl, fun _ => .inl rfl, ?_, h.order, h.started, honce, hended⟩, hprogress⟩
    simp only [List.length_append, List.length_singleton]
    omega
  | cons caller asleep =>
    have hrelease : s.semaphore.release
        = ⟨s.semaphore.value, Semaphore.line (woken ++ [caller]) asleep⟩ := by
      rw [h.semaphore]
      exact Semaphore.release_line_cons _ _ _ _
    rw [hrelease]
    refine ⟨woken ++ [caller], asleep, ⟨rfl, by simp, ?_, ?_, h.started, honce, hended⟩, hprogress⟩
    · simp only [List.length_append, List.length_singleton]
      omega
    · rw [List.append_assoc, List.singleton_append]
      exact h.order

/-- An event changes nothing, or brings the coroutines on. -/
theorem Sound.step (h : s.Sound count places woken asleep) (event : PoolEvent ε β) :
    (∃ woken' asleep', (s.step count event).Sound count places woken' asleep') ∧
      (s.step count event = s ∨ s.progress < (s.step count event).progress) := by
  have hidle : s.step count event = s →
      (∃ woken' asleep', (s.step count event).Sound count places woken' asleep') ∧
        (s.step count event = s ∨ s.progress < (s.step count event).progress) := fun hsame =>
    ⟨⟨woken, asleep, hsame.symm ▸ h⟩, .inl hsame⟩
  have hmoved : (∃ woken' asleep', (s.step count event).Sound count places woken' asleep' ∧
      s.progress < (s.step count event).progress) →
      (∃ woken' asleep', (s.step count event).Sound count places woken' asleep') ∧
        (s.step count event = s ∨ s.progress < (s.step count event).progress) :=
    fun ⟨woken', asleep', hsound, hprogress⟩ => ⟨⟨woken', asleep', hsound⟩, .inr hprogress⟩
  cases event with
  | start =>
    by_cases hlt : s.started < count
    · exact hmoved (h.start hlt)
    · exact hidle (by simp only [Pool.step, if_neg hlt])
  | resume =>
    cases woken with
    | nil =>
      refine hidle ?_
      have hwaiters := h.waiters
      simp only [Pool.step, hwaiters]
      cases asleep <;> rfl
    | cons call woken => exact hmoved h.resume
  | finish call result =>
    by_cases hcall : call ∈ s.running
    · exact hmoved (h.finish hcall result)
    · exact hidle (by simp only [Pool.step, if_neg hcall])

/-! ### Any sequence of events -/

theorem Sound.after (h : s.Sound count places woken asleep) (events : List (PoolEvent ε β)) :
    ∃ woken' asleep', (events.foldl (Pool.step count) s).Sound count places woken' asleep' := by
  induction events generalizing s woken asleep with
  | nil => exact ⟨woken, asleep, h⟩
  | cons event rest ih =>
    obtain ⟨woken', asleep', hnext⟩ := (h.step event).1
    exact ih hnext

theorem sound_begin (count places : ℕ) :
    ({ semaphore := { value := places } } : Pool ε β).Sound count places [] [] where
  waiters := rfl
  idle _ := .inl rfl
  places := rfl
  order := rfl
  started := Nat.zero_le count
  once := List.nodup_nil
  begun _ h := absurd h List.not_mem_nil

/-! ### How far it goes -/

theorem Sound.begun_le (h : s.Sound count places woken asleep) :
    s.begun.length + (woken.length + asleep.length) = s.started := by
  have hlen := congrArg List.length h.order
  simpa using hlen

theorem Sound.progress_le (h : s.Sound count places woken asleep) : s.progress ≤ 3 * count := by
  have hbegun := h.begun_le
  have hrunning := h.length_running
  have hstarted := h.started
  unfold progress
  omega

/-- While a call has not ended, something can happen. -/
theorem Sound.not_stuck (h : s.Sound count places woken asleep) (hplaces : 1 ≤ places)
    (hleft : s.ended.length < count) (result : Except ε β) :
    ∃ event ∈ [.start, .resume] ++ s.running.map (.finish · result),
      s.progress < (s.step count event).progress := by
  by_cases hlt : s.started < count
  · obtain ⟨-, -, -, hprogress⟩ := h.start hlt
    exact ⟨.start, by simp, hprogress⟩
  cases woken with
  | cons call woken =>
    obtain ⟨-, -, -, hprogress⟩ := h.resume
    exact ⟨.resume, by simp, hprogress⟩
  | nil =>
    cases hrunning : s.running with
    | cons call rest =>
      obtain ⟨-, -, -, hprogress⟩ := h.finish (hrunning ▸ List.mem_cons_self) result
      exact ⟨.finish call result, by simp, hprogress⟩
    | nil =>
      -- every place is free, so nobody sleeps, and all calls have ended
      have hbegun := h.begun_le
      have hended := h.length_running
      have hkept := h.places
      rw [hrunning, List.length_nil] at hended
      rw [List.length_nil] at hbegun hkept
      rcases h.idle rfl with rfl | hzero
      · rw [List.length_nil] at hbegun
        omega
      · omega

/-! ### What is gathered -/

/-- When as many have ended as there are, each has. -/
theorem Sound.all_ended (h : s.Sound count places woken asleep) (hall : s.ended.length = count)
    {call : ℕ} (hcall : call < count) : ∃ result, (call, result) ∈ s.ended := by
  have hsub : s.ended.map Prod.fst ⊆ List.range count := by
    intro other hother
    obtain ⟨entry, hentry, rfl⟩ := List.mem_map.mp hother
    have hmem : entry.1 ∈ List.range s.started := by
      rw [← h.order]
      exact List.mem_append_left _ (h.begun entry hentry)
    exact List.mem_range.mpr ((List.mem_range.mp hmem).trans_le h.started)
  have hperm := (List.subperm_of_subset h.once hsub).perm_of_length_le (by simp [hall])
  obtain ⟨entry, hentry, heq⟩ := List.mem_map.mp (hperm.mem_iff.mpr (List.mem_range.mpr hcall))
  exact ⟨entry.2, heq ▸ hentry⟩

theorem failure_eq_none_iff : s.failure = none ↔ ∀ entry ∈ s.ended, entry.2.isOk = true := by
  unfold failure
  rw [List.findSome?_eq_none_iff]
  refine forall₂_congr fun entry _ => ?_
  rcases entry.2 with exc | value <;> simp [Except.isOk, Except.toBool]

/-- The results are in the order of the items. -/
theorem Sound.outcome_ok (h : s.Sound count places woken asleep) {results : List β}
    (hout : s.outcome count = some (.ok results)) :
    results.length = count ∧ ∀ (i : ℕ) (hi : i < results.length), (i, .ok results[i]) ∈ s.ended := by
  unfold outcome at hout
  split at hout
  · cases hout
  · next hnone =>
    split at hout
    · next hall =>
      have hvalue : ∀ call ∈ List.range count, ∃ value, s.returned call = some value ∧
          (call, .ok value) ∈ s.ended := by
        intro call hcall
        obtain ⟨result, hresult⟩ := h.all_ended hall (List.mem_range.mp hcall)
        have hok := failure_eq_none_iff.mp hnone _ hresult
        rcases result with exc | value
        · cases hok
        · have hfind : s.ended.find? (fun entry => entry.1 = call) = some (call, .ok value) :=
            Table.find?_of_mem (t := ⟨s.ended, h.once⟩) hresult
          refine ⟨value, ?_, hresult⟩
          rw [returned, hfind]
          rfl
      obtain rfl : (List.range count).filterMap s.returned = results := by simpa using hout
      have hmap : ((List.range count).filterMap s.returned).map some
          = (List.range count).map s.returned := by
        rw [List.map_filterMap_some_eq_filter_map_isSome, List.filter_eq_self]
        intro returned hreturned
        obtain ⟨call, hcall, rfl⟩ := List.mem_map.mp hreturned
        obtain ⟨value, hvalue, -⟩ := hvalue call hcall
        rw [hvalue]
        rfl
      have hlen := congrArg List.length hmap
      rw [List.length_map, List.length_map, List.length_range] at hlen
      refine ⟨hlen, fun i hi => ?_⟩
      obtain ⟨value, hi', hended⟩ := hvalue i (List.mem_range.mpr (hlen ▸ hi))
      have hget := congrArg (fun l : List (Option β) => l[i]?) hmap
      simp only [List.getElem?_map, List.getElem?_range (hlen ▸ hi), Option.map_some, hi',
        List.getElem?_eq_getElem hi, Option.some.injEq] at hget
      rw [hget]
      exact hended
    · cases hout

/-- The failure that is raised is the first in time. -/
theorem outcome_error {exc : ε} (hout : s.outcome count = some (.error exc)) :
    ∃ front call back, s.ended = front ++ (call, .error exc) :: back ∧
      ∀ entry ∈ front, entry.2.isOk = true := by
  have hfailure : s.failure = some exc := by
    unfold outcome at hout
    split at hout
    · next hsome =>
      rw [hsome]
      simpa using hout
    · split at hout <;> cases hout
  obtain ⟨front, entry, back, hended, hexc, hfront⟩ := List.findSome?_eq_some_iff.mp hfailure
  obtain ⟨call, result⟩ := entry
  rcases result with exc' | value
  · obtain rfl : exc' = exc := by simpa using hexc
    refine ⟨front, call, back, hended, fun entry hentry => ?_⟩
    have hnone := hfront entry hentry
    rcases entry with ⟨other, exc'' | value⟩
    · cases hnone
    · rfl
  · cases hexc

theorem outcome_isSome_iff : (s.outcome count).isSome = true ↔
    s.ended.length = count ∨ ∃ entry ∈ s.ended, entry.2.isOk = false := by
  have hfailure := failure_eq_none_iff (s := s)
  unfold outcome
  cases hfail : s.failure with
  | some exc =>
    rw [hfail] at hfailure
    simp only [reduceCtorEq, false_iff, not_forall, Bool.not_eq_true] at hfailure
    obtain ⟨entry, hentry, herror⟩ := hfailure
    exact iff_of_true rfl (.inr ⟨entry, hentry, herror⟩)
  | none =>
    have hok := hfailure.mp hfail
    have hnot : ¬ ∃ entry ∈ s.ended, entry.2.isOk = false := fun ⟨entry, hentry, herror⟩ => by
      rw [hok entry hentry] at herror
      cases herror
    rw [or_iff_left hnot]
    split <;> simp_all

/-- What the future is set to, it stays. -/
theorem Sound.outcome_step (h : s.Sound count places woken asleep) {out : Except ε (List β)}
    (hout : s.outcome count = some out) (event : PoolEvent ε β) :
    (s.step count event).outcome count = some out := by
  have hsame : ∀ s' : Pool ε β, s'.ended = s.ended → s'.outcome count = some out := by
    intro s' hended
    rw [← hout]
    unfold outcome failure returned
    rw [hended]
  cases event with
  | start =>
    refine hsame _ ?_
    unfold Pool.step
    dsimp only
    split
    · split <;> rfl
    · rfl
  | resume =>
    refine hsame _ ?_
    unfold Pool.step
    dsimp only
    split <;> rfl
  | finish call result =>
    by_cases hcall : call ∈ s.running
    · -- a call is still under way, so the future was set by a failure
      have hpos := List.length_pos_of_mem hcall
      have hrunning := h.length_running
      have hbegun := h.begun_le
      have hstarted := h.started
      have hleft : s.ended.length ≠ count := by omega
      unfold outcome at hout
      split at hout
      · next exc hfail =>
        have hstill : (s.step count (.finish call result)).failure = some exc := by
          simp only [Pool.step, if_pos hcall, failure, List.findSome?_append]
          unfold failure at hfail
          rw [hfail]
          rfl
        unfold outcome
        rw [hstill]
        exact hout
      · rw [if_neg hleft] at hout
        cases hout
    · refine hsame _ ?_
      simp only [Pool.step, if_neg hcall]

theorem Sound.outcome_after (h : s.Sound count places woken asleep) {out : Except ε (List β)}
    (hout : s.outcome count = some out) (events : List (PoolEvent ε β)) :
    (events.foldl (Pool.step count) s).outcome count = some out := by
  induction events generalizing s woken asleep with
  | nil => exact hout
  | cons event rest ih =>
    obtain ⟨woken', asleep', hnext⟩ := (h.step event).1
    exact ih hnext (h.outcome_step hout event)

theorem Sound.gathered {concurrency : ℤ} (h : s.Sound count (max concurrency 1).toNat woken asleep) :
    s.Gathered count concurrency where
  inOrder := by
    obtain ⟨more, hmore⟩ := Nat.exists_eq_add_of_le h.started
    have hrange : List.range s.started <+: List.range count := by
      rw [hmore, List.range_add]
      exact List.prefix_append _ _
    exact (h.order ▸ List.prefix_append _ _).trans hrange
  bounded := by
    have hplaces := h.places
    have hrunning := h.length_running
    omega
  moves event := (h.step event).2
  finite := h.progress_le
  goesOn hleft result := h.not_stuck (by omega) hleft result
  done := outcome_isSome_iff
  results _ hout := h.outcome_ok hout
  raised _ hout := outcome_error hout

end Pool

/-- At any time the mapper calls that have begun are the first of the items in their order, and no
    more of them are under way than `concurrency` allows. While one has not ended something can
    happen, each event that is not void brings the coroutines on, and there are at most three for
    each item. The future is set when all calls have ended or one has failed; it is set once, to
    the results in the order of the items, or to the failure that was first in time. -/
theorem mapWithConcurrency_gathered (count : ℕ) (concurrency : ℤ)
    (events later : List (PoolEvent ε β)) :
    let s := mapWithConcurrency count concurrency events
    s.Gathered count concurrency ∧ ∀ out, s.outcome count = some out →
      (mapWithConcurrency count concurrency (events ++ later)).outcome count = some out := by
  obtain ⟨woken, asleep, h⟩ :=
    (Pool.sound_begin (ε := ε) (β := β) count (max concurrency 1).toNat).after events
  refine ⟨h.gathered, fun out hout => ?_⟩
  unfold mapWithConcurrency
  rw [List.foldl_append]
  exact h.outcome_after hout later

/-- Three items, two at a time: the second ends first, and the third takes its place. -/
example : (mapWithConcurrency 3 2 [.start, .start, .start, .finish 1 (.ok "b"), .resume,
    .finish 2 (.ok "c"), .finish 0 (.ok "a")] : Pool String String).outcome 3
      = some (.ok ["a", "b", "c"]) := rfl

end Bisakerja
