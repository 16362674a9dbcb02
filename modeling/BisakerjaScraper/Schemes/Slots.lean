import Mathlib.Algebra.Order.Group.Defs
import Mathlib.Order.Lattice

/-! Slots a gap apart.

    Whoever asks is given the first slot that is free: the time of asking, or the end of the gap
    behind the slot before. Slots handed out so are a gap apart in the order of asking, and nobody
    waits longer than that takes. -/

namespace Schemes

universe u
variable {α : Type u}

/-- A slot: when it was asked for, and how long it was waited for. -/
structure Slot (α : Type u) where
  askedAt : α
  wait : α
  deriving DecidableEq

/-- When a slot begins. -/
def Slot.start [Add α] (slot : Slot α) : α := slot.askedAt + slot.wait

section
variable [AddCommGroup α] [LinearOrder α]

/-- The first slot for who asks at `askedAt`, when nothing is free before `free`. -/
def firstSlot (free askedAt : α) : Slot α := ⟨askedAt, max (free - askedAt) 0⟩

/-- A wait long enough for who asks after some slots. -/
def WaitSuffices (gap : α) (before : List (Slot α)) (askedAt wait : α) : Prop :=
  0 ≤ wait ∧ ∀ slot ∈ before, slot.start + gap ≤ askedAt + wait

/-- Slots a gap apart, in the order they were handed out in. -/
def Apart (gap : α) (slots : List (Slot α)) : Prop :=
  slots.Pairwise fun a b => a.start + gap ≤ b.start

/-- Nobody waits longer than it takes to be a gap behind the slots before, and past a time when the
    slots begin. -/
def Prompt (gap : α) (past : α → Prop) (slots : List (Slot α)) : Prop :=
  ∀ before slot after, slots = before ++ slot :: after → ∀ wait,
    past (slot.askedAt + wait) → WaitSuffices gap before slot.askedAt wait → slot.wait ≤ wait

/-- What a book of slots that begin past `origin` says, when the next one is free at `free`. -/
structure Booked (gap origin : α) (slots : List (Slot α)) (free : α) : Prop where
  apart : Apart gap slots
  prompt : Prompt gap (origin ≤ ·) slots
  ahead : ∀ slot ∈ slots, slot.start + gap ≤ free
  tight : free = origin ∨ ∃ slot ∈ slots, free = slot.start + gap

variable {gap origin free : α} {slots : List (Slot α)}

theorem Booked.nil (gap origin : α) : Booked gap origin [] origin where
  apart := List.Pairwise.nil
  prompt _ _ _ h := by simp at h
  ahead _ h := by simp at h
  tight := .inl rfl

/-- A wait that suffices reaches the time that is free. -/
theorem Booked.free_le (h : Booked gap origin slots free) {askedAt wait : α}
    (horigin : origin ≤ askedAt + wait) (hwait : WaitSuffices gap slots askedAt wait) :
    free ≤ askedAt + wait := by
  rcases h.tight with rfl | ⟨slot, hslot, rfl⟩
  · exact horigin
  · exact hwait.2 slot hslot

end

variable [AddCommGroup α] [LinearOrder α] [IsOrderedAddMonoid α] {gap origin free : α}
  {slots : List (Slot α)}

@[simp] theorem start_firstSlot (free askedAt : α) :
    (firstSlot free askedAt).start = max askedAt free := by
  change askedAt + max (free - askedAt) 0 = max askedAt free
  rw [add_max, add_sub_cancel, add_zero, max_comm]

/-- The next slot is a gap behind those before, and no wait is wasted on it. -/
theorem Booked.snoc (h : Booked gap origin slots free) (hgap : 0 ≤ gap) (askedAt : α) :
    Booked gap origin (slots ++ [firstSlot free askedAt])
      ((firstSlot free askedAt).start + gap) where
  apart := by
    refine List.pairwise_append.mpr ⟨h.apart, List.pairwise_singleton _ _, ?_⟩
    intro slot hslot next hnext
    cases List.mem_singleton.mp hnext
    rw [start_firstSlot]
    exact (h.ahead slot hslot).trans (le_max_right _ _)
  prompt := by
    intro before slot after hsplit wait hpast hwait
    rcases List.eq_nil_or_concat after with rfl | ⟨init, last, rfl⟩
    · -- the new slot: a wait that suffices reaches the time that is free
      obtain ⟨rfl, hslot⟩ := List.append_inj' hsplit rfl
      cases hslot
      have hfree := h.free_le hpast hwait
      exact max_le (sub_le_iff_le_add'.mpr hfree) hwait.1
    · have hsame : slots ++ [firstSlot free askedAt] = (before ++ slot :: init) ++ [last] := by
        simpa using hsplit
      have hcut : slots = before ++ slot :: init := (List.append_inj' hsame rfl).1
      exact h.prompt before slot init hcut wait hpast hwait
  ahead := by
    intro slot hslot
    rcases List.mem_append.mp hslot with hslot | hslot
    · rw [start_firstSlot]
      exact (h.ahead slot hslot).trans ((le_max_right _ _).trans (le_add_of_nonneg_right hgap))
    · rw [List.mem_singleton.mp hslot]
  tight := .inr ⟨_, List.mem_append_right _ (List.mem_singleton_self _), rfl⟩

end Schemes
