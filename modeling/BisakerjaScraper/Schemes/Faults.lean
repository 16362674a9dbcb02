import BisakerjaScraper.Schemes.Table
import Mathlib.Data.Nat.Find

/-! Writes that may fail.

    Writes are numbered over a run. One that fails raises, and leaves a state of its own choosing:
    part of the write, or a rollback. Of several writes in a row either all take effect, or the
    first that fails ends them. -/

namespace Schemes

universe u v
variable {σ : Type u} {ε : Type v}

/-- Which writes fail, by their numbers: what each raises and the state it leaves. -/
abbrev Faults (σ : Type u) (ε : Type v) := ℕ → Option (ε × σ)

/-- Some writes in a row, from a number and a state on: what was raised, the next number and the
    state. -/
def runWrites (faults : Faults σ ε) : List (σ → σ) → ℕ → σ → Option ε × ℕ × σ
  | [], n, s => (none, n, s)
  | write :: rest, n, s =>
    match faults n with
    | none => runWrites faults rest (n + 1) (write s)
    | some (exc, left) => (some exc, n + 1, left)

/-- Of `count` writes from number `n` on, the first that fails is the one `i` places later. -/
structure FirstFault (faults : Faults σ ε) (n count i : ℕ) (exc : ε) (left : σ) : Prop where
  lt : i < count
  before : ∀ j < i, faults (n + j) = none
  fails : faults (n + i) = some (exc, left)

variable {faults : Faults σ ε}

/-- Writes that do not fail take effect in order. -/
theorem runWrites_of_none {writes : List (σ → σ)} {n : ℕ} {s : σ}
    (h : ∀ i < writes.length, faults (n + i) = none) :
    runWrites faults writes n s
      = (none, n + writes.length, writes.foldl (fun s write => write s) s) := by
  induction writes generalizing n s with
  | nil => rfl
  | cons write rest ih =>
    have hfirst : faults n = none := h 0 (Nat.succ_pos _)
    have hrest : ∀ i < rest.length, faults (n + 1 + i) = none := fun i hi => by
      rw [Nat.add_assoc, Nat.add_comm 1]
      exact h (i + 1) (Nat.succ_lt_succ hi)
    simp only [runWrites, hfirst, ih hrest, List.foldl_cons, List.length_cons]
    rw [Nat.add_assoc, Nat.add_comm 1]

/-- The first failure ends the writes. -/
theorem runWrites_of_fault {writes : List (σ → σ)} {n i : ℕ} {s left : σ} {exc : ε}
    (h : FirstFault faults n writes.length i exc left) :
    runWrites faults writes n s = (some exc, n + i + 1, left) := by
  induction writes generalizing n i s with
  | nil => exact absurd h.lt (Nat.not_lt_zero _)
  | cons write rest ih =>
    cases i with
    | zero =>
      have hfails : faults n = some (exc, left) := h.fails
      simp only [runWrites, hfails, Nat.add_zero]
    | succ i =>
      have hfirst : faults n = none := h.before 0 (Nat.succ_pos _)
      have hrest : FirstFault faults (n + 1) rest.length i exc left := by
        refine ⟨Nat.lt_of_succ_lt_succ h.lt, fun j hj => ?_, ?_⟩
        · rw [Nat.add_assoc, Nat.add_comm 1]
          exact h.before (j + 1) (Nat.succ_lt_succ hj)
        · rw [Nat.add_assoc, Nat.add_comm 1]
          exact h.fails
      simp only [runWrites, hfirst, ih hrest]
      congr 2
      omega

/-- There is one first failure. -/
theorem FirstFault.unique {n count i i' : ℕ} {exc exc' : ε} {left left' : σ}
    (h : FirstFault faults n count i exc left) (h' : FirstFault faults n count i' exc' left') :
    i' = i ∧ exc' = exc ∧ left' = left := by
  have hi : i' = i := by
    rcases Nat.lt_trichotomy i' i with hlt | heq | hlt
    · exact absurd (h.before i' hlt) (by rw [h'.fails]; simp)
    · exact heq
    · exact absurd (h'.before i hlt) (by rw [h.fails]; simp)
  subst hi
  have hfails := h'.fails.symm.trans h.fails
  simp only [Option.some.injEq, Prod.mk.injEq] at hfails
  exact ⟨rfl, hfails⟩

/-- Either no write fails or there is a first that does. -/
theorem none_or_firstFault (faults : Faults σ ε) (n count : ℕ) :
    (∀ i < count, faults (n + i) = none) ∨ ∃ i exc left, FirstFault faults n count i exc left := by
  by_cases h : ∃ i, i < count ∧ (faults (n + i)).isSome = true
  · right
    obtain ⟨hlt, hsome⟩ := Nat.find_spec h
    obtain ⟨⟨exc, left⟩, hfails⟩ := Option.isSome_iff_exists.mp hsome
    refine ⟨Nat.find h, exc, left, hlt, fun j hj => ?_, hfails⟩
    have hnot := Nat.find_min h hj
    by_contra hne
    exact hnot ⟨Nat.lt_trans hj hlt, Option.isSome_iff_ne_none.mpr hne⟩
  · left
    intro i hi
    by_contra hne
    exact h ⟨i, hi, Option.isSome_iff_ne_none.mpr hne⟩

namespace Table

variable {α : Type u} {κ : Type v} {key : α → κ} [DecidableEq κ]

/-- Two rewritings of one row in a row. -/
theorem modify_modify (t : Table α key) (k : κ) {f g : α → α} (hf : ∀ r, key (f r) = key r)
    (hg : ∀ r, key (g r) = key r) :
    (t.modify k f hf).modify k g hg
      = t.modify k (fun r => g (f r)) fun r => (hg (f r)).trans (hf r) := by
  unfold modify
  congr 1
  rw [List.map_map]
  refine List.map_congr_left fun r _ => ?_
  by_cases h : key r = k <;> simp [h, hf]

/-- A rewriting that changes nothing. -/
theorem modify_id (t : Table α key) (k : κ) : t.modify k (fun r => r) (fun _ => rfl) = t := by
  cases t with
  | mk rows unique =>
    unfold modify
    congr 1
    simp

end Table

end Schemes
