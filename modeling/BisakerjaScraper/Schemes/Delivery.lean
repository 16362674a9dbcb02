import Mathlib.Data.Nat.Basic
import Mathlib.Logic.Relation
import Mathlib.Tactic.Cases

/-! Deliveries with a retry budget.

    A delivery is pending, was acknowledged, failed with attempts left, or was given up; its mark
    counts the attempts. An attempt is legal while the delivery is pending or has failed below the
    budget, and it ends in success or in a failure that may cut the budget short. A ledger holds
    one mark per key. Over any run of legal attempts the counts stay within the budget, and an
    acknowledged or given-up delivery is never touched again. -/

namespace Schemes.Delivery

universe u

/-- Where a delivery stands. -/
inductive Status where | pending | sent | failed | dead
  deriving DecidableEq

/-- A status with the number of attempts made. -/
structure Mark where
  status : Status
  attempts : ℕ
  deriving DecidableEq

namespace Mark

/-- The mark a delivery starts with. -/
def fresh : Mark := ⟨.pending, 0⟩

/-- One more attempt, acknowledged. -/
def succeed (m : Mark) : Mark := ⟨.sent, m.attempts + 1⟩

/-- One more attempt, failed; it is the last one when `budget` attempts are used up. -/
def fail (budget : ℕ) (m : Mark) : Mark :=
  ⟨if budget ≤ m.attempts + 1 then .dead else .failed, m.attempts + 1⟩

/-- Another attempt is due. -/
def Retryable (budget : ℕ) (m : Mark) : Prop :=
  m.status = .pending ∨ (m.status = .failed ∧ m.attempts < budget)

/-- Acknowledged or given up. -/
def Terminal (m : Mark) : Prop := m.status = .sent ∨ m.status = .dead

/-- What the marks of a budget satisfy: a pending delivery is untried, a failed one has attempts
    left, and no count exceeds the budget. -/
structure InBudget (budget : ℕ) (m : Mark) : Prop where
  attempts_le : m.attempts ≤ budget
  of_pending : m.status = .pending → m.attempts = 0
  of_failed : m.status = .failed → m.attempts < budget

end Mark

/-- One legal attempt. -/
inductive Step (budget : ℕ) : Mark → Mark → Prop
  | succeed {m : Mark} (h : m.Retryable budget) : Step budget m m.succeed
  | fail {m : Mark} {cut : ℕ} (h : m.Retryable budget) (hle : cut ≤ budget) :
      Step budget m (m.fail cut)

/-! ### One attempt -/

theorem Mark.not_terminal_of_retryable {budget : ℕ} {m : Mark} (h : m.Retryable budget) :
    ¬ m.Terminal := by
  rcases h with h | ⟨h, -⟩ <;> simp [Terminal, h]

theorem Mark.fresh_inBudget (budget : ℕ) : Mark.fresh.InBudget budget :=
  ⟨Nat.zero_le _, fun _ => rfl, fun h => by cases h⟩

theorem Mark.fresh_retryable (budget : ℕ) : Mark.fresh.Retryable budget := Or.inl rfl

/-- Below the budget, a retryable mark has an attempt left. -/
theorem Mark.attempts_lt_of_retryable {budget : ℕ} {m : Mark} (hpos : 1 ≤ budget)
    (h : m.Retryable budget) (hm : m.InBudget budget) : m.attempts < budget := by
  rcases h with h | ⟨-, h⟩
  · rw [hm.of_pending h]
    exact hpos
  · exact h

theorem Mark.Retryable.mono {budget budget' : ℕ} {m : Mark} (h : m.Retryable budget)
    (hle : budget ≤ budget') : m.Retryable budget' :=
  h.imp_right fun h => ⟨h.1, Nat.lt_of_lt_of_le h.2 hle⟩

theorem Mark.fail_terminal_of_le {cut : ℕ} {m : Mark} (h : cut ≤ m.attempts + 1) :
    (m.fail cut).Terminal := by
  simp [Mark.fail, Mark.Terminal, h]

theorem Mark.succeed_terminal (m : Mark) : m.succeed.Terminal := Or.inl rfl

theorem Mark.fail_status_ne_sent (cut : ℕ) (m : Mark) : (m.fail cut).status ≠ .sent := by
  unfold Mark.fail
  split <;> simp

/-- An attempt keeps every mark within the budget. -/
theorem Step.inBudget {budget : ℕ} {m m' : Mark} (hpos : 1 ≤ budget) (h : Step budget m m')
    (hm : m.InBudget budget) : m'.InBudget budget := by
  cases h with
  | succeed h =>
    exact ⟨Mark.attempts_lt_of_retryable hpos h hm, fun h' => (by cases h'), fun h' => (by cases h')⟩
  | @fail cut h hle =>
    have hlt := Mark.attempts_lt_of_retryable hpos h hm
    refine ⟨hlt, fun h' => ?_, fun h' => ?_⟩
    · simp only [Mark.fail] at h'
      split at h' <;> cases h'
    · simp only [Mark.fail] at h' ⊢
      split at h'
      · cases h'
      · omega

/-- An attempt leaves only `pending` and `failed`, and never goes back to `pending`. -/
theorem Step.statuses {budget : ℕ} {m m' : Mark} (h : Step budget m m') :
    (m.status = .pending ∨ m.status = .failed) ∧
      (m'.status = .sent ∨ m'.status = .failed ∨ m'.status = .dead) := by
  cases h with
  | succeed h => exact ⟨h.imp_right And.left, Or.inl rfl⟩
  | @fail cut h _ =>
    refine ⟨h.imp_right And.left, Or.inr ?_⟩
    by_cases hc : cut ≤ m.attempts + 1 <;> simp [Mark.fail, hc]

theorem Step.not_terminal {budget : ℕ} {m m' : Mark} (h : Step budget m m') : ¬ m.Terminal := by
  cases h with
  | succeed h => exact Mark.not_terminal_of_retryable h
  | fail h _ => exact Mark.not_terminal_of_retryable h

/-! ### Runs of attempts -/

/-- Any number of legal attempts. -/
abbrev Steps (budget : ℕ) : Mark → Mark → Prop := Relation.ReflTransGen (Step budget)

theorem Steps.inBudget {budget : ℕ} {m m' : Mark} (hpos : 1 ≤ budget) (h : Steps budget m m')
    (hm : m.InBudget budget) : m'.InBudget budget := by
  induction h with
  | refl => exact hm
  | tail _ hstep ih => exact hstep.inBudget hpos ih

/-- Nothing follows an acknowledged or given-up delivery. -/
theorem Steps.eq_of_terminal {budget : ℕ} {m m' : Mark} (h : Steps budget m m')
    (hm : m.Terminal) : m' = m := by
  rcases Relation.ReflTransGen.cases_head h with rfl | ⟨_, hstep, -⟩
  · rfl
  · exact absurd hm hstep.not_terminal

/-! ### Ledgers -/

/-- One mark per key, for the keys that have a delivery. -/
abbrev Ledger (κ : Type u) := κ → Option Mark

/-- A delivery that is due: not started, or retryable. -/
def Due (budget : ℕ) (o : Option Mark) : Prop := ∀ m, o = some m → m.Retryable budget

/-- A delivery that is due and, if started, within the budget. -/
def Ready (budget : ℕ) (o : Option Mark) : Prop :=
  ∀ m, o = some m → m.Retryable budget ∧ m.InBudget budget

theorem Ready.getD {budget : ℕ} {o : Option Mark} (h : Ready budget o) :
    (o.getD Mark.fresh).Retryable budget ∧ (o.getD Mark.fresh).InBudget budget := by
  cases o with
  | none => exact ⟨Mark.fresh_retryable budget, Mark.fresh_inBudget budget⟩
  | some m => exact h m rfl

/-- From one ledger to a later one: existing deliveries make legal attempts, new ones start
    fresh, none disappears. -/
def Evolves {κ : Type u} (budget : ℕ) (l l' : Ledger κ) : Prop :=
  ∀ k, (∀ m, l k = some m → ∃ m', l' k = some m' ∧ Steps budget m m') ∧
    (l k = none → ∀ m', l' k = some m' → Steps budget Mark.fresh m')

variable {κ : Type u} {budget : ℕ} {l₁ l₂ l₃ : Ledger κ}

theorem Evolves.refl (l : Ledger κ) : Evolves budget l l := fun k =>
  ⟨fun m h => ⟨m, h, Relation.ReflTransGen.refl⟩, fun h m' h' => by rw [h] at h'; cases h'⟩

theorem Evolves.trans (h₁ : Evolves budget l₁ l₂) (h₂ : Evolves budget l₂ l₃) :
    Evolves budget l₁ l₃ := by
  intro k
  refine ⟨fun m hm => ?_, fun hnone m₃ hm₃ => ?_⟩
  · obtain ⟨m₂, hm₂, hs₁⟩ := (h₁ k).1 m hm
    obtain ⟨m₃, hm₃, hs₂⟩ := (h₂ k).1 m₂ hm₂
    exact ⟨m₃, hm₃, hs₁.trans hs₂⟩
  · cases hm₂ : l₂ k with
    | none => exact (h₂ k).2 hm₂ m₃ hm₃
    | some m₂ =>
      obtain ⟨m₃', hm₃', hs⟩ := (h₂ k).1 m₂ hm₂
      rw [hm₃] at hm₃'
      cases hm₃'
      exact ((h₁ k).2 hnone m₂ hm₂).trans hs

/-- One attempt on one delivery, which may start with it. -/
theorem Evolves.single {l l' : Ledger κ} {k : κ} {m' : Mark}
    (hother : ∀ k', k ≠ k' → l' k' = l k') (hk : l' k = some m')
    (hstep : Steps budget ((l k).getD Mark.fresh) m') : Evolves budget l l' := by
  intro k'
  by_cases h : k = k'
  · subst h
    refine ⟨fun m hm => ⟨m', hk, by simpa [hm] using hstep⟩, fun hnone m hm => ?_⟩
    rw [hk] at hm
    cases hm
    simpa [hnone] using hstep
  · rw [hother k' h]
    exact Evolves.refl l k'

/-- A ledger in budget stays in budget. -/
theorem Evolves.inBudget (hpos : 1 ≤ budget) (h : Evolves budget l₁ l₂)
    (hl : ∀ k m, l₁ k = some m → m.InBudget budget) :
    ∀ k m, l₂ k = some m → m.InBudget budget := by
  intro k m₂ hm₂
  cases hm₁ : l₁ k with
  | none => exact ((h k).2 hm₁ m₂ hm₂).inBudget hpos (Mark.fresh_inBudget budget)
  | some m₁ =>
    obtain ⟨m₂', hm₂', hs⟩ := (h k).1 m₁ hm₁
    rw [hm₂] at hm₂'
    cases hm₂'
    exact hs.inBudget hpos (hl k m₁ hm₁)

/-- A terminal delivery keeps its mark. -/
theorem Evolves.terminal (h : Evolves budget l₁ l₂) {k : κ} {m : Mark} (hm : l₁ k = some m)
    (hterm : m.Terminal) : l₂ k = some m := by
  obtain ⟨m', hm', hs⟩ := (h k).1 m hm
  rw [hm', hs.eq_of_terminal hterm]

end Schemes.Delivery
