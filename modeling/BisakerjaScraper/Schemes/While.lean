import Mathlib.Data.List.Basic
import BisakerjaScraper.Schemes.Fallible

/-! Loops with a test, a break and an `else` branch.

    `while test: turn else: exit`, where a turn may break out of the loop or raise. The `else`
    branch runs when the test fails, not after a break. A rank that every turn lowers bounds the
    number of turns, so a run that is given as many turns as the rank ends the way one of the
    states it comes to ends. -/

namespace Schemes

universe u v

/-- How a turn ends that does not raise: with the next test, or with a break. -/
inductive Turn (σ : Type u) where
  | next (s : σ)
  | stop (s : σ)

/-- `while test: turn else: exit`. -/
structure While (ε : Type v) (σ : Type u) where
  test : σ → Bool
  turn : σ → Except ε (Turn σ)
  exit : σ → σ

namespace While

variable {ε : Type v} {σ : Type u} (w : While ε σ)

/-- The loop, for at most as many turns as given. -/
def run : ℕ → σ → Except ε σ
  | 0, s => .ok (w.exit s)
  | turns + 1, s =>
    if w.test s then
      match w.turn s with
      | .error e => .error e
      | .ok (.stop s') => .ok s'
      | .ok (.next s') => run turns s'
    else .ok (w.exit s)

/-- The states the loop takes a turn in, in order. -/
def taken : ℕ → σ → List σ
  | 0, _ => []
  | turns + 1, s =>
    if w.test s then
      s :: match w.turn s with
        | .ok (.next s') => taken turns s'
        | _ => []
    else []

/-- The states the loop tests when it starts in `s`. -/
inductive Reaches (s : σ) : σ → Prop
  | start : Reaches s s
  | next {s' s'' : σ} (h : Reaches s s') (htest : w.test s' = true)
      (hturn : w.turn s' = .ok (.next s'')) : Reaches s s''

/-- How the loop ends in a state it tests, if it ends there. -/
inductive Ends (s : σ) : Except ε σ → Prop
  | stop {s' : σ} (htest : w.test s = true) (hturn : w.turn s = .ok (.stop s')) : Ends s (.ok s')
  | raise {e : ε} (htest : w.test s = true) (hturn : w.turn s = .error e) : Ends s (.error e)
  | exit (htest : w.test s = false) : Ends s (.ok (w.exit s))

/-- Every turn lowers the rank, and there is no turn at rank zero. -/
def LowersRank (rank : σ → ℕ) : Prop :=
  ∀ s, w.test s = true → 0 < rank s ∧ ∀ s', w.turn s = .ok (.next s') → rank s' < rank s

variable {w}

/-- What holds at the start and is kept by every turn holds in every state tested. -/
theorem Reaches.inv {I : σ → Prop} {s s' : σ} (h : w.Reaches s s') (hs : I s)
    (hnext : ∀ s s', I s → w.test s = true → w.turn s = .ok (.next s') → I s') : I s' := by
  induction h with
  | start => exact hs
  | next _ htest hturn ih => exact hnext _ _ ih htest hturn

/-- A state reached after one turn is reached. -/
theorem Reaches.after {s s' s'' : σ} (htest : w.test s = true) (hturn : w.turn s = .ok (.next s'))
    (h : w.Reaches s' s'') : w.Reaches s s'' := by
  induction h with
  | start => exact .next .start htest hturn
  | next _ htest' hturn' ih => exact .next ih htest' hturn'

/-- What is reached from a state that is reached is reached. -/
theorem Reaches.trans {s s' s'' : σ} (h : w.Reaches s s') (h' : w.Reaches s' s'') :
    w.Reaches s s'' := by
  induction h' with
  | start => exact h
  | next _ htest hturn ih => exact .next ih htest hturn

/-- With enough turns the loop ends, in a state it reaches. -/
theorem exists_ends {rank : σ → ℕ} (hrank : w.LowersRank rank) : ∀ (turns : ℕ) (s : σ),
    rank s ≤ turns → ∃ s', w.Reaches s s' ∧ w.Ends s' (w.run turns s)
  | 0, s, hturns => by
    have htest : w.test s = false := by
      rw [Bool.eq_false_iff]
      intro htest
      have hpos := (hrank s htest).1
      omega
    exact ⟨s, .start, .exit htest⟩
  | turns + 1, s, hturns => by
    unfold run
    by_cases htest : w.test s = true
    · rw [if_pos htest]
      cases hturn : w.turn s with
      | error e => exact ⟨s, .start, .raise htest hturn⟩
      | ok turn =>
        cases turn with
        | stop s' => exact ⟨s, .start, .stop htest hturn⟩
        | next s' =>
          have hlt := (hrank s htest).2 s' hturn
          obtain ⟨s'', hreach, hends⟩ := exists_ends hrank turns s' (by omega)
          exact ⟨s'', .after htest hturn hreach, hends⟩
    · rw [if_neg htest]
      exact ⟨s, .start, .exit (Bool.eq_false_iff.mpr htest)⟩

/-- The loop takes no more turns than it is given. -/
theorem length_taken_le (turns : ℕ) (s : σ) : (w.taken turns s).length ≤ turns := by
  induction turns generalizing s with
  | zero => exact Nat.le_refl _
  | succ turns ih =>
    unfold taken
    split
    · split
      · simpa using ih _
      · simp
    · simp

/-- What holds at the start, and is kept by every turn that goes on, holds of the turns taken when
    the loop ends; the state it ends in has its turn too, unless the test fails there. -/
theorem exists_ends_taken {rank : σ → ℕ} (hrank : w.LowersRank rank) {I : List σ → σ → Prop}
    (hnext : ∀ done s s', I done s → w.test s = true → w.turn s = .ok (.next s') →
      I (done ++ [s]) s') :
    ∀ (turns : ℕ) (s : σ) (done : List σ), rank s ≤ turns → I done s →
      ∃ done' s', I done' s' ∧ w.Ends s' (w.run turns s) ∧
        done ++ w.taken turns s = if w.test s' = true then done' ++ [s'] else done'
  | 0, s, done, hturns, hI => by
    have htest : w.test s = false := by
      rw [Bool.eq_false_iff]
      intro htest
      have hpos := (hrank s htest).1
      omega
    exact ⟨done, s, hI, .exit htest, by simp [taken, htest]⟩
  | turns + 1, s, done, hturns, hI => by
    unfold run taken
    by_cases htest : w.test s = true
    · rw [if_pos htest, if_pos htest]
      cases hturn : w.turn s with
      | error e => exact ⟨done, s, hI, .raise htest hturn, by simp [htest]⟩
      | ok turn =>
        cases turn with
        | stop s' => exact ⟨done, s, hI, .stop htest hturn, by simp [htest]⟩
        | next s' =>
          have hlt := (hrank s htest).2 s' hturn
          obtain ⟨done', s'', hI', hends, htaken⟩ := exists_ends_taken hrank hnext turns s'
            (done ++ [s]) (by omega) (hnext done s s' hI htest hturn)
          exact ⟨done', s'', hI', hends, by simpa using htaken⟩
    · rw [if_neg htest, if_neg htest]
      exact ⟨done, s, hI, .exit (Bool.eq_false_iff.mpr htest), by simp [htest]⟩

/-- A loop that comes to a state goes on from there. -/
theorem run_of_reaches {rank : σ → ℕ} (hrank : w.LowersRank rank) {s s' : σ} {turns : ℕ}
    (hturns : rank s ≤ turns) (h : w.Reaches s s') :
    ∃ turns', rank s' ≤ turns' ∧ w.run turns s = w.run turns' s' := by
  induction h with
  | start => exact ⟨turns, hturns, rfl⟩
  | @next s' s'' _ htest hturn ih =>
    obtain ⟨turns', hle, heq⟩ := ih
    obtain ⟨hpos, hlt⟩ := hrank s' htest
    have hnext := hlt s'' hturn
    cases turns' with
    | zero => omega
    | succ turns' =>
      refine ⟨turns', by omega, ?_⟩
      rw [heq, run, if_pos htest, hturn]

/-- A loop ends the way a state it comes to ends. -/
theorem run_eq_of_ends {rank : σ → ℕ} (hrank : w.LowersRank rank) {s s' : σ} {turns : ℕ}
    (hturns : rank s ≤ turns) (h : w.Reaches s s') {result : Except ε σ} (hends : w.Ends s' result) :
    w.run turns s = result := by
  obtain ⟨turns', hle, heq⟩ := run_of_reaches hrank hturns h
  rw [heq]
  have hpos : w.test s' = true → ∃ n, turns' = n + 1 := by
    intro htest
    have := (hrank s' htest).1
    exact ⟨turns' - 1, by omega⟩
  cases hends with
  | stop htest hturn =>
    obtain ⟨n, rfl⟩ := hpos htest
    rw [run, if_pos htest, hturn]
  | raise htest hturn =>
    obtain ⟨n, rfl⟩ := hpos htest
    rw [run, if_pos htest, hturn]
  | exit htest =>
    cases turns' with
    | zero => rfl
    | succ n => rw [run, if_neg (Bool.eq_false_iff.mp htest)]

end While

end Schemes
