import BisakerjaScraper.Schemes.Checkpoint
import BisakerjaScraper.Schemes.Sweep

/-! Logs in which every entry is legal.

    A chunk that is posted holds distinct deliveries, each of them due at that moment; a write
    starts a delivery or makes one legal attempt on it. Over such a log the counts stay within the
    budget, and a delivery that is acknowledged or given up is neither written nor posted again. -/

namespace Schemes.Delivery

universe u v
variable {κ : Type u} {budget : ℕ}

/-- The chunks of a log. -/
def postsOf : List (Entry κ) → List (List κ)
  | [] => []
  | .posted keys :: rest => keys :: postsOf rest
  | .wrote _ _ :: rest => postsOf rest

variable {l : Ledger κ} {log more before rest : List (Entry κ)} {k : κ} {m : Mark}

theorem postsOf_append (log more : List (Entry κ)) :
    postsOf (log ++ more) = postsOf log ++ postsOf more := by
  induction log with
  | nil => rfl
  | cons entry rest ih => cases entry <;> simp [postsOf, ih]

theorem postsOf_of_quiet (h : ∀ entry ∈ log, entry.isPost = false) : postsOf log = [] := by
  induction log with
  | nil => rfl
  | cons entry rest ih =>
    cases entry with
    | posted keys => cases h _ List.mem_cons_self
    | wrote k m => exact ih fun entry hentry => h entry (List.mem_cons_of_mem _ hentry)

variable [DecidableEq κ]

/-- Every entry is legal where it stands. -/
def Lawful (budget : ℕ) : Ledger κ → List (Entry κ) → Prop
  | _, [] => True
  | l, .posted keys :: rest =>
    keys.Nodup ∧ (∀ k ∈ keys, ∃ m, l k = some m ∧ m.Retryable budget) ∧ Lawful budget l rest
  | l, .wrote k m :: rest =>
    ((l k = none ∧ m = .fresh) ∨ ∃ m₀, l k = some m₀ ∧ Step budget m₀ m) ∧
      Lawful budget (Function.update l k (some m)) rest

theorem lawful_append : Lawful budget l (log ++ more) ↔
    Lawful budget l log ∧ Lawful budget (replay l log) more := by
  induction log generalizing l with
  | nil => simp [Lawful, replay]
  | cons entry rest ih =>
    cases entry with
    | posted keys =>
      have := ih (l := l)
      simp only [List.cons_append, Lawful, this, and_assoc]
      rfl
    | wrote k m =>
      have := ih (l := Function.update l k (some m))
      simp only [List.cons_append, Lawful, this, and_assoc]
      rfl

namespace Lawful

/-- A legal log is a run of legal attempts. -/
theorem evolves (h : Lawful budget l log) : Evolves budget l (replay l log) := by
  induction log generalizing l with
  | nil => exact .refl l
  | cons entry rest ih =>
    cases entry with
    | posted keys => exact ih h.2.2
    | wrote k m =>
      obtain ⟨hwrite, hrest⟩ := h
      have hone : Evolves budget l (Function.update l k (some m)) := by
        have hother : ∀ k', k ≠ k' → Function.update l k (some m) k' = l k' :=
          fun k' hk' => Function.update_of_ne (Ne.symm hk') _ _
        refine .single hother (Function.update_self ..) ?_
        rcases hwrite with ⟨hnone, rfl⟩ | ⟨m₀, hm₀, hstep⟩
        · rw [hnone]
          exact .refl
        · rw [hm₀]
          exact .single hstep
      exact hone.trans (ih hrest)

/-- What is posted is due when it is posted. -/
theorem due_of_posted {keys : List κ} (h : Lawful budget l (before ++ .posted keys :: rest))
    (hk : k ∈ keys) : ∃ m, replay l before k = some m ∧ m.Retryable budget :=
  (lawful_append.mp h).2.2.1 k hk

/-- In every state along a legal log the counts are within the budget. -/
theorem inBudget (h : Lawful budget l (before ++ rest)) (hpos : 1 ≤ budget)
    (hl : ∀ k m, l k = some m → m.InBudget budget) (hk : replay l before k = some m) :
    m.InBudget budget :=
  (lawful_append.mp h).1.evolves.inBudget hpos hl k m hk

/-- A terminal delivery keeps its mark to the end of a legal log. -/
theorem terminal (h : Lawful budget l (before ++ rest)) (hk : replay l before k = some m)
    (hterm : m.Terminal) : replay l (before ++ rest) k = some m := by
  rw [replay_append]
  exact (lawful_append.mp h).2.evolves.terminal hk hterm

/-- A terminal delivery is not posted any more. -/
theorem not_posted (h : Lawful budget l (before ++ rest)) (hk : replay l before k = some m)
    (hterm : m.Terminal) {keys : List κ} (hpost : .posted keys ∈ rest) : k ∉ keys := by
  intro hmem
  obtain ⟨middle, rest', rfl⟩ := List.append_of_mem hpost
  rw [← List.append_assoc] at h
  obtain ⟨m', hm', hdue⟩ := h.due_of_posted hmem
  have hmiddle := terminal (lawful_append.mp h).1 hk hterm
  rw [hm'] at hmiddle
  cases hmiddle
  exact Mark.not_terminal_of_retryable hdue hterm

end Lawful

/-! ### Sessions -/

section Sessions

variable {σ : Type v} {log : σ → List (Entry κ)} {marks : σ → Ledger κ} {s s' s'' : σ}

/-- From one session to a later one by legal entries, with these chunks. -/
def Moves (budget : ℕ) (log : σ → List (Entry κ)) (marks : σ → Ledger κ) (posts : List (List κ))
    (s s' : σ) : Prop :=
  ∃ more, log s' = log s ++ more ∧ replay (marks s) more = marks s' ∧
    Lawful budget (marks s) more ∧ postsOf more = posts

namespace Moves

variable {posts posts' : List (List κ)}

theorem of_eq (hlog : log s' = log s) (hmarks : marks s' = marks s) :
    Moves budget log marks [] s s' :=
  ⟨[], by simp [hlog], hmarks.symm, trivial, rfl⟩

theorem refl (s : σ) : Moves budget log marks [] s s := of_eq rfl rfl

theorem trans (h : Moves budget log marks posts s s') (h' : Moves budget log marks posts' s' s'') :
    Moves budget log marks (posts ++ posts') s s'' := by
  obtain ⟨more, hlog, hreplay, hlawful, hposts⟩ := h
  obtain ⟨more', hlog', hreplay', hlawful', hposts'⟩ := h'
  refine ⟨more ++ more', by rw [hlog', hlog, List.append_assoc], ?_, ?_, ?_⟩
  · rw [replay_append, hreplay, hreplay']
  · rw [lawful_append, hreplay]
    exact ⟨hlawful, hlawful'⟩
  · rw [postsOf_append, hposts, hposts']

/-- One delivery is started, or one attempt is made on it. -/
theorem wrote (hlog : log s' = log s ++ [.wrote k m])
    (hmarks : marks s' = Function.update (marks s) k (some m))
    (hwrite : (marks s k = none ∧ m = .fresh) ∨ ∃ m₀, marks s k = some m₀ ∧ Step budget m₀ m) :
    Moves budget log marks [] s s' :=
  ⟨_, hlog, hmarks.symm, ⟨hwrite, trivial⟩, rfl⟩

/-- A chunk is posted. -/
theorem posted {keys : List κ} (hlog : log s' = log s ++ [.posted keys])
    (hmarks : marks s' = marks s) (hnodup : keys.Nodup)
    (hdue : ∀ k ∈ keys, ∃ m, marks s k = some m ∧ m.Retryable budget) :
    Moves budget log marks [keys] s s' :=
  ⟨_, hlog, hmarks.symm, ⟨hnodup, hdue, trivial⟩, rfl⟩

end Moves

end Sessions

end Schemes.Delivery
