import Mathlib.Data.List.Basic

/-! Triples for computations that change a state and may raise.

    `Triple P m Q E` says that from a state in `P` the computation either returns with `Q` or
    raises with `E`; what it did to the state before raising stays done. The rules follow the
    constructs a program is written with: sequencing, raising, handling, reading, writing and
    looping over a list. -/

namespace Schemes

universe u v

/-- A computation on a state `σ` that returns an `α` or raises an `ε`. -/
def Stateful (σ ε α : Type u) : Type u := σ → Except ε α × σ

namespace Stateful

variable {σ ε α β : Type u}

/-- The two ends of a sequence: go on after a return, stop after an exception. -/
def bind (m : Stateful σ ε α) (f : α → Stateful σ ε β) : Stateful σ ε β := fun s =>
  match m s with
  | (.ok a, s') => f a s'
  | (.error e, s') => (.error e, s')

instance : Monad (Stateful σ ε) where
  pure a := fun s => (.ok a, s)
  bind := Stateful.bind

/-- Raises. -/
def raise (e : ε) : Stateful σ ε α := fun s => (.error e, s)

/-- Changes the state. -/
def change (f : σ → σ) : Stateful σ ε PUnit := fun s => (.ok ⟨⟩, f s)

/-- Runs a function that returns a value with the new state. -/
def update (f : σ → α × σ) : Stateful σ ε α := fun s => (.ok (f s).1, (f s).2)

/-- A value that may be an exception. -/
def ofExcept : Except ε α → Stateful σ ε α
  | .ok a => fun s => (.ok a, s)
  | .error e => fun s => (.error e, s)

/-- `try: m except e: handler(e)`. -/
def handle (m : Stateful σ ε α) (handler : ε → Stateful σ ε α) : Stateful σ ε α := fun s =>
  match m s with
  | (.ok a, s') => (.ok a, s')
  | (.error e, s') => handler e s'

/-- `try: m`, with the exception as a value. -/
def attempt (m : Stateful σ ε α) : Stateful σ ε (Except ε α) := fun s =>
  match m s with
  | (result, s') => (.ok result, s')

/-- Runs `f` on every element, in order. -/
def forEach : List α → (α → Stateful σ ε PUnit) → Stateful σ ε PUnit
  | [], _ => fun s => (.ok ⟨⟩, s)
  | x :: xs, f => Stateful.bind (f x) fun _ => forEach xs f

end Stateful

/-- A sequence that returns: both halves do. -/
theorem Stateful.bind_ok_iff {σ ε α β : Type u} {m : Stateful σ ε α} {f : α → Stateful σ ε β}
    {s s' : σ} {b : β} :
    (m >>= f) s = (.ok b, s') ↔ ∃ a s₁, m s = (.ok a, s₁) ∧ f a s₁ = (.ok b, s') := by
  change (match m s with | (.ok a, s₁) => f a s₁ | (.error e, s₁) => (.error e, s₁)) = _ ↔ _
  rcases m s with ⟨e | a, s₁⟩
  · simp
  · constructor
    · intro h
      exact ⟨a, s₁, rfl, h⟩
    · rintro ⟨_, _, heq, h⟩
      cases heq
      exact h

/-- A run that is seen to return. -/
theorem Stateful.exists_of_isOk {σ ε : Type u} {α : Type v} {run : Except ε α × σ} (h : run.1.isOk = true) :
    ∃ a, run = (.ok a, run.2) := by
  rcases run with ⟨e | a, s⟩
  · cases h
  · exact ⟨a, rfl⟩

theorem Stateful.eq_of_isOk {σ ε : Type u} {run : Except ε PUnit × σ} (h : run.1.isOk = true) :
    run = (.ok ⟨⟩, run.2) := by
  obtain ⟨_, hrun⟩ := Stateful.exists_of_isOk h
  exact hrun

/-- From `P`, `m` returns with `Q` or raises with `E`. -/
def Triple {σ ε α : Type u} (P : σ → Prop) (m : Stateful σ ε α) (Q : α → σ → Prop)
    (E : ε → σ → Prop) : Prop :=
  ∀ s, P s → match m s with
    | (.ok a, s') => Q a s'
    | (.error e, s') => E e s'

namespace Triple

variable {σ ε α β : Type u} {P P' : σ → Prop} {Q Q' : α → σ → Prop} {E E' : ε → σ → Prop}
  {R : β → σ → Prop} {m : Stateful σ ε α}

theorem conseq (h : Triple P m Q E) (hP : ∀ s, P' s → P s) (hQ : ∀ a s, Q a s → Q' a s)
    (hE : ∀ e s, E e s → E' e s) : Triple P' m Q' E' := by
  intro s hs
  have hm := h s (hP s hs)
  revert hm
  rcases m s with ⟨_ | a, s'⟩
  · exact hE _ s'
  · exact hQ a s'

/-- A weaker condition on the exceptional ends. -/
theorem weaken_error (h : Triple P m Q E) (hE : ∀ e s, E e s → E' e s) : Triple P m Q E' :=
  h.conseq (fun _ => id) (fun _ _ => id) hE

/-- Two triples about the same computation. -/
theorem and (h : Triple P m Q E) (h' : Triple P' m Q' E') :
    Triple (fun s => P s ∧ P' s) m (fun a s => Q a s ∧ Q' a s) (fun e s => E e s ∧ E' e s) := by
  rintro s ⟨hs, hs'⟩
  have hm := h s hs
  have hm' := h' s hs'
  revert hm hm'
  rcases m s with ⟨_ | _, s'⟩ <;> exact fun hm hm' => ⟨hm, hm'⟩

/-- What holds at both ends of a computation holds of the state it ends in. -/
theorem of_run {R : σ → Prop} (h : Triple P m (fun _ => R) (fun _ => R)) {s : σ} (hs : P s) :
    R (m s).2 := by
  have hm := h s hs
  revert hm
  rcases m s with ⟨_ | _, s'⟩ <;> exact id

theorem pure {a : α} (h : ∀ s, P s → Q a s) : Triple P (Pure.pure a : Stateful σ ε α) Q E := h

theorem raise {e : ε} (h : ∀ s, P s → E e s) : Triple P (Stateful.raise e : Stateful σ ε α) Q E := h

theorem change {f : σ → σ} {Q : PUnit → σ → Prop} (h : ∀ s, P s → Q ⟨⟩ (f s)) :
    Triple P (Stateful.change f : Stateful σ ε PUnit) Q E := h

theorem update {f : σ → α × σ} (h : ∀ s, P s → Q (f s).1 (f s).2) :
    Triple P (Stateful.update f : Stateful σ ε α) Q E := h

/-- An outcome that is known beforehand: the state stays, and each end says which outcome it was. -/
theorem ofExcept_outcome (x : Except ε α) :
    Triple P (Stateful.ofExcept x : Stateful σ ε α) (fun a s => P s ∧ x = .ok a)
      (fun e s => P s ∧ x = .error e) := by
  intro s hs
  cases x with
  | ok a => exact ⟨hs, rfl⟩
  | error e => exact ⟨hs, rfl⟩

/-- An outcome that is known beforehand, when it does not matter which exception it is. -/
theorem ofExcept (x : Except ε α) :
    Triple P (Stateful.ofExcept x : Stateful σ ε α) (fun a s => P s ∧ x = .ok a)
      (fun _ => P) :=
  (ofExcept_outcome x).weaken_error fun _ _ => And.left

/-- A fact of the precondition that does not depend on the state. -/
theorem of_fact {c : Prop} (h : c → Triple P m Q E) : Triple (fun s => P s ∧ c) m Q E :=
  fun s hs => h hs.2 s hs.1

theorem bind {f : α → Stateful σ ε β} (h : Triple P m Q E) (hf : ∀ a, Triple (Q a) (f a) R E) :
    Triple P (m >>= f) R E := by
  intro s hs
  have hm := h s hs
  revert hm
  change (match m s with | (.ok a, s') => Q a s' | (.error e, s') => E e s') →
    match Stateful.bind m f s with | (.ok b, s') => R b s' | (.error e, s') => E e s'
  unfold Stateful.bind
  rcases m s with ⟨_ | a, s'⟩
  · exact id
  · exact hf a s'

theorem handle {handler : ε → Stateful σ ε α} (h : Triple P m Q E)
    (hh : ∀ e, Triple (E e) (handler e) Q E') : Triple P (Stateful.handle m handler) Q E' := by
  intro s hs
  have hm := h s hs
  revert hm
  unfold Stateful.handle
  rcases m s with ⟨e | a, s'⟩
  · exact hh e s'
  · exact id

theorem attempt (h : Triple P m Q E) :
    Triple P (Stateful.attempt m)
      (fun result s => match result with | .ok a => Q a s | .error e => E e s) E' := by
  intro s hs
  have hm := h s hs
  revert hm
  unfold Stateful.attempt
  rcases m s with ⟨_ | a, s'⟩
  · exact id
  · exact id

theorem ite {c : Prop} [Decidable c] {m' : Stateful σ ε α} (h : c → Triple P m Q E)
    (h' : ¬c → Triple P m' Q E) : Triple P (if c then m else m') Q E := by
  by_cases hc : c
  · rw [if_pos hc]
    exact h hc
  · rw [if_neg hc]
    exact h' hc

/-- A loop: the invariant speaks of the elements done. -/
theorem forEach {f : α → Stateful σ ε PUnit} {I : List α → σ → Prop} {E : ε → σ → Prop}
    (xs : List α) (h : ∀ done x rest, xs = done ++ x :: rest →
      Triple (I done) (f x) (fun _ => I (done ++ [x])) E) :
    Triple (I []) (Stateful.forEach xs f) (fun _ => I xs) E := by
  have hloop : ∀ rest done, xs = done ++ rest →
      Triple (I done) (Stateful.forEach rest f) (fun _ => I xs) E := by
    intro rest
    induction rest with
    | nil =>
      intro done hsplit s hs
      rw [List.append_nil] at hsplit
      subst hsplit
      exact hs
    | cons x rest ih =>
      intro done hsplit
      exact (h done x rest hsplit).bind fun _ => ih (done ++ [x]) (by simp [hsplit])
  exact hloop xs [] rfl

/-- A loop under an invariant that does not look at the elements done. -/
theorem forEach_inv {f : α → Stateful σ ε PUnit} {I : σ → Prop} {E : ε → σ → Prop} (xs : List α)
    (h : ∀ x ∈ xs, Triple I (f x) (fun _ => I) E) :
    Triple I (Stateful.forEach xs f) (fun _ => I) E :=
  forEach (I := fun _ => I) xs fun _ x _ hsplit => h x (by simp [hsplit])

end Triple

/-- `m` keeps `I`, whether it returns or raises. -/
def Keeps {σ ε α : Type u} (I : σ → Prop) (m : Stateful σ ε α) : Prop :=
  Triple I m (fun _ => I) (fun _ => I)

namespace Keeps

variable {σ ε α β : Type u} {I : σ → Prop} {m : Stateful σ ε α}

theorem pure (a : α) : Keeps I (Pure.pure a : Stateful σ ε α) := Triple.pure fun _ hs => hs

theorem raise (e : ε) : Keeps I (Stateful.raise e : Stateful σ ε α) := Triple.raise fun _ hs => hs

theorem ofExcept (x : Except ε α) : Keeps I (Stateful.ofExcept x) :=
  (Triple.ofExcept x).conseq (fun _ => id) (fun _ _ => And.left) fun _ _ => id

theorem change {f : σ → σ} (h : ∀ s, I s → I (f s)) :
    Keeps I (Stateful.change f : Stateful σ ε PUnit) := Triple.change h

theorem update {f : σ → α × σ} (h : ∀ s, I s → I (f s).2) :
    Keeps I (Stateful.update f : Stateful σ ε α) := Triple.update h

theorem bind {f : α → Stateful σ ε β} (h : Keeps I m) (hf : ∀ a, Keeps I (f a)) :
    Keeps I (m >>= f) := Triple.bind h hf

theorem handle {handler : ε → Stateful σ ε α} (h : Keeps I m) (hh : ∀ e, Keeps I (handler e)) :
    Keeps I (Stateful.handle m handler) := Triple.handle h hh

theorem attempt (h : Keeps I m) : Keeps I (Stateful.attempt m) :=
  (Triple.attempt h).conseq (fun _ => id) (fun a s hs => by cases a <;> exact hs) fun _ _ => id

theorem ite {c : Prop} [Decidable c] {m' : Stateful σ ε α} (h : Keeps I m) (h' : Keeps I m') :
    Keeps I (if c then m else m') := Triple.ite (fun _ => h) fun _ => h'

theorem forEach {f : α → Stateful σ ε PUnit} (xs : List α) (h : ∀ x ∈ xs, Keeps I (f x)) :
    Keeps I (Stateful.forEach xs f) := Triple.forEach_inv xs h

/-- What a computation keeps holds of the state it ends in. -/
theorem of_run (h : Keeps I m) {s : σ} (hs : I s) : I (m s).2 := Triple.of_run h hs

end Keeps

end Schemes
