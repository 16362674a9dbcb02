import BisakerjaScraper.Schemes.Hoare

/-! Programs whose calls have known outcomes.

    Where it is known beforehand of each call whether it raises, a program raises or returns
    whatever the state is. `Ends m c a` says that `m` raises when `c` holds and returns `a` when it
    does not; the rules follow the constructs of the program, so that the condition comes out as the
    calls that no handler stands over. -/

namespace Schemes

universe u
variable {σ ε α β : Type u}

/-- A call that raises what there is to raise. -/
def Stateful.call : Option ε → Stateful σ ε PUnit
  | some e => .raise e
  | none => pure ⟨⟩

/-- From every state `m` raises if `c` holds, and else returns `a`. -/
def Ends (m : Stateful σ ε α) (c : Prop) (a : α) : Prop :=
  ∀ s, (c ∧ ∃ e, (m s).1 = .error e) ∨ (¬ c ∧ (m s).1 = .ok a)

namespace Ends

variable {m : Stateful σ ε α} {c d : Prop} {a : α} {b : β}

theorem of_iff (h : Ends m c a) (hiff : c ↔ d) : Ends m d a := by
  rw [← propext hiff]
  exact h

theorem pure (a : α) : Ends (Pure.pure a : Stateful σ ε α) False a := fun _ => .inr ⟨id, rfl⟩

theorem raise (e : ε) (a : α) : Ends (Stateful.raise e : Stateful σ ε α) True a :=
  fun _ => .inl ⟨trivial, e, rfl⟩

theorem change (f : σ → σ) : Ends (Stateful.change f : Stateful σ ε PUnit) False ⟨⟩ :=
  fun _ => .inr ⟨id, rfl⟩

theorem call (x : Option ε) : Ends (Stateful.call x : Stateful σ ε PUnit) (x ≠ none) ⟨⟩ := by
  cases x with
  | none => exact (pure _).of_iff (by simp)
  | some e => exact (raise e _).of_iff (by simp)

/-- A sequence raises when its first half does, or else its second half. -/
theorem bind {f : α → Stateful σ ε β} (h : Ends m c a) (hf : Ends (f a) d b) :
    Ends (m >>= f) (c ∨ d) b := by
  intro s
  have hm := h s
  change (_ ∧ ∃ e, (Stateful.bind m f s).1 = .error e) ∨ (_ ∧ (Stateful.bind m f s).1 = .ok b)
  unfold Stateful.bind
  revert hm
  rcases m s with ⟨e | a', s'⟩
  · rintro (⟨hc, -⟩ | ⟨-, heq⟩)
    · exact .inl ⟨.inl hc, e, rfl⟩
    · cases heq
  · rintro (⟨-, e, heq⟩ | ⟨hc, heq⟩)
    · cases heq
    · cases heq
      rcases hf s' with ⟨hd, hraise⟩ | ⟨hd, hret⟩
      · exact .inl ⟨.inr hd, hraise⟩
      · exact .inr ⟨not_or.mpr ⟨hc, hd⟩, hret⟩

/-- A step that cannot raise. -/
theorem step {f : α → Stateful σ ε β} (h : Ends m False a) (hf : Ends (f a) d b) :
    Ends (m >>= f) d b := (h.bind hf).of_iff (by simp)

/-- Under a handler it takes an exception of the block and one of the handler. -/
theorem handle {handler : ε → Stateful σ ε α} (h : Ends m c a) (hh : ∀ e, Ends (handler e) d a) :
    Ends (Stateful.handle m handler) (c ∧ d) a := by
  intro s
  have hm := h s
  unfold Stateful.handle
  revert hm
  rcases m s with ⟨e | a', s'⟩
  · rintro (⟨hc, -⟩ | ⟨-, heq⟩)
    · rcases hh e s' with ⟨hd, hraise⟩ | ⟨hd, hret⟩
      · exact .inl ⟨⟨hc, hd⟩, hraise⟩
      · exact .inr ⟨fun h => hd h.2, hret⟩
    · cases heq
  · rintro (⟨-, e, heq⟩ | ⟨hc, heq⟩)
    · cases heq
    · exact .inr ⟨fun h => hc h.1, heq⟩

/-- A block whose exception is taken as a value. -/
theorem attempt_bind {f : Except ε α → Stateful σ ε β} {r : Prop} (h : Ends m c a)
    (hok : Ends (f (.ok a)) d b) (herror : ∀ e, Ends (f (.error e)) r b) :
    Ends (Stateful.attempt m >>= f) (c ∧ r ∨ ¬ c ∧ d) b := by
  intro s
  have hm := h s
  change (_ ∧ ∃ e, (Stateful.bind (Stateful.attempt m) f s).1 = .error e) ∨
    (_ ∧ (Stateful.bind (Stateful.attempt m) f s).1 = .ok b)
  unfold Stateful.bind Stateful.attempt
  revert hm
  rcases m s with ⟨e | a', s'⟩
  · rintro (⟨hc, -⟩ | ⟨-, heq⟩)
    · exact ((herror e).of_iff (by simp [hc])) s'
    · cases heq
  · rintro (⟨-, e, heq⟩ | ⟨hc, heq⟩)
    · cases heq
    · cases heq
      exact (hok.of_iff (by simp [hc])) s'

/-- A loop raises when one of its turns does. -/
theorem forEach {ι : Type u} {f : ι → Stateful σ ε PUnit} {c : ι → Prop} (xs : List ι)
    (h : ∀ x, Ends (f x) (c x) ⟨⟩) : Ends (Stateful.forEach xs f) (∃ x ∈ xs, c x) ⟨⟩ := by
  induction xs with
  | nil => exact (pure _).of_iff (by simp)
  | cons x xs ih => exact ((h x).bind ih).of_iff (List.exists_mem_cons_iff c x xs).symm

theorem ite {p : Prop} [Decidable p] {m' : Stateful σ ε α} (h : Ends m c a) (h' : Ends m' d a) :
    Ends (if p then m else m') (if p then c else d) a := by
  split
  · exact h
  · exact h'

/-- Seen from one state. -/
theorem exists_error_iff (h : Ends m c a) (s : σ) : (∃ e, (m s).1 = .error e) ↔ c := by
  rcases h s with ⟨hc, hraise⟩ | ⟨hc, hret⟩
  · exact iff_of_true hraise hc
  · refine iff_of_false ?_ hc
    rintro ⟨e, heq⟩
    rw [hret] at heq
    cases heq

end Ends

end Schemes
