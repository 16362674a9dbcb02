import Mathlib.Data.List.Nodup

/-! Sweeping a list of items over keyed state.

    Every item names one key; a step for an item rewrites the value under its key and leaves the
    values under all other keys alone. When the items name pairwise distinct keys, each value is
    rewritten at most once, so the state after the sweep is known key by key. -/

namespace Schemes

universe u v w x
variable {σ : Type u} {ι : Type v} {κ : Type w} {β : Type x}

/-- A step function whose items touch one key each: `look` reads the value under a key, and item
    `i` rewrites the value under `key i` by `rewrite i`. -/
structure Touches (look : σ → κ → β) (key : ι → κ) (step : σ → ι → σ) (rewrite : ι → β → β) :
    Prop where
  self : ∀ s i, look (step s i) (key i) = rewrite i (look s (key i))
  other : ∀ s i k, key i ≠ k → look (step s i) k = look s k

namespace Touches

variable {look : σ → κ → β} {key : ι → κ} {step : σ → ι → σ} {rewrite : ι → β → β}

/-- A key no item names keeps its value. -/
theorem foldl_of_not_mem (h : Touches look key step rewrite) : ∀ (items : List ι) (s : σ) (k : κ),
    k ∉ items.map key → look (items.foldl step s) k = look s k
  | [], _, _, _ => rfl
  | i :: items, s, k, hk => by
    rw [List.map_cons, List.mem_cons, not_or] at hk
    rw [List.foldl_cons, h.foldl_of_not_mem items (step s i) k hk.2,
      h.other s i k (Ne.symm hk.1)]

/-- The key of an item holds its value rewritten once. -/
theorem foldl_of_mem (h : Touches look key step rewrite) : ∀ (items : List ι) (s : σ) (i : ι),
    (items.map key).Nodup → i ∈ items →
      look (items.foldl step s) (key i) = rewrite i (look s (key i))
  | [], _, _, _, hi => by cases hi
  | j :: items, s, i, hnodup, hi => by
    rw [List.map_cons, List.nodup_cons] at hnodup
    rw [List.foldl_cons]
    rcases List.mem_cons.mp hi with rfl | hi
    · rw [h.foldl_of_not_mem items (step s i) (key i) hnodup.1, h.self]
    · have hne : key j ≠ key i := fun heq => hnodup.1 (heq ▸ List.mem_map_of_mem hi)
      rw [h.foldl_of_mem items (step s j) i hnodup.2 hi, h.other s j (key i) hne]

end Touches

/-- What no step changes, a sweep does not change. -/
theorem foldl_unchanged {γ : Type x} {f : σ → γ} {step : σ → ι → σ}
    (h : ∀ s i, f (step s i) = f s) : ∀ (items : List ι) (s : σ), f (items.foldl step s) = f s
  | [], _ => rfl
  | i :: items, s => by rw [List.foldl_cons, foldl_unchanged h items (step s i), h s i]

/-- A preorder between states that every step moves along, a sweep moves along. -/
theorem foldl_rel {R : σ → σ → Prop} {step : σ → ι → σ} (hrefl : ∀ s, R s s)
    (htrans : ∀ s₁ s₂ s₃, R s₁ s₂ → R s₂ s₃ → R s₁ s₃) (hstep : ∀ s i, R s (step s i)) :
    ∀ (items : List ι) (s : σ), R s (items.foldl step s)
  | [], s => hrefl s
  | i :: items, s => by
    rw [List.foldl_cons]
    exact htrans _ _ _ (hstep s i) (foldl_rel hrefl htrans hstep items (step s i))

/-- A relation between states that every step keeps, as long as the items still to come are ready.
    A step leaves the readiness of an item with another key alone, so distinct keys carry the
    readiness of the whole list from the start to each item's turn. -/
theorem sweep_rel (key : ι → κ) (step : σ → ι → σ) (R : σ → σ → Prop) (ready : σ → ι → Prop)
    (hrefl : ∀ s, R s s) (htrans : ∀ s₁ s₂ s₃, R s₁ s₂ → R s₂ s₃ → R s₁ s₃)
    (hstep : ∀ s i, ready s i → R s (step s i))
    (hready : ∀ s i j, key i ≠ key j → ready s j → ready (step s i) j) :
    ∀ (items : List ι) (s : σ), (items.map key).Nodup → (∀ i ∈ items, ready s i) →
      R s (items.foldl step s)
  | [], s, _, _ => hrefl s
  | i :: items, s, hnodup, hall => by
    rw [List.map_cons, List.nodup_cons] at hnodup
    rw [List.foldl_cons]
    refine htrans s (step s i) _ (hstep s i (hall i List.mem_cons_self)) ?_
    refine sweep_rel key step R ready hrefl htrans hstep hready items (step s i) hnodup.2 fun j hj => ?_
    have hne : key i ≠ key j := fun heq => hnodup.1 (heq ▸ List.mem_map_of_mem hj)
    exact hready s i j hne (hall j (List.mem_cons_of_mem i hj))

end Schemes
