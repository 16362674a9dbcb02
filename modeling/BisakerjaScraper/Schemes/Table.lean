import Mathlib.Data.List.Nodup
import Mathlib.Data.List.Basic

/-! Tables under a unique constraint.

    A table is a list of rows whose keys are pairwise distinct; the constraint is a field, so a
    table that breaks it cannot be built. A row is looked up, inserted and rewritten by its key,
    and what each operation does to the row of any other key is a frame lemma.

    A stamp is what an update may not touch. A table grows into another when the stamps of its rows
    are the first stamps of the other: no row has gone, none has changed its stamp or its place. A
    row that refers to a stamp then refers to it for good. -/

namespace Schemes

universe u v

/-- A list of rows with pairwise distinct keys. -/
structure Table (α : Type u) {κ : Type v} (key : α → κ) where
  rows : List α
  unique : (rows.map key).Nodup

namespace Table

variable {α : Type u} {κ : Type v} {key : α → κ}

/-- The table without rows. -/
def empty (key : α → κ) : Table α key := ⟨[], List.nodup_nil⟩

variable [DecidableEq κ]

/-- The row with key `k`, if there is one. -/
def find? (t : Table α key) (k : κ) : Option α := t.rows.find? fun r => key r = k

/-- Adds a row at the end; the constraint refuses a row whose key is taken. -/
def insert (t : Table α key) (r : α) : Table α key :=
  if h : key r ∈ t.rows.map key then t
  else ⟨t.rows ++ [r], by
    rw [List.map_append, List.map_singleton]
    exact t.unique.append (List.nodup_singleton _) (by simpa using h)⟩

/-- Rewrites the row with key `k` by a function that leaves keys alone. -/
def modify (t : Table α key) (k : κ) (f : α → α)
    (hf : ∀ r, key (f r) = key r) : Table α key :=
  ⟨t.rows.map fun r => if key r = k then f r else r, by
    have hkeys : (t.rows.map fun r => if key r = k then f r else r).map key = t.rows.map key := by
      rw [List.map_map]
      refine List.map_congr_left fun r _ => ?_
      by_cases h : key r = k <;> simp [h, hf]
    rw [hkeys]
    exact t.unique⟩

/-! ### Looking rows up -/

@[simp] theorem find?_empty (k : κ) : (empty key).find? k = none := rfl

theorem key_of_find? {t : Table α key} {k : κ} {r : α} (h : t.find? k = some r) : key r = k := by
  simpa using List.find?_some h

theorem mem_of_find? {t : Table α key} {k : κ} {r : α} (h : t.find? k = some r) : r ∈ t.rows :=
  List.mem_of_find?_eq_some h

theorem find?_of_mem {t : Table α key} {r : α} (h : r ∈ t.rows) : t.find? (key r) = some r := by
  obtain ⟨r', hr'⟩ : ∃ r', t.find? (key r) = some r' :=
    Option.isSome_iff_exists.mp (List.find?_isSome.mpr ⟨r, h, by simp⟩)
  have heq := List.inj_on_of_nodup_map t.unique (mem_of_find? hr') h (key_of_find? hr')
  rw [hr', heq]

theorem find?_eq_some_iff {t : Table α key} {k : κ} {r : α} :
    t.find? k = some r ↔ r ∈ t.rows ∧ key r = k :=
  ⟨fun h => ⟨mem_of_find? h, key_of_find? h⟩, fun ⟨h, hk⟩ => hk ▸ find?_of_mem h⟩

theorem find?_eq_none_iff {t : Table α key} {k : κ} :
    t.find? k = none ↔ k ∉ t.rows.map key := by
  simp [find?]

/-! ### Inserting -/

theorem find?_insert_of_ne (t : Table α key) {r : α} {k : κ} (h : key r ≠ k) :
    (t.insert r).find? k = t.find? k := by
  unfold insert
  split
  · rfl
  · simp [find?, List.find?_append, h]

/-- A row that is there stays. -/
theorem find?_insert_of_some {t : Table α key} {r r' : α} {k : κ} (h : t.find? k = some r) :
    (t.insert r').find? k = some r := by
  unfold insert
  split
  · exact h
  · unfold find? at h ⊢
    rw [List.find?_append, h, Option.some_or]

theorem find?_insert_self (t : Table α key) {r : α} (h : t.find? (key r) = none) :
    (t.insert r).find? (key r) = some r := by
  have hfresh := find?_eq_none_iff.mp h
  unfold insert
  rw [dif_neg hfresh]
  unfold find? at h ⊢
  simp [List.find?_append, h]

/-- Lookups after an insertion under a fresh key, in one equation. -/
theorem find?_insert (t : Table α key) {r : α} (h : t.find? (key r) = none) (k : κ) :
    (t.insert r).find? k = if key r = k then some r else t.find? k := by
  split
  · next hk => rw [← hk, find?_insert_self t h]
  · next hk => exact find?_insert_of_ne t hk

theorem rows_insert (t : Table α key) {r : α} (h : t.find? (key r) = none) :
    (t.insert r).rows = t.rows ++ [r] := by
  unfold insert
  rw [dif_neg (find?_eq_none_iff.mp h)]

/-! ### Rewriting -/

theorem find?_modify_self (t : Table α key) (k : κ) (f : α → α) (hf : ∀ r, key (f r) = key r) :
    (t.modify k f hf).find? k = (t.find? k).map f := by
  unfold modify find?
  rw [List.find?_map]
  have hp : ((fun r => decide (key r = k)) ∘ fun r => if key r = k then f r else r)
      = fun r => decide (key r = k) := by
    funext r
    by_cases h : key r = k <;> simp [h, hf]
  rw [hp]
  cases hr : t.rows.find? fun r => key r = k with
  | none => rfl
  | some r =>
    have hk : key r = k := by simpa using List.find?_some hr
    simp [hk]

theorem find?_modify_of_ne (t : Table α key) {k k' : κ} (f : α → α)
    (hf : ∀ r, key (f r) = key r) (h : k ≠ k') : (t.modify k f hf).find? k' = t.find? k' := by
  unfold modify find?
  rw [List.find?_map]
  have hp : ((fun r => decide (key r = k')) ∘ fun r => if key r = k then f r else r)
      = fun r => decide (key r = k') := by
    funext r
    by_cases hr : key r = k <;> simp [hr, hf]
  rw [hp]
  cases hr : t.rows.find? fun r => key r = k' with
  | none => rfl
  | some r =>
    have hk : key r = k' := by simpa using List.find?_some hr
    have hne : key r ≠ k := fun h' => h (h'.symm.trans hk)
    simp [hne]

/-- Lookups after a rewriting, in one equation. -/
theorem find?_modify (t : Table α key) (k : κ) (f : α → α) (hf : ∀ r, key (f r) = key r) (k' : κ) :
    (t.modify k f hf).find? k' = if k = k' then (t.find? k').map f else t.find? k' := by
  split
  · next hk => rw [← hk, find?_modify_self]
  · next hk => exact find?_modify_of_ne t f hf hk

theorem keys_modify (t : Table α key) (k : κ) (f : α → α) (hf : ∀ r, key (f r) = key r) :
    (t.modify k f hf).rows.map key = t.rows.map key := by
  unfold modify
  rw [List.map_map]
  refine List.map_congr_left fun r _ => ?_
  by_cases h : key r = k <;> simp [h, hf]

/-- Looking up by a property the rewriting keeps finds the same row, rewritten if it is the one. -/
theorem rows_find?_modify (t : Table α key) (k : κ) (f : α → α) (hf : ∀ r, key (f r) = key r)
    {p : α → Bool} (hp : ∀ r, p (f r) = p r) :
    (t.modify k f hf).rows.find? p
      = (t.rows.find? p).map fun r => if key r = k then f r else r := by
  unfold modify
  rw [List.find?_map]
  have hsame : (p ∘ fun r => if key r = k then f r else r) = p := by
    funext r
    by_cases h : key r = k <;> simp [h, hp]
  rw [hsame]

/-- Looking up by a property finds what was there before an insertion. -/
theorem rows_find?_insert {t : Table α key} {p : α → Bool} {r : α} (h : t.rows.find? p = some r)
    (row : α) : (t.insert row).rows.find? p = some r := by
  unfold insert
  split
  · exact h
  · rw [List.find?_append, h]
    rfl

theorem mem_modify (t : Table α key) (k : κ) (f : α → α) (hf : ∀ r, key (f r) = key r) {r : α} :
    r ∈ (t.modify k f hf).rows ↔ ∃ r₀ ∈ t.rows, (if key r₀ = k then f r₀ else r₀) = r := by
  simp [modify]

/-! ### Tables with the same rows -/

/-- The rows are what the keys look up. -/
theorem filterMap_find? (t : Table α key) : (t.rows.map key).filterMap t.find? = t.rows := by
  rw [List.filterMap_map]
  have hself : ∀ r ∈ t.rows, (t.find? ∘ key) r = some r := fun r hr => find?_of_mem hr
  rw [List.filterMap_congr hself, List.filterMap_some]

/-- Two tables with the same keys in the same order that look up the same are the same. -/
theorem ext_of_find? {t t' : Table α key} (hkeys : t.rows.map key = t'.rows.map key)
    (h : ∀ k, t.find? k = t'.find? k) : t = t' := by
  have hrows : t.rows = t'.rows := by
    rw [← filterMap_find? t, ← filterMap_find? t', hkeys, funext h]
  cases t
  cases t'
  cases hrows
  rfl

end Table

/-! ### Stamps -/

namespace Table

universe w

variable {α : Type u} {κ : Type v} {σ : Type w} {key : α → κ} {P : α → Prop} {stamp : α → σ}

/-- Every row has the property. -/
def All (P : α → Prop) (t : Table α key) : Prop := ∀ r ∈ t.rows, P r

/-- The stamps of the rows. -/
def stamps (stamp : α → σ) (t : Table α key) : List σ := t.rows.map stamp

/-- Every row is still there, at its place and with its stamp. -/
def Grows (stamp : α → σ) (t t' : Table α key) : Prop := t.stamps stamp <+: t'.stamps stamp

theorem mem_stamps {t : Table α key} {s : σ} : s ∈ t.stamps stamp ↔ ∃ r ∈ t.rows, stamp r = s :=
  List.mem_map

theorem stamp_mem {t : Table α key} {r : α} (h : r ∈ t.rows) : stamp r ∈ t.stamps stamp :=
  List.mem_map_of_mem h

theorem All.mono {P' : α → Prop} {t : Table α key} (h : t.All P) (himp : ∀ r ∈ t.rows, P r → P' r) :
    t.All P' := fun r hr => himp r hr (h r hr)

/-! ### Growing -/

theorem Grows.refl (stamp : α → σ) (t : Table α key) : t.Grows stamp t := List.prefix_rfl

theorem Grows.trans {t t' t'' : Table α key} (h : t.Grows stamp t') (h' : t'.Grows stamp t'') :
    t.Grows stamp t'' := List.IsPrefix.trans h h'

/-- What a row refers to is there for good. -/
theorem Grows.subset {t t' : Table α key} (h : t.Grows stamp t') {s : σ} (hs : s ∈ t.stamps stamp) :
    s ∈ t'.stamps stamp := List.IsPrefix.subset h hs

/-- A coarser stamp sees the same growth. -/
theorem Grows.map {τ : Type*} {t t' : Table α key} (h : t.Grows stamp t') (f : σ → τ) :
    t.Grows (f ∘ stamp) t' := by
  unfold Grows stamps at h ⊢
  rw [← List.map_map, ← List.map_map]
  exact List.IsPrefix.map f h

variable [DecidableEq κ]

/-! ### Inserting -/

theorem mem_insert {t : Table α key} {r r' : α} (h : r ∈ (t.insert r').rows) :
    r ∈ t.rows ∨ r = r' := by
  unfold insert at h
  split at h
  · exact .inl h
  · exact (List.mem_append.mp h).imp_right List.mem_singleton.mp

theorem all_insert {t : Table α key} (h : t.All P) {r : α} (hr : P r) : (t.insert r).All P := by
  intro r' hr'
  rcases mem_insert hr' with hold | rfl
  · exact h r' hold
  · exact hr

theorem grows_insert (stamp : α → σ) (t : Table α key) (r : α) : t.Grows stamp (t.insert r) := by
  unfold Grows stamps insert
  split
  · exact List.prefix_rfl
  · rw [List.map_append]
    exact List.prefix_append _ _

/-- Whether or not its key was taken, there is a row with the key of the new one. -/
theorem key_mem_insert (t : Table α key) (r : α) : key r ∈ (t.insert r).rows.map key := by
  unfold insert
  split
  · assumption
  · simp

/-- A second constraint stays met when the new row has a new stamp. -/
theorem nodup_insert {t : Table α key} (h : (t.stamps stamp).Nodup) {r : α}
    (hr : stamp r ∉ t.stamps stamp) : ((t.insert r).stamps stamp).Nodup := by
  unfold insert
  split
  · exact h
  · unfold stamps at *
    rw [List.map_append, List.map_singleton]
    exact h.append (List.nodup_singleton _) (by simpa using hr)

/-! ### Rewriting -/

theorem all_modify {t : Table α key} {k : κ} {f : α → α} (h : t.All P)
    (hf : ∀ r, key (f r) = key r) (hstep : ∀ r ∈ t.rows, key r = k → P r → P (f r)) : (t.modify k f hf).All P := by
  intro r hr
  obtain ⟨old, hold, rfl⟩ := (mem_modify t k f hf).mp hr
  split
  · next hk => exact hstep old hold hk (h old hold)
  · exact h old hold

theorem stamps_modify (t : Table α key) (k : κ) (f : α → α) (hf : ∀ r, key (f r) = key r)
    (h : ∀ r, stamp (f r) = stamp r) : (t.modify k f hf).stamps stamp = t.stamps stamp := by
  unfold stamps modify
  rw [List.map_map]
  refine List.map_congr_left fun r _ => ?_
  by_cases hr : key r = k <;> simp [hr, h]

theorem nodup_modify {t : Table α key} {k : κ} {f : α → α} (h : (t.stamps stamp).Nodup)
    (hf : ∀ r, key (f r) = key r) (hs : ∀ r, stamp (f r) = stamp r) :
    ((t.modify k f hf).stamps stamp).Nodup := by
  rw [stamps_modify t k f hf hs]
  exact h

theorem grows_modify (t : Table α key) (k : κ) (f : α → α) (hf : ∀ r, key (f r) = key r)
    (h : ∀ r, stamp (f r) = stamp r) : t.Grows stamp (t.modify k f hf) := by
  have heq := stamps_modify t k f hf h
  exact ⟨[], (List.append_nil _).trans heq.symm⟩

end Table

end Schemes
