import Mathlib.Data.List.Dedup
import Mathlib.Logic.Function.Basic

/-! Rows written into the entries of a dict.

    A loop over the rows of a query rewrites, for each row, the entry of the row's key. What the
    loop leaves under a key is made from the rows of that key alone, in their order. -/

namespace Schemes

universe u v w
variable {κ : Type u} {ρ : Type v} {σ : Type w} [DecidableEq κ]

/-- The rows of a key. -/
def rowsOf (key : ρ → κ) (k : κ) (rows : List ρ) : List ρ := rows.filter fun row => key row = k

/-- `GROUP BY`: the keys of the rows, each with its rows. -/
def groups (key : ρ → κ) (rows : List ρ) : List (κ × List ρ) :=
  (rows.map key).dedup.map fun k => (k, rowsOf key k rows)

/-- Each row rewrites the entry of its key. -/
def writeRows (key : ρ → κ) (write : ρ → σ → σ) (rows : List ρ) (base : κ → σ) : κ → σ :=
  rows.foldl (fun base row => Function.update base (key row) (write row (base (key row)))) base

variable {key : ρ → κ}

@[simp] theorem rowsOf_nil (k : κ) : rowsOf key k [] = [] := rfl

theorem rowsOf_cons_self (row : ρ) (rows : List ρ) :
    rowsOf key (key row) (row :: rows) = row :: rowsOf key (key row) rows := by
  simp [rowsOf]

theorem rowsOf_cons_of_ne {k : κ} {row : ρ} (h : key row ≠ k) (rows : List ρ) :
    rowsOf key k (row :: rows) = rowsOf key k rows := by
  simp [rowsOf, h]

/-- A key without rows is no key of the rows. -/
theorem rowsOf_eq_nil_iff {k : κ} {rows : List ρ} : rowsOf key k rows = [] ↔ k ∉ rows.map key := by
  simp [rowsOf]

/-- Rows that some things with keys of their own bring along, each under its key: those of a key are
    those its thing brought. -/
theorem rowsOf_flatMap {α : Type*} {keyOf : α → κ} {rows : α → List ρ}
    (hrows : ∀ x, ∀ row ∈ rows x, key row = keyOf x) {xs : List α} (hxs : (xs.map keyOf).Nodup)
    {x : α} (hx : x ∈ xs) : rowsOf key (keyOf x) (xs.flatMap rows) = rows x := by
  have hself : ∀ x, rowsOf key (keyOf x) (rows x) = rows x := fun x =>
    List.filter_eq_self.mpr fun row hrow => decide_eq_true (hrows x row hrow)
  have hother : ∀ y ∈ xs, y ≠ x → rowsOf key (keyOf x) (rows y) = [] := fun y hy hne =>
    List.filter_eq_nil_iff.mpr fun row hrow => by
      have hkey := hrows y row hrow
      have hdiffers : keyOf y ≠ keyOf x := fun heq => hne (List.inj_on_of_nodup_map hxs hy hx heq)
      simpa [hkey] using hdiffers
  induction xs with
  | nil => cases hx
  | cons y ys ih =>
    obtain ⟨hnotin, hnodup⟩ := List.nodup_cons.mp hxs
    have hcut : rowsOf key (keyOf x) ((y :: ys).flatMap rows)
        = rowsOf key (keyOf x) (rows y) ++ rowsOf key (keyOf x) (ys.flatMap rows) := by
      rw [List.flatMap_cons]
      exact List.filter_append ..
    rw [hcut]
    rcases List.mem_cons.mp hx with rfl | hmem
    · have hnone : rowsOf key (keyOf x) (ys.flatMap rows) = [] := by
        refine List.filter_eq_nil_iff.mpr fun row hrow => ?_
        obtain ⟨z, hz, hrow⟩ := List.mem_flatMap.mp hrow
        have hdiffers : keyOf z ≠ keyOf x := fun heq => hnotin (heq ▸ List.mem_map_of_mem hz)
        simpa [hrows z row hrow] using hdiffers
      rw [hself, hnone, List.append_nil]
    · have hne : y ≠ x := fun heq => hnotin (heq ▸ List.mem_map_of_mem hmem)
      rw [hother y List.mem_cons_self hne, List.nil_append]
      exact ih hnodup hmem fun z hz => hother z (List.mem_cons_of_mem _ hz)

/-- The entry of a key sees the rows of that key. -/
theorem writeRows_apply (write : ρ → σ → σ) (rows : List ρ) (base : κ → σ) (k : κ) :
    writeRows key write rows base k
      = (rowsOf key k rows).foldl (fun entry row => write row entry) (base k) := by
  induction rows generalizing base with
  | nil => rfl
  | cons row rows ih =>
    have hstep : writeRows key write (row :: rows) base
        = writeRows key write rows
            (Function.update base (key row) (write row (base (key row)))) := rfl
    rw [hstep, ih]
    by_cases h : key row = k
    · subst h
      rw [rowsOf_cons_self, List.foldl_cons, Function.update_self]
    · rw [rowsOf_cons_of_ne h, Function.update_of_ne (Ne.symm h)]

/-- What no row changes stays. -/
theorem writeRows_keeps {τ : Type*} (f : σ → τ) {write : ρ → σ → σ}
    (hwrite : ∀ row entry, f (write row entry) = f entry) (rows : List ρ) (base : κ → σ) (k : κ) :
    f (writeRows key write rows base k) = f (base k) := by
  rw [writeRows_apply]
  generalize base k = entry
  induction rowsOf key k rows generalizing entry with
  | nil => rfl
  | cons row rows ih => rw [List.foldl_cons, ih, hwrite]

/-- A key has one group, and none without rows. -/
theorem rowsOf_groups (k : κ) (rows : List ρ) :
    rowsOf Prod.fst k (groups key rows)
      = if rowsOf key k rows = [] then [] else [(k, rowsOf key k rows)] := by
  have hfst : rowsOf Prod.fst k (groups key rows)
      = ((rows.map key).dedup.filter fun k' => k' = k).map fun k' => (k', rowsOf key k' rows) := by
    rw [rowsOf, groups, List.filter_map]
    rfl
  have hone : ((rows.map key).dedup.filter fun k' => k' = k)
      = if k ∈ rows.map key then [k] else [] := by
    have hcount := List.count_dedup (rows.map key) k
    rw [List.filter_eq, hcount]
    split <;> rfl
  rw [hfst, hone, ← ite_not]
  simp only [rowsOf_eq_nil_iff]
  split <;> rfl

/-- What a loop over groups leaves under a key. -/
theorem writeRows_groups (write : List ρ → σ → σ) (rows : List ρ) (base : κ → σ) (k : κ) :
    writeRows Prod.fst (fun group => write group.2) (groups key rows) base k
      = if rowsOf key k rows = [] then base k else write (rowsOf key k rows) (base k) := by
  rw [writeRows_apply, rowsOf_groups]
  split <;> rfl

end Schemes
