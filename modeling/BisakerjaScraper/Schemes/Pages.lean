import Mathlib.Data.List.Basic

/-! Pages of a list: the slices of one size, in order. -/

namespace Schemes

variable {α : Type} {size step width index : ℕ} {items : List α}

/-- The page at an index, the first one at zero. -/
def pageAt (size : ℕ) (items : List α) (index : ℕ) : List α := (items.drop (index * size)).take size

/-- The first pages make up the front of the list. -/
theorem flatten_pages (size : ℕ) (items : List α) (count : ℕ) :
    ((List.range count).map (pageAt size items)).flatten = items.take (count * size) := by
  induction count with
  | zero => simp
  | succ count ih =>
    rw [List.range_succ, List.map_append, List.flatten_append, ih, Nat.succ_mul, List.take_add]
    simp [pageAt]

/-- The number of pages is rounded up. -/
theorem le_pages_mul (hsize : 0 < size) (length : ℕ) :
    length ≤ (length + size - 1) / size * size := by
  have hdiv := Nat.lt_div_mul_add hsize (a := length + size - 1)
  omega

/-- All pages make up the list. -/
theorem flatten_all_pages (hsize : 0 < size) (items : List α) :
    ((List.range ((items.length + size - 1) / size)).map (pageAt size items)).flatten = items := by
  rw [flatten_pages]
  exact List.take_of_length_le (le_pages_mul hsize _)

/-- The pages that hold something are those below the number of pages. -/
theorem lt_pages_iff (hsize : 0 < size) (length : ℕ) :
    index < (length + size - 1) / size ↔ index * size < length := by
  rw [Nat.lt_div_iff_mul_lt hsize]
  constructor <;> intro h <;> omega

theorem pageAt_eq_nil_iff (hsize : 0 < size) :
    pageAt size items index = [] ↔ items.length ≤ index * size := by
  unfold pageAt
  rw [List.take_eq_nil_iff, List.drop_eq_nil_iff]
  exact or_iff_right (Nat.pos_iff_ne_zero.mp hsize)

theorem length_pageAt_le : (pageAt size items index).length ≤ size := by
  unfold pageAt
  exact List.length_take_le _ _

/-- Slices of a bounded size hold so many elements at most. -/
theorem length_flatten_le {f : ℕ → List α} (h : ∀ i, (f i).length ≤ size) (count : ℕ) :
    ((List.range count).map f).flatten.length ≤ count * size := by
  induction count with
  | zero => simp
  | succ count ih =>
    have hlast := h count
    rw [List.range_succ, List.map_append, List.flatten_append, List.length_append, Nat.succ_mul]
    simp only [List.map_cons, List.map_nil, List.flatten_cons, List.flatten_nil, List.append_nil]
    omega

/-- A page with another one behind it is full. -/
theorem length_pageAt_of_lt (hsize : 0 < size)
    (h : index + 1 < (items.length + size - 1) / size) : (pageAt size items index).length = size := by
  have hmore := (lt_pages_iff hsize items.length).mp h
  rw [Nat.succ_mul] at hmore
  unfold pageAt
  rw [List.length_take, List.length_drop]
  omega

/-! ### Windows -/

/-- The window at an index: so wide, and a step behind the one before it. -/
def windowAt (step width : ℕ) (items : List α) (index : ℕ) : List α :=
  (items.drop (index * step)).take width

/-- How far the first windows reach. -/
def reach (step width : ℕ) : ℕ → ℕ
  | 0 => 0
  | count + 1 => count * step + width

theorem reach_self (size count : ℕ) : reach size size count = count * size := by
  cases count with
  | zero => rw [reach, Nat.zero_mul]
  | succ count => rw [reach, Nat.succ_mul]

theorem reach_lt_succ (hpos : 0 < step) (hstep : step ≤ width) (count : ℕ) :
    reach step width count < reach step width (count + 1) := by
  cases count with
  | zero =>
    rw [reach, reach]
    omega
  | succ count =>
    rw [reach, reach, Nat.succ_mul]
    omega

/-- The windows leave no gap. -/
theorem start_le_reach (hstep : step ≤ width) (count : ℕ) :
    count * step ≤ reach step width count := by
  cases count with
  | zero =>
    rw [Nat.zero_mul]
    exact Nat.zero_le _
  | succ count =>
    rw [reach, Nat.succ_mul]
    omega

/-- The first windows make up the front of the list. -/
theorem mem_windows_iff (hpos : 0 < step) (hstep : step ≤ width) (items : List α) (count : ℕ)
    {x : α} :
    (∃ index < count, x ∈ windowAt step width items index) ↔
      x ∈ items.take (reach step width count) := by
  induction count with
  | zero => simp [reach]
  | succ count ih =>
    have hsplit : (∃ index < count + 1, x ∈ windowAt step width items index) ↔
        (∃ index < count, x ∈ windowAt step width items index) ∨
          x ∈ windowAt step width items count := Nat.exists_lt_succ_right
    have hfront : items.take (reach step width (count + 1))
        = items.take (count * step) ++ windowAt step width items count := by
      rw [reach, List.take_add, windowAt]
    have hstart : x ∈ items.take (count * step) → x ∈ items.take (reach step width count) :=
      fun h => List.take_subset_take_left items (start_le_reach hstep count) h
    have hend : x ∈ items.take (reach step width count) →
        x ∈ items.take (reach step width (count + 1)) :=
      fun h => List.take_subset_take_left items (Nat.le_of_lt (reach_lt_succ hpos hstep count)) h
    rw [hsplit, ih]
    constructor
    · rintro (hold | hnew)
      · exact hend hold
      · rw [hfront]
        exact List.mem_append_right _ hnew
    · intro h
      rw [hfront] at h
      exact (List.mem_append.mp h).imp hstart id

end Schemes
