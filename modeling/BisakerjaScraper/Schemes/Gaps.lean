import Mathlib.Data.List.GetD

/-! Lists with gaps.

    A column of some rows may have gaps. When its gaps are closed and the list is read by index as
    the column, each value is found in its row exactly when the gaps were at the end. -/

namespace Schemes

universe u
variable {α : Type u} [DecidableEq α] {blank : α}

/-- No gap stands before a value. -/
def GapsLast (blank : α) (column : List α) : Prop :=
  column.Pairwise fun a b => b ≠ blank → a ≠ blank

/-- The values of the column. -/
def values (blank : α) (column : List α) : List α := column.filter (· ≠ blank)

theorem length_values_le (blank : α) (column : List α) :
    (values blank column).length ≤ column.length := List.length_filter_le ..

theorem mem_values {column : List α} {a : α} :
    a ∈ values blank column ↔ a ∈ column ∧ a ≠ blank := by
  simp [values]

/-- The gaps are last when the column is its values and blanks behind them. -/
theorem gapsLast_iff (column : List α) : GapsLast blank column ↔
    values blank column ++ List.replicate (column.length - (values blank column).length) blank
      = column := by
  constructor
  · intro h
    induction column with
    | nil => rfl
    | cons a rest ih =>
      obtain ⟨hfirst, hrest⟩ := List.pairwise_cons.mp h
      by_cases ha : a = blank
      · have hall : ∀ b ∈ rest, b = blank := fun b hb =>
          Decidable.byContradiction fun hne => hfirst b hb hne ha
        have hnone : values blank (a :: rest) = [] := by
          simpa [values, ha] using hall
        rw [hnone, List.nil_append, eq_comm]
        exact List.eq_replicate_iff.mpr ⟨rfl, List.forall_mem_cons.mpr ⟨ha, hall⟩⟩
      · have hvalues : values blank (a :: rest) = a :: values blank rest := by simp [values, ha]
        rw [hvalues, List.length_cons, List.length_cons, Nat.add_sub_add_right, List.cons_append,
          ih hrest]
  · intro h
    rw [← h, GapsLast, List.pairwise_append]
    refine ⟨?_, ?_, ?_⟩
    · exact List.pairwise_of_forall_mem_list fun a ha _ _ _ => (mem_values.mp ha).2
    · exact List.pairwise_of_forall_mem_list fun a _ b hb hne =>
        absurd (List.eq_of_mem_replicate hb) hne
    · exact fun a ha _ _ _ => (mem_values.mp ha).2

omit [DecidableEq α] in
/-- A shorter list reads as the column when blanks fill it up to the column. -/
theorem getD_eq_iff {short column : List α} (h : short.length ≤ column.length) :
    (∀ (i : ℕ) (hi : i < column.length), short.getD i blank = column[i]) ↔
      short ++ List.replicate (column.length - short.length) blank = column := by
  have hlength : (short ++ List.replicate (column.length - short.length) blank).length
      = column.length := by
    rw [List.length_append, List.length_replicate]
    omega
  have hget : ∀ (i : ℕ)
      (hi : i < (short ++ List.replicate (column.length - short.length) blank).length),
      (short ++ List.replicate (column.length - short.length) blank)[i] = short.getD i blank := by
    intro i hi
    by_cases hshort : i < short.length
    · rw [List.getElem_append_left hshort, List.getD_eq_getElem _ _ hshort]
    · rw [List.getElem_append_right (by omega), List.getElem_replicate,
        List.getD_eq_default _ _ (by omega)]
  constructor
  · intro hread
    exact List.ext_getElem hlength fun i hi hcolumn => (hget i hi).trans (hread i hcolumn)
  · intro heq i hi
    rw [← hget i (Nat.lt_of_lt_of_eq hi hlength.symm)]
    exact List.getElem_of_eq heq _

omit [DecidableEq α] in
/-- A list is the one it is read as by index. -/
theorem map_range_eq_iff (read : ℕ → α) (list : List α) :
    (List.range list.length).map read = list ↔
      ∀ (i : ℕ) (hi : i < list.length), read i = list[i] := by
  constructor
  · intro h i hi
    have hget := List.getElem_of_eq h (i := i) (by simpa using hi)
    simpa using hget
  · intro h
    refine List.ext_getElem (by simp) fun i hi hlist => ?_
    simpa using h i hlist

/-- The values rewritten by `g` read as the column exactly when `g` keeps them and the gaps are
    last. -/
theorem getD_map_values_iff (g : α → α) (column : List α) :
    (∀ (i : ℕ) (hi : i < column.length), ((values blank column).map g).getD i blank = column[i]) ↔
      (∀ a ∈ column, a ≠ blank → g a = a) ∧ GapsLast blank column := by
  have hle : ((values blank column).map g).length ≤ column.length := by
    rw [List.length_map]
    exact length_values_le blank column
  rw [getD_eq_iff hle]
  have hkept : ((values blank column).map g = values blank column) ↔
      ∀ a ∈ column, a ≠ blank → g a = a := by
    have hmap : (values blank column).map g = (values blank column).map id ↔
        ∀ a ∈ values blank column, g a = id a := List.map_inj_left
    rw [List.map_id] at hmap
    simp only [hmap, mem_values, id, and_imp]
  rw [← hkept, gapsLast_iff]
  constructor
  · intro h
    have hvalues : values blank ((values blank column).map g) = values blank column := by
      have hfilter := congrArg (values blank) h
      rw [values, values, List.filter_append] at hfilter
      simpa [values] using hfilter
    have hsame : (values blank column).map g = values blank column := by
      have hall : values blank ((values blank column).map g) = (values blank column).map g := by
        refine List.Sublist.eq_of_length List.filter_sublist ?_
        rw [hvalues, List.length_map]
      rw [← hall, hvalues]
    refine ⟨hsame, ?_⟩
    rwa [hsame] at h
  · rintro ⟨hsame, h⟩
    rwa [hsame]

end Schemes
