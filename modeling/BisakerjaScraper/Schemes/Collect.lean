import Mathlib.Data.List.Basic
import Mathlib.Data.List.TakeWhile
import Mathlib.Tactic.Ring

/-! Loops that collect.

    A loop walks a list, keeps the elements that pass a test and stops as soon as it has kept
    `limit` of them. The cap is an integer and is tested after every element, kept or not, so a
    cap below one still lets the first element through. With a positive cap the loop is the
    first `limit` elements of the filtered list.

    Another loop keeps what it has not seen the key of; some elements it leaves aside without looking
    at their keys. -/

namespace Schemes

universe u
variable {α : Type u}

/-- Walks `xs`, appending what passes `p` to `kept`, until `kept` holds `limit` elements. -/
def collectUpTo (p : α → Bool) (limit : ℤ) : List α → List α → List α
  | kept, [] => kept
  | kept, x :: xs =>
    let kept := if p x then kept ++ [x] else kept
    if limit ≤ kept.length then kept else collectUpTo p limit kept xs

/-- The cap in force below a positive limit: what is kept, then the filtered rest up to it. -/
theorem collectUpTo_eq (p : α → Bool) (limit : ℤ) : ∀ (xs kept : List α),
    (kept.length : ℤ) < limit →
      collectUpTo p limit kept xs = kept ++ (xs.filter p).take (limit.toNat - kept.length)
  | [], kept, _ => by simp [collectUpTo]
  | x :: xs, kept, h => by
    simp only [collectUpTo]
    by_cases hp : p x
    · simp only [hp, if_true, List.filter_cons_of_pos]
      have hroom : limit.toNat - kept.length = (limit.toNat - (kept ++ [x]).length) + 1 := by
        simp only [List.length_append, List.length_singleton]
        omega
      rw [hroom, List.take_succ_cons]
      split
      · next hfull =>
        have hzero : limit.toNat - (kept ++ [x]).length = 0 := by omega
        rw [hzero, List.take_zero]
      · next hroom' =>
        rw [collectUpTo_eq p limit xs (kept ++ [x]) (by omega), List.append_assoc]
        rfl
    · simp only [hp, Bool.false_eq_true, if_false, List.filter_cons_of_neg, not_false_eq_true]
      rw [if_neg (by omega), collectUpTo_eq p limit xs kept h]

/-- With a positive cap the loop returns the first `limit` elements that pass. -/
theorem collectUpTo_nil (p : α → Bool) {limit : ℤ} (h : 1 ≤ limit) (xs : List α) :
    collectUpTo p limit [] xs = (xs.filter p).take limit.toNat := by
  rw [collectUpTo_eq p limit xs [] (by simp only [List.length_nil]; omega)]
  simp

/-- Whatever the cap, the loop keeps a prefix of the elements that pass. -/
theorem collectUpTo_prefix (p : α → Bool) (limit : ℤ) : ∀ (xs kept : List α),
    ∃ n, collectUpTo p limit kept xs = kept ++ (xs.filter p).take n
  | [], kept => ⟨0, by simp [collectUpTo]⟩
  | x :: xs, kept => by
    simp only [collectUpTo]
    by_cases hp : p x
    · simp only [hp, if_true, List.filter_cons_of_pos]
      split
      · exact ⟨1, by simp⟩
      · obtain ⟨n, hn⟩ := collectUpTo_prefix p limit xs (kept ++ [x])
        exact ⟨n + 1, by rw [hn, List.take_succ_cons, List.append_assoc]; rfl⟩
    · simp only [hp, Bool.false_eq_true, if_false, List.filter_cons_of_neg, not_false_eq_true]
      split
      · exact ⟨0, by simp⟩
      · exact collectUpTo_prefix p limit xs kept

theorem collectUpTo_sublist (p : α → Bool) (limit : ℤ) (xs : List α) :
    (collectUpTo p limit [] xs).Sublist (xs.filter p) := by
  obtain ⟨n, hn⟩ := collectUpTo_prefix p limit xs []
  rw [hn, List.nil_append]
  exact List.take_sublist n _

/-! ### The first of each key -/

section Firsts

universe v
variable {κ : Type v} [DecidableEq κ]

/-- The elements that are the first of their key, once some keys have been seen. -/
def firstsFrom (key : α → κ) (skip : α → Bool) : List κ → List α → List α
  | _, [] => []
  | seen, x :: xs =>
    if skip x || key x ∈ seen then firstsFrom key skip seen xs
    else x :: firstsFrom key skip (key x :: seen) xs

variable {key : α → κ} {skip : α → Bool} {seen : List κ} {x : α} {xs : List α}

/-- What is kept is an element that is not left aside, and its key is new. -/
theorem of_mem_firstsFrom (h : x ∈ firstsFrom key skip seen xs) :
    x ∈ xs ∧ skip x = false ∧ key x ∉ seen := by
  induction xs generalizing seen with
  | nil => cases h
  | cons y ys ih =>
    rw [firstsFrom] at h
    split at h
    · exact (ih h).imp_left (List.mem_cons_of_mem y)
    · next hkept =>
      rcases List.mem_cons.mp h with rfl | h
      · simpa [not_or] using hkept
      · obtain ⟨hmem, hskip, hnew⟩ := ih h
        exact ⟨List.mem_cons_of_mem y hmem, hskip, fun hseen => hnew (List.mem_cons_of_mem _ hseen)⟩

/-- The keys of what is kept are different. -/
theorem pairwise_firstsFrom (key : α → κ) (skip : α → Bool) (seen : List κ) (xs : List α) :
    (firstsFrom key skip seen xs).Pairwise fun x y => key x ≠ key y := by
  induction xs generalizing seen with
  | nil => exact .nil
  | cons x xs ih =>
    rw [firstsFrom]
    split
    · exact ih seen
    · refine .cons (fun y hy => ?_) (ih _)
      obtain ⟨-, -, hnew⟩ := of_mem_firstsFrom hy
      exact fun heq => hnew (heq ▸ List.mem_cons_self)

/-- Nothing is kept when everything is left aside. -/
theorem firstsFrom_eq_nil_iff : firstsFrom key skip [] xs = [] ↔ ∀ x ∈ xs, skip x = true := by
  induction xs with
  | nil => simp [firstsFrom]
  | cons x xs ih =>
    rw [firstsFrom, List.forall_mem_cons]
    cases hskip : skip x <;> simp [ih]

/-- Only which keys have been seen matters. -/
theorem firstsFrom_congr {seen' : List κ} (h : ∀ k, k ∈ seen ↔ k ∈ seen') :
    firstsFrom key skip seen xs = firstsFrom key skip seen' xs := by
  induction xs generalizing seen seen' with
  | nil => rfl
  | cons x xs ih =>
    have hcons : ∀ k, k ∈ key x :: seen ↔ k ∈ key x :: seen' := by
      intro k
      rw [List.mem_cons, List.mem_cons, h k]
    rw [firstsFrom, firstsFrom, ih h, ih hcons]
    simp only [h]

/-- When nothing is left aside, nothing is kept of what has been seen. -/
theorem firstsFrom_eq_nil_iff_seen :
    firstsFrom key (fun _ => false) seen xs = [] ↔ ∀ x ∈ xs, key x ∈ seen := by
  induction xs with
  | nil => simp [firstsFrom]
  | cons x xs ih =>
    rw [firstsFrom, List.forall_mem_cons]
    by_cases hseen : key x ∈ seen <;> simp [hseen, ih]

/-- When nothing is left aside, every key of a front is seen behind it. -/
theorem firstsFrom_append (a b : List α) :
    firstsFrom key (fun _ => false) seen (a ++ b)
      = firstsFrom key (fun _ => false) seen a
        ++ firstsFrom key (fun _ => false) (a.map key ++ seen) b := by
  induction a generalizing seen with
  | nil => simp [firstsFrom]
  | cons x a ih =>
    rw [List.cons_append, firstsFrom, firstsFrom]
    by_cases hseen : key x ∈ seen
    · have hsame : ∀ k, k ∈ a.map key ++ seen ↔ k ∈ (x :: a).map key ++ seen := by
        intro k
        simp only [List.map_cons, List.cons_append, List.mem_cons, List.mem_append]
        constructor
        · exact .inr
        · rintro (rfl | h)
          · exact .inr hseen
          · exact h
      rw [if_pos (by simpa using hseen), if_pos (by simpa using hseen), ih, firstsFrom_congr hsame]
    · have hsame : ∀ k, k ∈ a.map key ++ key x :: seen ↔ k ∈ (x :: a).map key ++ seen := by
        intro k
        simp only [List.map_cons, List.cons_append, List.mem_cons, List.mem_append]
        tauto
      rw [if_neg (by simpa using hseen), if_neg (by simpa using hseen), ih, List.cons_append,
        firstsFrom_congr hsame]

theorem firstsFrom_concat (xs : List α) (x : α) :
    firstsFrom key (fun _ => false) [] (xs ++ [x])
      = firstsFrom key (fun _ => false) [] xs ++ if key x ∈ xs.map key then [] else [x] := by
  rw [firstsFrom_append, List.append_nil, firstsFrom, firstsFrom]
  simp only [Bool.false_or, decide_eq_true_eq, firstsFrom]

/-- The last of the firsts has the key of an element exactly when behind the first with that key
    there is no other key that was not in front of it. -/
theorem getLast?_firstsFrom_iff (h : x ∈ xs) :
    (firstsFrom key (fun _ => false) [] xs).getLast?.map key = some (key x) ↔
      ∀ y ∈ xs.dropWhile (key · ≠ key x),
        key y = key x ∨ key y ∈ (xs.takeWhile (key · ≠ key x)).map key := by
  have hsplit := (List.takeWhile_append_dropWhile (p := (key · ≠ key x)) (l := xs)).symm
  have hfront : ∀ y ∈ xs.takeWhile (key · ≠ key x), key y ≠ key x := by
    intro y hy
    simpa using List.mem_takeWhile_imp hy
  have hsome : xs.dropWhile (key · ≠ key x) ≠ [] := by
    intro hnil
    rw [List.dropWhile_eq_nil_iff] at hnil
    simpa using hnil x h
  have hhead := List.head_dropWhile_not (key · ≠ key x) hsome
  generalize xs.takeWhile (key · ≠ key x) = front at hsplit hfront ⊢
  generalize xs.dropWhile (key · ≠ key x) = back at hsplit hsome hhead ⊢
  obtain ⟨first, rest, rfl⟩ := List.exists_cons_of_ne_nil hsome
  have hkey : key first = key x := not_not.mp (of_decide_eq_false hhead)
  have hnew : key first ∉ front.map key ++ [] := by
    rw [List.append_nil, List.mem_map]
    rintro ⟨y, hy, heq⟩
    exact hfront y hy (heq.trans hkey)
  rw [hsplit, firstsFrom_append, firstsFrom, if_neg (by simpa using hnew), List.getLast?_append_cons,
    List.append_nil, List.forall_mem_cons, hkey]
  cases hrest : firstsFrom key (fun _ => false) (key x :: front.map key) rest with
  | nil =>
    have hseen := firstsFrom_eq_nil_iff_seen.mp hrest
    simpa [hkey] using hseen
  | cons next later =>
    obtain ⟨last, hlast⟩ : ∃ last, (next :: later).getLast? = some last :=
      ⟨_, List.getLast?_eq_getLast_of_ne_nil (List.cons_ne_nil next later)⟩
    have hfirsts : last ∈ firstsFrom key (fun _ => false) (key x :: front.map key) rest := by
      rw [hrest]
      exact List.mem_of_getLast? hlast
    obtain ⟨hmem, -, hunseen⟩ := of_mem_firstsFrom hfirsts
    rw [List.mem_cons, not_or] at hunseen
    rw [List.getLast?_cons_cons, hlast, Option.map_some, Option.some.injEq]
    constructor
    · exact fun heq => absurd heq hunseen.1
    · exact fun hall => absurd (hall.2 _ hmem) (by tauto)

end Firsts

end Schemes
