import Mathlib.Data.List.DropRight
import Mathlib.Data.List.Basic

/-! Texts written block by block.

    A text that is written as the blocks of a list, one behind the other, is read by its blocks:
    where an element occurs, and what is stripped from its ends, is told by the block at the place. -/

namespace Schemes

universe u v
variable {α : Type u} {β : Type v} {write : β → List α}

/-- What occurs in the text occurs in a block. -/
theorem occurrence_flatMap {blocks : List β} {before rest : List α} {c : α}
    (h : blocks.flatMap write = before ++ c :: rest) :
    ∃ block ∈ blocks, ∃ front back, write block = front ++ c :: back ∧
      front <:+ before ∧ back <+: rest := by
  induction blocks generalizing before with
  | nil => simp at h
  | cons block blocks ih =>
    rw [List.flatMap_cons] at h
    rcases List.append_eq_append_iff.mp h with ⟨more, hbefore, hmore⟩ | ⟨more, hblock, hmore⟩
    · obtain ⟨other, hother, front, back, hwrite, hfront, hback⟩ := ih hmore
      refine ⟨other, List.mem_cons_of_mem _ hother, front, back, hwrite, ?_, hback⟩
      rw [hbefore]
      exact hfront.trans (List.suffix_append _ _)
    · rcases more with - | ⟨d, back⟩
      · rw [List.append_nil] at hblock
        have hnext : blocks.flatMap write = [] ++ c :: rest := by simpa using hmore.symm
        obtain ⟨other, hother, front, back, hwrite, hfront, hback⟩ := ih hnext
        rw [List.suffix_nil.mp hfront] at hwrite
        exact ⟨other, List.mem_cons_of_mem _ hother, [], back, hwrite, List.nil_suffix, hback⟩
      · rw [List.cons_append, List.cons.injEq] at hmore
        obtain ⟨rfl, rfl⟩ := hmore
        exact ⟨block, List.mem_cons_self, before, back, hblock, List.suffix_rfl,
          List.prefix_append _ _⟩

/-- What a text has nowhere behind its front is at its front. -/
theorem front_eq_nil {text front back : List α} {c d : α} (h : c :: text = front ++ d :: back)
    (hd : d ∉ text) : front = [] := by
  rcases front with - | ⟨e, front⟩
  · rfl
  · rw [List.cons_append, List.cons.injEq] at h
    rw [h.2] at hd
    exact absurd (List.mem_append_right _ List.mem_cons_self) hd

/-- What a text has nowhere before its end is at its end. -/
theorem back_eq_nil {text front back : List α} {c d : α} (h : text ++ [c] = front ++ d :: back)
    (hd : d ∉ text) : back = [] := by
  rcases List.eq_nil_or_concat back with hnil | ⟨back, e, rfl⟩
  · exact hnil
  · rw [List.concat_eq_append, ← List.cons_append, ← List.append_assoc] at h
    rw [(List.append_inj' h rfl).1] at hd
    exact absurd (List.mem_append_right _ List.mem_cons_self) hd

/-- A list is what is left of it when both ends are stripped, between what was stripped. -/
theorem exists_stripped (p : α → Bool) (text : List α) : ∃ front back,
    text = front ++ ((text.dropWhile p).rdropWhile p ++ back) ∧
      (∀ c ∈ front, p c = true) ∧ ∀ c ∈ back, p c = true := by
  refine ⟨text.takeWhile p, (text.dropWhile p).rtakeWhile p, ?_,
    fun c hc => List.mem_takeWhile_imp hc, fun c hc => List.mem_rtakeWhile_imp hc⟩
  unfold List.rdropWhile List.rtakeWhile
  rw [← List.reverse_append, List.takeWhile_append_dropWhile, List.reverse_reverse,
    List.takeWhile_append_dropWhile]

variable {p : α → Bool} {q : β → Bool}

/-- Stripping the front of the text strips blocks: a block is stripped as a whole or not at all. -/
theorem dropWhile_flatMap (hpos : ∀ b, q b = true → ∀ c ∈ write b, p c = true)
    (hneg : ∀ b, q b = false → ∃ c rest, write b = c :: rest ∧ p c = false) (blocks : List β) :
    (blocks.flatMap write).dropWhile p = (blocks.dropWhile q).flatMap write := by
  induction blocks with
  | nil => rfl
  | cons b blocks ih =>
    rw [List.flatMap_cons]
    cases hb : q b with
    | true => rw [List.dropWhile_append_of_pos (hpos b hb), ih, List.dropWhile_cons_of_pos hb]
    | false =>
      obtain ⟨c, rest, hwrite, hc⟩ := hneg b hb
      rw [List.dropWhile_cons_of_neg (by simp [hb]), List.flatMap_cons, hwrite, List.cons_append,
        List.dropWhile_cons_of_neg (by simp [hc])]

/-- Stripping the end of the text strips blocks. -/
theorem rdropWhile_flatMap (hpos : ∀ b, q b = true → ∀ c ∈ write b, p c = true)
    (hneg : ∀ b, q b = false → ∃ front c, write b = front ++ [c] ∧ p c = false) (blocks : List β) :
    (blocks.flatMap write).rdropWhile p = (blocks.rdropWhile q).flatMap write := by
  induction blocks using List.reverseRecOn with
  | nil => rfl
  | append_singleton blocks b ih =>
    rw [List.flatMap_append, List.flatMap_singleton]
    cases hb : q b with
    | true =>
      rw [List.rdropWhile_concat_pos _ _ _ hb, ← ih]
      unfold List.rdropWhile
      rw [List.reverse_append, List.dropWhile_append_of_pos fun c hc =>
        hpos b hb c (List.mem_reverse.mp hc)]
    | false =>
      obtain ⟨front, c, hwrite, hc⟩ := hneg b hb
      rw [List.rdropWhile_concat_neg _ _ _ (by simp [hb]), List.flatMap_append,
        List.flatMap_singleton, hwrite, ← List.append_assoc,
        List.rdropWhile_concat_neg _ _ _ (by simp [hc])]

end Schemes
