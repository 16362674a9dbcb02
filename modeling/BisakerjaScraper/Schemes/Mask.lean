import Mathlib.Data.List.TakeWhile

/-! Masking what a pattern finds.

    A pattern looks at the front of a text and says how many elements to keep and how many behind
    them to mask. The masked text goes on behind a match, and one element further where nothing
    matches. -/

namespace Schemes

universe u
variable {α : Type u} {pattern : List α → Option (ℕ × ℕ)} {mask : List α}

/-- The masked text once some elements have been skipped. -/
def maskFrom (pattern : List α → Option (ℕ × ℕ)) (mask : List α) : ℕ → List α → List α
  | _, [] => []
  | skip + 1, _ :: rest => maskFrom pattern mask skip rest
  | 0, c :: rest =>
    match pattern (c :: rest) with
    | some (kept, dropped) =>
      (c :: rest).take kept ++ mask ++ maskFrom pattern mask (kept + dropped - 1) rest
    | none => c :: maskFrom pattern mask 0 rest

/-- The masked text. -/
def masked (pattern : List α → Option (ℕ × ℕ)) (mask text : List α) : List α :=
  maskFrom pattern mask 0 text

/-- Something is kept of a match, which is no longer than the text. -/
structure MaskBounds (pattern : List α → Option (ℕ × ℕ)) : Prop where
  kept_pos : ∀ ⦃text kept dropped⦄, pattern text = some (kept, dropped) → 0 < kept
  le_length : ∀ ⦃text kept dropped⦄, pattern text = some (kept, dropped) →
    kept + dropped ≤ text.length

@[simp] theorem masked_nil : masked pattern mask [] = [] := rfl

theorem maskFrom_eq_masked (skip : ℕ) (text : List α) :
    maskFrom pattern mask skip text = masked pattern mask (text.drop skip) := by
  induction text generalizing skip with
  | nil => simp [masked, maskFrom]
  | cons c rest ih =>
    cases skip with
    | zero => rfl
    | succ skip => simpa [maskFrom] using ih skip

theorem masked_of_none {c : α} {rest : List α} (h : pattern (c :: rest) = none) :
    masked pattern mask (c :: rest) = c :: masked pattern mask rest := by
  rw [masked, maskFrom, h]
  rfl

theorem masked_of_some (hbounds : MaskBounds pattern) {text : List α} {kept dropped : ℕ}
    (h : pattern text = some (kept, dropped)) : masked pattern mask text
      = text.take kept ++ mask ++ masked pattern mask (text.drop (kept + dropped)) := by
  have hpos := hbounds.kept_pos h
  have hle := hbounds.le_length h
  cases text with
  | nil =>
    rw [List.length_nil] at hle
    omega
  | cons c rest =>
    obtain ⟨skip, hskip⟩ : ∃ skip, kept + dropped = skip + 1 := ⟨kept + dropped - 1, by omega⟩
    rw [masked, maskFrom, h]
    dsimp only
    rw [maskFrom_eq_masked, hskip, List.drop_succ_cons, Nat.add_sub_cancel]

/-- Masking by parts: the text is masked at its front, or goes on behind its first element. -/
theorem masked_induction (hbounds : MaskBounds pattern) {motive : List α → Prop} (nil : motive [])
    (none : ∀ c rest, pattern (c :: rest) = none → motive rest → motive (c :: rest))
    (some : ∀ text kept dropped, pattern text = some (kept, dropped) →
      motive (text.drop (kept + dropped)) → motive text) (text : List α) : motive text := by
  induction hn : text.length using Nat.strong_induction_on generalizing text with
  | _ n ih =>
    cases text with
    | nil => exact nil
    | cons c rest =>
      subst hn
      cases hfound : pattern (c :: rest) with
      | none => exact none c rest hfound (ih rest.length (by simp) rest rfl)
      | some found =>
        obtain ⟨kept, dropped⟩ := found
        have hpos := hbounds.kept_pos hfound
        refine some (c :: rest) kept dropped hfound (ih _ ?_ _ rfl)
        rw [List.length_drop, List.length_cons]
        omega

section Masked

variable (hbounds : MaskBounds pattern)
include hbounds

/-- The first element stays. -/
theorem head?_masked (text : List α) : (masked pattern mask text).head? = text.head? := by
  cases text with
  | nil => rfl
  | cons c rest =>
    cases hfound : pattern (c :: rest) with
    | none => rw [masked_of_none hfound, List.head?_cons, List.head?_cons]
    | some found =>
      obtain ⟨kept, dropped⟩ := found
      obtain ⟨more, hmore⟩ : ∃ more, kept = more + 1 :=
        ⟨kept - 1, by have := hbounds.kept_pos hfound; omega⟩
      rw [masked_of_some hbounds hfound, hmore, List.take_succ_cons, List.cons_append,
        List.cons_append, List.head?_cons, List.head?_cons]

theorem masked_eq_nil_iff {text : List α} : masked pattern mask text = [] ↔ text = [] := by
  rw [← List.head?_eq_none_iff, head?_masked hbounds, List.head?_eq_none_iff]

/-- What holds of the elements of a text and of the mask holds of those of the masked text. -/
theorem forall_masked {p : α → Prop} (hmask : ∀ c ∈ mask, p c) {text : List α}
    (htext : ∀ c ∈ text, p c) : ∀ c ∈ masked pattern mask text, p c := by
  induction text using masked_induction hbounds with
  | nil => simp
  | none c rest hfound ih =>
    obtain ⟨hc, hrest⟩ := List.forall_mem_cons.mp htext
    rw [masked_of_none hfound]
    exact List.forall_mem_cons.mpr ⟨hc, ih hrest⟩
  | some text kept dropped hfound ih =>
    rw [masked_of_some hbounds hfound]
    intro c hc
    rcases List.mem_append.mp hc with hfront | hrest
    · rcases List.mem_append.mp hfront with hkept | hmasked
      · exact htext c (List.mem_of_mem_take hkept)
      · exact hmask c hmasked
    · exact ih (fun d hd => htext d (List.mem_of_mem_drop hd)) c hrest

/-- A text is left alone, or stands unmasked behind its last mask. -/
theorem masked_eq_or (text : List α) : masked pattern mask text = text ∨
    ∃ front back, masked pattern mask text = front ++ mask ++ back ∧ back <:+ text := by
  induction text using masked_induction hbounds with
  | nil => exact .inl rfl
  | none c rest hfound ih =>
    rw [masked_of_none hfound]
    rcases ih with hsame | ⟨front, back, heq, hsuffix⟩
    · exact .inl (by rw [hsame])
    · exact .inr ⟨c :: front, back, by rw [heq]; rfl, hsuffix.trans (List.suffix_cons c rest)⟩
  | some text kept dropped hfound ih =>
    rw [masked_of_some hbounds hfound]
    rcases ih with hsame | ⟨front, back, heq, hsuffix⟩
    · exact .inr ⟨text.take kept, _, by rw [hsame], List.drop_suffix _ _⟩
    · exact .inr ⟨text.take kept ++ mask ++ front, back, by rw [heq]; simp,
        hsuffix.trans (List.drop_suffix _ _)⟩

/-- A separator that no match crosses. -/
theorem masked_append_sep {sep : α} (hsep : ∀ rest, pattern (sep :: rest) = none)
    (hlocal : ∀ word rest, sep ∉ word → pattern (word ++ sep :: rest) = pattern word)
    {word : List α} (hword : sep ∉ word) (rest : List α) :
    masked pattern mask (word ++ sep :: rest)
      = masked pattern mask word ++ sep :: masked pattern mask rest := by
  induction word using masked_induction hbounds with
  | nil => exact masked_of_none (hsep rest)
  | none c word hfound ih =>
    have hnone : pattern (c :: (word ++ sep :: rest)) = none :=
      (hlocal (c :: word) rest hword).trans hfound
    rw [List.cons_append, masked_of_none hnone, masked_of_none hfound, List.cons_append,
      ih fun hmem => hword (List.mem_cons_of_mem c hmem)]
  | some word kept dropped hfound ih =>
    have hle := hbounds.le_length hfound
    rw [masked_of_some hbounds ((hlocal word rest hword).trans hfound),
      masked_of_some hbounds hfound, List.take_append_of_le_length (by omega),
      List.drop_append_of_le_length hle, ih fun hmem => hword (List.mem_of_mem_drop hmem)]
    simp

/-- Masking again changes nothing when a match is found again and no other comes up. -/
theorem masked_masked
    (hagain : ∀ text kept dropped, pattern text = some (kept, dropped) →
      pattern (text.take kept ++ mask ++ masked pattern mask (text.drop (kept + dropped)))
        = some (kept, mask.length))
    (hnone : ∀ c rest, pattern (c :: rest) = none →
      pattern (c :: masked pattern mask rest) = none) (text : List α) :
    masked pattern mask (masked pattern mask text) = masked pattern mask text := by
  induction text using masked_induction hbounds with
  | nil => rfl
  | none c rest hfound ih => rw [masked_of_none hfound, masked_of_none (hnone c rest hfound), ih]
  | some text kept dropped hfound ih =>
    have hle := hbounds.le_length hfound
    have hkept : (text.take kept ++ mask).length = kept + mask.length := by
      rw [List.length_append, List.length_take]
      omega
    rw [masked_of_some hbounds hfound, masked_of_some hbounds (hagain text kept dropped hfound),
      ← hkept, List.drop_left, ih, List.append_assoc (text.take kept) mask,
      List.take_append_of_le_length (by rw [List.length_take]; omega),
      List.take_of_length_le (by rw [List.length_take]; omega)]
    simp

end Masked

end Schemes
