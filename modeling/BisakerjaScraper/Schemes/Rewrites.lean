import BisakerjaScraper.Schemes.Regex

/-! Texts rewritten piece by piece.

    A rewritten text has its pieces replaced one by one, each by elements of its own or by fresh
    ones, while some elements stay where they are. Whatever these enclose was enclosed before. -/

namespace Schemes

universe u
variable {α : Type u}

/-- The second text is the first, with pieces replaced that have no fixed element. -/
inductive Rewrites (fixed : List α) (fresh : α → Prop) : List α → List α → Prop
  | nil : Rewrites fixed fresh [] []
  | keep (c : α) {a b : List α} (h : Rewrites fixed fresh a b) : Rewrites fixed fresh (c :: a) (c :: b)
  | swap {old new : List α} {a b : List α} (hne : old ≠ []) (hold : ∀ c ∈ old, c ∉ fixed)
      (hnew : ∀ c ∈ new, c ∈ old ∨ fresh c) (h : Rewrites fixed fresh a b) :
      Rewrites fixed fresh (old ++ a) (new ++ b)

/-- Something stands between an opening and a closing element. -/
def Encloses (opening closing : α) (text : List α) : Prop :=
  ∃ front inside back, text = front ++ opening :: (inside ++ closing :: back) ∧
    closing ∉ inside ∧ inside ≠ []

/-- What encloses nothing has no piece that encloses something. -/
theorem Encloses.of_piece {opening closing : α} {piece text : List α}
    (h : Encloses opening closing piece) (hpiece : piece <:+: text) :
    Encloses opening closing text := by
  obtain ⟨front, inside, back, rfl, hinside, hne⟩ := h
  obtain ⟨before, behind, rfl⟩ := hpiece
  exact ⟨before ++ front, inside, back ++ behind, by simp, hinside, hne⟩

namespace Rewrites

variable {fixed : List α} {fresh : α → Prop} {a b a' b' : List α}

theorem refl (a : List α) : Rewrites fixed fresh a a := by
  induction a with
  | nil => exact .nil
  | cons c a ih => exact ih.keep c

theorem append (h : Rewrites fixed fresh a b) (h' : Rewrites fixed fresh a' b') :
    Rewrites fixed fresh (a ++ a') (b ++ b') := by
  induction h with
  | nil => exact h'
  | keep c _ ih => exact ih.keep c
  | swap hne hold hnew _ ih =>
    rw [List.append_assoc, List.append_assoc]
    exact ih.swap hne hold hnew

/-- A piece without a fixed element may be dropped. -/
theorem dropped (h : ∀ c ∈ a, c ∉ fixed) : Rewrites fixed fresh a [] := by
  cases a with
  | nil => exact .nil
  | cons c a =>
    have hnone : ∀ d ∈ ([] : List α), d ∈ c :: a ∨ fresh d := nofun
    simpa using Rewrites.nil.swap (List.cons_ne_nil c a) h hnone

/-- A rewritten text has the elements it had, and fresh ones. -/
theorem mem (h : Rewrites fixed fresh a b) {c : α} (hc : c ∈ b) : c ∈ a ∨ fresh c := by
  induction h with
  | nil => exact .inl hc
  | keep d _ ih =>
    rcases List.mem_cons.mp hc with rfl | hc
    · exact .inl List.mem_cons_self
    · exact (ih hc).imp_left (List.mem_cons_of_mem d)
  | swap _ _ hnew _ ih =>
    rcases List.mem_append.mp hc with hc | hc
    · exact (hnew c hc).imp_left (List.mem_append_left _)
    · exact (ih hc).imp_left (List.mem_append_right _)

variable {opening closing : α}

/-- A new piece has no fixed element either. -/
theorem not_mem_new (hfresh : ∀ c, fresh c → c ∉ fixed) {old new : List α}
    (hold : ∀ c ∈ old, c ∉ fixed) (hnew : ∀ c ∈ new, c ∈ old ∨ fresh c) {c : α} (hc : c ∈ fixed) :
    c ∉ new := fun hmem => (hnew c hmem).elim (fun h => hold c h hc) fun h => hfresh c h hc

/-- What stands before a closing element stood before it. -/
theorem closes (hfresh : ∀ c, fresh c → c ∉ fixed) (hclosing : closing ∈ fixed)
    (h : Rewrites fixed fresh a b) {inside back : List α} (hb : b = inside ++ closing :: back)
    (hinside : closing ∉ inside) : ∃ inside' back', a = inside' ++ closing :: back' ∧
      closing ∉ inside' ∧ (inside ≠ [] → inside' ≠ []) := by
  induction h generalizing inside with
  | nil => simp at hb
  | @keep c a b _ ih =>
    cases inside with
    | nil =>
      cases hb
      exact ⟨[], a, rfl, List.not_mem_nil, fun h => absurd rfl h⟩
    | cons d inside =>
      cases hb
      obtain ⟨hd, hinside⟩ := not_or.mp (List.mem_cons.not.mp hinside)
      obtain ⟨inside', back', rfl, hnot, -⟩ := ih rfl hinside
      exact ⟨c :: inside', back', rfl, List.mem_cons.not.mpr (not_or.mpr ⟨hd, hnot⟩),
        fun _ => List.cons_ne_nil c inside'⟩
  | @swap old new a b hne hold hnew _ ih =>
    have hnot := not_mem_new hfresh hold hnew hclosing
    rcases List.append_eq_append_iff.mp hb with ⟨excess, rfl, hexcess⟩ | ⟨excess, rfl, hexcess⟩
    · obtain ⟨inside', back', rfl, hnot', -⟩ :=
        ih hexcess fun hmem => hinside (List.mem_append_right _ hmem)
      refine ⟨old ++ inside', back', by simp, ?_, fun _ => by simp [hne]⟩
      exact fun hmem => (List.mem_append.mp hmem).elim (fun h => hold _ h hclosing) hnot'
    · cases excess with
      | nil =>
        obtain ⟨inside', back', rfl, hnot', -⟩ :=
          @ih [] (by simpa using hexcess.symm) List.not_mem_nil
        refine ⟨old ++ inside', back', by simp, ?_, fun _ => by simp [hne]⟩
        exact fun hmem => (List.mem_append.mp hmem).elim (fun h => hold _ h hclosing) hnot'
      | cons c excess =>
        cases hexcess
        exact absurd (List.mem_append_right _ List.mem_cons_self) hnot

/-- What a rewritten text encloses was enclosed before. -/
theorem encloses (hfresh : ∀ c, fresh c → c ∉ fixed) (hopening : opening ∈ fixed)
    (hclosing : closing ∈ fixed) (h : Rewrites fixed fresh a b)
    (hb : Encloses opening closing b) : Encloses opening closing a := by
  induction h with
  | nil => exact hb
  | @keep c a b h ih =>
    obtain ⟨front, inside, back, heq, hinside, hne⟩ := hb
    cases front with
    | nil =>
      cases heq
      obtain ⟨inside', back', rfl, hnot, hkept⟩ := h.closes hfresh hclosing rfl hinside
      exact ⟨[], inside', back', rfl, hnot, hkept hne⟩
    | cons d front =>
      cases heq
      exact (ih ⟨front, inside, back, rfl, hinside, hne⟩).of_piece (List.suffix_cons _ _).isInfix
  | @swap old new a b _ hold hnew _ ih =>
    have hnot := not_mem_new hfresh hold hnew hopening
    obtain ⟨front, inside, back, heq, hinside, hne⟩ := hb
    refine (ih ?_).of_piece (List.suffix_append _ _).isInfix
    rcases List.append_eq_append_iff.mp heq with ⟨excess, -, hexcess⟩ | ⟨excess, rfl, hexcess⟩
    · exact ⟨excess, inside, back, hexcess, hinside, hne⟩
    · cases excess with
      | nil => exact ⟨[], inside, back, by simpa using hexcess.symm, hinside, hne⟩
      | cons c excess =>
        obtain ⟨rfl, -⟩ := List.cons.inj hexcess
        exact absurd (List.mem_append_right _ List.mem_cons_self) hnot

/-! ### Rewriting -/

/-- Replacing the elements one by one rewrites a text. -/
theorem flatMap {f : α → List α} (hf : ∀ c, f c = [c] ∨ c ∉ fixed ∧ ∀ d ∈ f c, d = c ∨ fresh d)
    (text : List α) : Rewrites fixed fresh text (text.flatMap f) := by
  induction text with
  | nil => exact .nil
  | cons c text ih =>
    rw [List.flatMap_cons]
    rcases hf c with hkept | ⟨hc, hnew⟩
    · rw [hkept]
      exact ih.keep c
    · exact ih.swap (List.cons_ne_nil c []) (by simpa using hc) (by simpa using hnew)

/-- Replacing matches rewrites a text. -/
theorem sub {re : Regex α} (hre : re.avoids fixed = true) {replacement : List (List α) → List α}
    (hreplacement : ∀ groups, ∀ c ∈ replacement groups, (∃ group ∈ groups, c ∈ group) ∨ fresh c)
    (text : List α) : Rewrites fixed fresh text (re.sub replacement text) := by
  have hall : ∀ chunks : List (Chunk α), (∀ chunk ∈ chunks, chunk ∈ re.scan text) →
      Rewrites fixed fresh (chunks.flatMap Chunk.text)
        (chunks.flatMap (Chunk.replaced replacement)) := by
    intro chunks hchunks
    induction chunks with
    | nil => exact .nil
    | cons chunk chunks ih =>
      obtain ⟨hfirst, hmore⟩ := List.forall_mem_cons.mp hchunks
      rw [List.flatMap_cons, List.flatMap_cons]
      cases chunk with
      | plain c => exact (ih hmore).keep c
      | found found groups =>
        obtain ⟨hne, havoided, hgroups⟩ := Regex.found_of_mem_scan hre hfirst
        refine (ih hmore).swap hne havoided fun c hc => ?_
        exact (hreplacement groups c hc).imp_left fun ⟨group, hgroup, hmem⟩ =>
          (hgroups group hgroup).subset hmem
  have hscan := hall (re.scan text) fun _ => id
  rwa [re.flatMap_text_scan] at hscan

end Rewrites

end Schemes
