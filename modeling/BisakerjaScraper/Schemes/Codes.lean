import Mathlib.Data.List.Basic
import Mathlib.Logic.Function.Basic

/-! Codes whose words can be read back from the front of a text.

    A code is readable before certain texts when a word and what is behind it are determined by
    the text the two make. Sequences of words of readable codes are readable again. -/

namespace Schemes

universe u v
variable {α : Type u} {γ : Type v}

/-- A word of the code before a text that `rest` allows is read back with that text. -/
def Readable (code : α → List γ) (rest : List γ → Prop) : Prop :=
  ∀ ⦃a b x y⦄, rest x → rest y → code a ++ x = code b ++ y → a = b ∧ x = y

/-- Any text. -/
def Anything (_ : List γ) : Prop := True

/-- A text that begins with one of some letters. -/
def Begins (letters : List γ) (x : List γ) : Prop := ∃ c ∈ letters, ∃ y, x = c :: y

theorem Anything.intro {x : List γ} : Anything x := trivial

/-- A word ends at the first letter that no word has. -/
theorem append_inj_of_stops {stops u v x y : List γ} (hu : ∀ c ∈ u, c ∉ stops)
    (hv : ∀ c ∈ v, c ∉ stops) (hx : Begins stops x) (hy : Begins stops y)
    (heq : u ++ x = v ++ y) : u = v ∧ x = y := by
  induction u generalizing v with
  | nil =>
    obtain ⟨c, hc, x', rfl⟩ := hx
    cases v with
    | nil => exact ⟨rfl, heq⟩
    | cons d v =>
      obtain ⟨rfl, -⟩ := List.cons.inj heq
      exact absurd hc (hv c List.mem_cons_self)
  | cons d u ih =>
    cases v with
    | nil =>
      obtain ⟨c, hc, y', rfl⟩ := hy
      obtain ⟨rfl, -⟩ := List.cons.inj heq
      exact absurd hc (hu d List.mem_cons_self)
    | cons e v =>
      obtain ⟨rfl, htail⟩ := List.cons.inj heq
      obtain ⟨rfl, hrest⟩ := ih (fun c hc => hu c (List.mem_cons_of_mem _ hc))
        (fun c hc => hv c (List.mem_cons_of_mem _ hc)) htail
      exact ⟨rfl, hrest⟩

/-- A word without a letter does not begin with it, nor does what is behind the word. -/
theorem ne_of_begins {stops u x y : List γ} {c : γ} (hu : ∀ d ∈ u, d ≠ c) (hc : c ∉ stops)
    (hx : Begins stops x) : u ++ x ≠ c :: y := by
  intro heq
  cases u with
  | nil =>
    obtain ⟨d, hd, x', rfl⟩ := hx
    obtain ⟨rfl, -⟩ := List.cons.inj heq
    exact hc hd
  | cons d u => exact hu d List.mem_cons_self (List.cons.inj heq).1

/-- Words up to a closing letter. -/
def closed (code : α → List γ) (closing : γ) : List α → List γ
  | [] => [closing]
  | a :: as => code a ++ closed code closing as

/-- No word begins with the closing letter. -/
theorem Readable.closed {code : α → List γ} {closing : γ} (h : Readable code Anything)
    (hne : ∀ a, ∃ c w, c ≠ closing ∧ code a = c :: w) : Readable (closed code closing) Anything := by
  intro as
  induction as with
  | nil =>
    rintro (- | ⟨b, bs⟩) x y _ _ heq
    · exact ⟨rfl, (List.cons.inj heq).2⟩
    · obtain ⟨c, w, hc, hcode⟩ := hne b
      simp only [Schemes.closed, hcode, List.cons_append, List.nil_append, List.cons.injEq] at heq
      exact absurd heq.1.symm hc
  | cons a as ih =>
    rintro (- | ⟨b, bs⟩) x y _ _ heq
    · obtain ⟨c, w, hc, hcode⟩ := hne a
      simp only [Schemes.closed, hcode, List.cons_append, List.nil_append, List.cons.injEq] at heq
      exact absurd heq.1 hc
    · simp only [Schemes.closed, List.append_assoc] at heq
      obtain ⟨rfl, htail⟩ := h .intro .intro heq
      obtain ⟨rfl, hrest⟩ := ih .intro .intro htail
      exact ⟨rfl, hrest⟩

/-- Words each behind a separator, up to a closing letter. -/
def separated (code : α → List γ) (separator closing : γ) : List α → List γ
  | [] => [closing]
  | a :: as => separator :: (code a ++ separated code separator closing as)

theorem begins_separated (code : α → List γ) (separator closing : γ) (as : List α) (x : List γ) :
    Begins [separator, closing] (separated code separator closing as ++ x) := by
  cases as with
  | nil => exact ⟨closing, by simp, x, rfl⟩
  | cons a as => exact ⟨separator, by simp, _, rfl⟩

theorem Readable.separated {code : α → List γ} {separator closing : γ}
    (h : Readable code (Begins [separator, closing])) (hne : separator ≠ closing) :
    Readable (separated code separator closing) Anything := by
  intro as
  induction as with
  | nil =>
    rintro (- | ⟨b, bs⟩) x y _ _ heq
    · exact ⟨rfl, (List.cons.inj heq).2⟩
    · exact absurd (List.cons.inj heq).1.symm hne
  | cons a as ih =>
    rintro (- | ⟨b, bs⟩) x y _ _ heq
    · exact absurd (List.cons.inj heq).1 hne
    · simp only [Schemes.separated, List.cons_append, List.append_assoc, List.cons.injEq,
        true_and] at heq
      obtain ⟨rfl, htail⟩ := h (begins_separated _ _ _ _ _) (begins_separated _ _ _ _ _) heq
      obtain ⟨rfl, hrest⟩ := ih .intro .intro htail
      exact ⟨rfl, hrest⟩

/-- A code readable before some text tells its words apart. -/
theorem Readable.injective {code : α → List γ} {rest : List γ → Prop} (h : Readable code rest)
    (x : List γ) (hx : rest x) : Function.Injective code :=
  fun _ _ heq => (h hx hx (by rw [heq])).1

end Schemes
