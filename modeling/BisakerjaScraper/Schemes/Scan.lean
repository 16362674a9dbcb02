import Mathlib.Data.List.Basic

/-! Left-to-right scans.

    A pattern looks at the front of a text and says what it matches and how long the match is. A
    scan collects the matches that do not overlap: it goes on behind a match, and one element
    further where nothing matches. -/

namespace Schemes

variable {α β : Type} {pattern : List α → Option (β × ℕ)}

/-- The matches of a pattern once some elements have been skipped. -/
def scanFrom (pattern : List α → Option (β × ℕ)) : ℕ → List α → List β
  | _, [] => []
  | skip + 1, _ :: rest => scanFrom pattern skip rest
  | 0, c :: rest =>
    match pattern (c :: rest) with
    | some (x, length) => x :: scanFrom pattern (length - 1) rest
    | none => scanFrom pattern 0 rest

/-- The matches of a pattern in a text. -/
def scan (pattern : List α → Option (β × ℕ)) (text : List α) : List β := scanFrom pattern 0 text

@[simp] theorem scan_nil : scan pattern [] = [] := rfl

theorem scanFrom_eq_scan (skip : ℕ) (text : List α) :
    scanFrom pattern skip text = scan pattern (text.drop skip) := by
  induction text generalizing skip with
  | nil => simp [scan, scanFrom]
  | cons c rest ih =>
    cases skip with
    | zero => rfl
    | succ skip => simpa [scanFrom] using ih skip

/-- What is collected is a match somewhere in the text. -/
theorem exists_match_of_mem_scanFrom {text : List α} {x : β} {skip : ℕ}
    (h : x ∈ scanFrom pattern skip text) :
    ∃ back length, back <:+ text ∧ pattern back = some (x, length) := by
  induction text generalizing skip with
  | nil => cases skip <;> cases h
  | cons c rest ih =>
    have hrest : ∀ {skip}, x ∈ scanFrom pattern skip rest →
        ∃ back length, back <:+ c :: rest ∧ pattern back = some (x, length) := by
      intro skip hmem
      obtain ⟨back, length, hsuffix, hmatch⟩ := ih hmem
      exact ⟨back, length, hsuffix.trans (List.suffix_cons c rest), hmatch⟩
    cases skip with
    | zero =>
      rw [scanFrom] at h
      split at h
      · next y length hmatch =>
        rcases List.mem_cons.mp h with rfl | hmem
        · exact ⟨_, _, List.suffix_refl _, hmatch⟩
        · exact hrest hmem
      · exact hrest h
    | succ skip => exact hrest h

/-- Elements that start no match are passed over. -/
theorem scan_append_of_none {front : List α}
    (h : ∀ c ∈ front, ∀ rest, pattern (c :: rest) = none) (text : List α) :
    scan pattern (front ++ text) = scan pattern text := by
  induction front with
  | nil => rfl
  | cons c rest ih =>
    have hnone := h c List.mem_cons_self (rest ++ text)
    have hrest := ih fun d hd => h d (List.mem_cons_of_mem _ hd)
    simpa [scan, scanFrom, hnone] using hrest

/-- So is a front no end of which starts a match. -/
theorem scan_append_of_skipped {front back : List α}
    (h : ∀ text, text ≠ [] → text <:+ front → pattern (text ++ back) = none) :
    scan pattern (front ++ back) = scan pattern back := by
  induction front with
  | nil => rfl
  | cons c rest ih =>
    have hnone := h (c :: rest) (List.cons_ne_nil c rest) (List.suffix_refl _)
    have hrest := ih fun text hne hsuffix => h text hne (hsuffix.trans (List.suffix_cons c rest))
    rw [List.cons_append] at hnone
    simpa [scan, scanFrom, hnone] using hrest

/-- Nothing is collected where nothing matches. -/
theorem scanFrom_of_none {text : List α} (h : ∀ c ∈ text, ∀ rest, pattern (c :: rest) = none)
    (skip : ℕ) : scanFrom pattern skip text = [] := by
  induction text generalizing skip with
  | nil => cases skip <;> rfl
  | cons c rest ih =>
    have hrest := ih fun d hd => h d (List.mem_cons_of_mem _ hd)
    cases skip with
    | zero => simpa [scanFrom, h c List.mem_cons_self rest] using hrest 0
    | succ skip => exact hrest skip

/-- Elements at the end that start no match and change none are not seen. -/
theorem scan_append_of_same {back : List α} (h : ∀ c ∈ back, ∀ rest, pattern (c :: rest) = none)
    (hsame : ∀ front, pattern (front ++ back) = pattern front) (text : List α) :
    scan pattern (text ++ back) = scan pattern text := by
  have hfrom : ∀ skip, scanFrom pattern skip (text ++ back) = scanFrom pattern skip text := by
    induction text with
    | nil =>
      intro skip
      rw [List.nil_append, scanFrom_of_none h]
      cases skip <;> rfl
    | cons c rest ih =>
      intro skip
      cases skip with
      | zero =>
        have hat := hsame (c :: rest)
        rw [List.cons_append] at hat ⊢
        rw [scanFrom, scanFrom, hat]
        cases pattern (c :: rest) with
        | none => exact ih 0
        | some found => exact congrArg (found.1 :: ·) (ih (found.2 - 1))
      | succ skip => exact ih skip
  exact hfrom 0

/-- A text that no match runs out of: the scan goes through it, as another pattern does that knows
    what follows, and then through what follows. -/
theorem scan_append_of_apart {pattern' : List α → Option (β × ℕ)} {front back : List α}
    (hlength : ∀ text x length, pattern' text = some (x, length) → length ≤ text.length)
    (hsame : ∀ text, text ≠ [] → text <:+ front → pattern (text ++ back) = pattern' text) :
    scan pattern (front ++ back) = scan pattern' front ++ scan pattern back := by
  suffices hfrom : ∀ skip, skip ≤ front.length →
      scanFrom pattern skip (front ++ back) = scanFrom pattern' skip front ++ scan pattern back from
    hfrom 0 (Nat.zero_le _)
  induction front with
  | nil =>
    intro skip hskip
    obtain rfl : skip = 0 := by simpa using hskip
    rfl
  | cons c rest ih =>
    have ih := ih fun text hne hsuffix => hsame text hne (hsuffix.trans (List.suffix_cons c rest))
    intro skip hskip
    cases skip with
    | succ skip => exact ih skip (by simpa using hskip)
    | zero =>
      have hat := hsame (c :: rest) (List.cons_ne_nil c rest) (List.suffix_refl _)
      rw [List.cons_append] at hat ⊢
      rw [scanFrom, scanFrom, hat]
      cases hfound : pattern' (c :: rest) with
      | none => exact ih 0 (Nat.zero_le _)
      | some found =>
        have hfits := hlength _ found.1 found.2 hfound
        rw [List.length_cons] at hfits
        exact congrArg (found.1 :: ·) (ih (found.2 - 1) (by omega))

/-- A match at the front is collected, and the scan goes on behind it. -/
theorem scan_of_match {text : List α} {x : β} {length : ℕ} (hlength : 0 < length)
    (hne : text ≠ []) (h : pattern text = some (x, length)) :
    scan pattern text = x :: scan pattern (text.drop length) := by
  cases text with
  | nil => exact absurd rfl hne
  | cons c rest =>
    obtain ⟨n, rfl⟩ := Nat.exists_eq_succ_of_ne_zero (by omega : length ≠ 0)
    rw [scan, scanFrom, h]
    exact congrArg (x :: ·) (scanFrom_eq_scan n rest)

/-- A pattern that tells more about its matches finds the same ones. -/
theorem map_scan {γ : Type} {pattern' : List α → Option (γ × ℕ)} {f : γ → β}
    (h : ∀ text, pattern text = (pattern' text).map fun found => (f found.1, found.2))
    (text : List α) : (scan pattern' text).map f = scan pattern text := by
  have hfrom : ∀ skip, (scanFrom pattern' skip text).map f = scanFrom pattern skip text := by
    induction text with
    | nil =>
      intro skip
      cases skip <;> rfl
    | cons c rest ih =>
      intro skip
      cases skip with
      | succ skip => exact ih skip
      | zero =>
        rw [scanFrom, scanFrom, h]
        cases pattern' (c :: rest) with
        | none => exact ih 0
        | some found => exact congrArg (f found.1 :: ·) (ih (found.2 - 1))
  exact hfrom 0

/-- Elements that start no match may be left out in front. -/
theorem scan_drop_of_none {n : ℕ} {text : List α}
    (h : ∀ c ∈ text.take n, ∀ rest, pattern (c :: rest) = none) :
    scan pattern (text.drop n) = scan pattern text := by
  have hskip := scan_append_of_none h (text.drop n)
  rw [List.take_append_drop] at hskip
  exact hskip.symm

end Schemes
