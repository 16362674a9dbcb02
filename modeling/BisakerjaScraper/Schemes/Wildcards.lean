import Mathlib.Data.List.Infix

/-! Patterns with wildcards.

    A pattern is a sequence of pieces: any number of elements, one element, or an element like a
    given one. It is written with a mark for either wildcard, and with a third in front of an
    element that is meant as it is. -/

namespace Schemes

universe u v
variable {α : Type u} {β : Type v} [DecidableEq β]

/-- A piece of a pattern. -/
inductive Piece (α : Type u) where
  | many
  | one
  | just (a : α)

/-- How a pattern is written. -/
structure Marks (α : Type u) where
  many : α
  one : α
  escape : α

namespace Marks

variable [DecidableEq α] (marks : Marks α)

/-- An element that is no mark. -/
def isPlain (a : α) : Bool := a ≠ marks.many && a ≠ marks.one && a ≠ marks.escape

/-- The piece an element stands for when it is not escaped. -/
def piece (a : α) : Piece α :=
  if a = marks.many then .many else if a = marks.one then .one else .just a

/-- Reads a pattern, behind an escape or not; `none` when an escape stands at the end. -/
def parse : Bool → List α → Option (List (Piece α))
  | false, [] => some []
  | true, [] => none
  | true, a :: rest => (parse false rest).map (.just a :: ·)
  | false, a :: rest =>
    if a = marks.escape then parse true rest else (parse false rest).map (marks.piece a :: ·)

variable {marks}

/-- Elements that are no marks stand for themselves. -/
theorem parse_plain_append {text : List α} (h : text.all marks.isPlain) (rest : List α) :
    marks.parse false (text ++ rest) = (marks.parse false rest).map (text.map .just ++ ·) := by
  induction text with
  | nil => simp
  | cons a text ih =>
    simp only [List.all_cons, Bool.and_eq_true] at h
    obtain ⟨ha, htext⟩ := h
    simp only [isPlain, Bool.and_eq_true, decide_eq_true_eq] at ha
    obtain ⟨⟨hmany, hone⟩, hescape⟩ := ha
    rw [List.cons_append, parse, if_neg hescape, ih htext, piece, if_neg hmany, if_neg hone,
      Option.map_map]
    rfl

/-- A text that is to be found anywhere. -/
theorem parse_surrounded {text : List α} (h : text.all marks.isPlain)
    (hne : marks.many ≠ marks.escape) :
    marks.parse false (marks.many :: (text ++ [marks.many]))
      = some (.many :: (text.map .just ++ [.many])) := by
  have hmany : marks.piece marks.many = .many := if_pos rfl
  simp only [parse, if_neg hne, parse_plain_append h, hmany, Option.map_some]

end Marks

/-! ### What a pattern fits -/

/-- The pattern fits the text, where elements are alike when `f` does not tell them apart. -/
def fits (f : α → β) : List (Piece α) → List α → Bool
  | [], text => text.isEmpty
  | .many :: pattern, text => text.tails.any (fits f pattern)
  | .one :: pattern, text => match text with
    | [] => false
    | _ :: rest => fits f pattern rest
  | .just a :: pattern, text => match text with
    | [] => false
    | b :: rest => decide (f a = f b) && fits f pattern rest

variable {f : α → β}

theorem fits_many_cons {pattern : List (Piece α)} {text : List α} :
    fits f (.many :: pattern) text = true ↔ ∃ rest, rest <:+ text ∧ fits f pattern rest = true := by
  simp [fits, List.mem_tails]

/-- A pattern in two parts fits a text in two parts. -/
theorem fits_append {first second : List (Piece α)} {text : List α} :
    fits f (first ++ second) text = true ↔
      ∃ a b, a ++ b = text ∧ fits f first a = true ∧ fits f second b = true := by
  induction first generalizing text with
  | nil => simp [fits]
  | cons piece first ih =>
    cases piece with
    | many =>
      rw [List.cons_append, fits_many_cons]
      constructor
      · rintro ⟨rest, ⟨skipped, rfl⟩, hfits⟩
        obtain ⟨a, b, rfl, hfirst, hsecond⟩ := ih.mp hfits
        exact ⟨skipped ++ a, b, List.append_assoc ..,
          fits_many_cons.mpr ⟨a, ⟨skipped, rfl⟩, hfirst⟩, hsecond⟩
      · rintro ⟨a, b, rfl, hfirst, hsecond⟩
        obtain ⟨rest, ⟨skipped, rfl⟩, hrest⟩ := fits_many_cons.mp hfirst
        exact ⟨rest ++ b, ⟨skipped, (List.append_assoc ..).symm⟩,
          ih.mpr ⟨rest, b, rfl, hrest, hsecond⟩⟩
    | one =>
      constructor
      · intro h
        cases text with
        | nil => cases h
        | cons c text =>
          obtain ⟨a, b, rfl, hfirst, hsecond⟩ := ih.mp h
          exact ⟨c :: a, b, rfl, hfirst, hsecond⟩
      · rintro ⟨a, b, rfl, hfirst, hsecond⟩
        cases a with
        | nil => cases hfirst
        | cons c a => exact ih.mpr ⟨a, b, rfl, hfirst, hsecond⟩
    | just d =>
      constructor
      · intro h
        cases text with
        | nil => cases h
        | cons c text =>
          obtain ⟨hlike, hrest⟩ := (Bool.and_eq_true _ _).mp h
          obtain ⟨a, b, rfl, hfirst, hsecond⟩ := ih.mp hrest
          exact ⟨c :: a, b, rfl, (Bool.and_eq_true _ _).mpr ⟨hlike, hfirst⟩, hsecond⟩
      · rintro ⟨a, b, rfl, hfirst, hsecond⟩
        cases a with
        | nil => cases hfirst
        | cons c a =>
          obtain ⟨hlike, hrest⟩ := (Bool.and_eq_true _ _).mp hfirst
          exact (Bool.and_eq_true _ _).mpr ⟨hlike, ih.mpr ⟨a, b, rfl, hrest, hsecond⟩⟩

/-- Elements that stand for themselves fit the texts like them. -/
theorem fits_just_iff {word text : List α} :
    fits f (word.map .just) text = true ↔ word.map f = text.map f := by
  induction word generalizing text with
  | nil => cases text <;> simp [fits]
  | cons a word ih =>
    cases text with
    | nil => simp [fits]
    | cons b text =>
      rw [List.map_cons, List.map_cons, List.map_cons, List.cons.injEq, ← ih]
      rw [fits, Bool.and_eq_true, decide_eq_true_iff]

theorem fits_many (text : List α) : fits f [.many] text = true :=
  fits_many_cons.mpr ⟨[], List.nil_suffix, rfl⟩

/-- Between two wildcards, a word is found wherever something like it stands. -/
theorem fits_surrounded_iff {word text : List α} :
    fits f (.many :: (word.map .just ++ [.many])) text = true ↔ word.map f <:+: text.map f := by
  rw [fits_many_cons]
  constructor
  · rintro ⟨rest, ⟨skipped, rfl⟩, hfits⟩
    obtain ⟨a, b, rfl, hword, -⟩ := fits_append.mp hfits
    rw [fits_just_iff.mp hword]
    exact ⟨skipped.map f, b.map f, by simp⟩
  · rintro ⟨s, t, h⟩
    obtain ⟨front, b, rfl, hfront, -⟩ := List.map_eq_append_iff.mp h.symm
    obtain ⟨skipped, a, rfl, -, ha⟩ := List.map_eq_append_iff.mp hfront
    refine ⟨a ++ b, ⟨skipped, by simp⟩, fits_append.mpr ⟨a, b, rfl, ?_, fits_many b⟩⟩
    exact fits_just_iff.mpr ha.symm

end Schemes
