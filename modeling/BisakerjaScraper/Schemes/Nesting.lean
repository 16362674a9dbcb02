import Mathlib.Data.List.Basic

/-! Well-nested sequences of tags.

    The grammar says which sequences are well nested; a scan with a stack of the tags that are open
    decides it. A writer that keeps such a stack is right when the scan of what it wrote ends in its
    stack, and leaves may be put anywhere and taken away. -/

namespace Schemes

universe u v

/-- An opening tag, a closing tag, or an item that neither opens nor closes. -/
inductive Token (τ : Type u) (α : Type v) where
  | opening (tag : τ)
  | closing (tag : τ)
  | leaf (item : α)

variable {τ : Type u} {α : Type v}

/-- Every opened tag is closed, in order. -/
inductive WellNested : List (Token τ α) → Prop
  | nil : WellNested []
  | leaf (item : α) {rest : List (Token τ α)} : WellNested rest → WellNested (.leaf item :: rest)
  | element (tag : τ) {inner rest : List (Token τ α)} : WellNested inner → WellNested rest →
    WellNested (.opening tag :: (inner ++ .closing tag :: rest))

/-- What closes a stack of open tags: each is closed behind something well nested. -/
inductive Closes : List τ → List (Token τ α) → Prop
  | done {tokens : List (Token τ α)} : WellNested tokens → Closes [] tokens
  | close {tag : τ} {stack : List τ} {inner rest : List (Token τ α)} : WellNested inner →
    Closes stack rest → Closes (tag :: stack) (inner ++ .closing tag :: rest)

theorem Closes.leaf {stack : List τ} {rest : List (Token τ α)} (item : α) (h : Closes stack rest) :
    Closes stack (.leaf item :: rest) := by
  cases h with
  | done h => exact .done (h.leaf item)
  | close h hrest => exact .close (h.leaf item) hrest

theorem Closes.opening {tag : τ} {stack : List τ} {rest : List (Token τ α)}
    (h : Closes (tag :: stack) rest) : Closes stack (.opening tag :: rest) := by
  cases h with
  | close hinner hrest =>
    cases hrest with
    | done hrest => exact .done (.element tag hinner hrest)
    | @close next stack inner rest hnext hrest =>
      have h : Closes (next :: stack) (_ ++ .closing next :: rest) :=
        .close (.element tag hinner hnext) hrest
      simpa using h

variable [DecidableEq τ]

/-- The tags open behind some tokens, the innermost first; none where a tag closes another. -/
def openAfter : List τ → List (Token τ α) → Option (List τ)
  | stack, [] => some stack
  | stack, .opening tag :: rest => openAfter (tag :: stack) rest
  | [], .closing _ :: _ => none
  | top :: stack, .closing tag :: rest => if top = tag then openAfter stack rest else none
  | stack, .leaf _ :: rest => openAfter stack rest

@[simp] theorem openAfter_nil (stack : List τ) :
    openAfter stack ([] : List (Token τ α)) = some stack := by
  cases stack <;> rfl

@[simp] theorem openAfter_opening (stack : List τ) (tag : τ) (rest : List (Token τ α)) :
    openAfter stack (.opening tag :: rest) = openAfter (tag :: stack) rest := by
  cases stack <;> rfl

@[simp] theorem openAfter_closing_self (stack : List τ) (tag : τ) (rest : List (Token τ α)) :
    openAfter (tag :: stack) (.closing tag :: rest) = openAfter stack rest := by
  simp [openAfter]

@[simp] theorem openAfter_leaf (stack : List τ) (item : α) (rest : List (Token τ α)) :
    openAfter stack (.leaf item :: rest) = openAfter stack rest := by
  cases stack <;> rfl

/-- The scan goes on from the stack it has. -/
theorem openAfter_append (stack : List τ) (tokens rest : List (Token τ α)) :
    openAfter stack (tokens ++ rest) = (openAfter stack tokens).bind (openAfter · rest) := by
  induction tokens generalizing stack with
  | nil => simp
  | cons token tokens ih =>
    cases token with
    | opening tag => simpa using ih (tag :: stack)
    | leaf item => simpa using ih stack
    | closing tag =>
      cases stack with
      | nil => rfl
      | cons top stack =>
        simp only [List.cons_append, openAfter]
        split
        · exact ih stack
        · rfl

/-- The scan ends in the stack it began with when its tokens are well nested. -/
theorem WellNested.openAfter_eq {tokens : List (Token τ α)} (h : WellNested tokens)
    (stack : List τ) : openAfter stack tokens = some stack := by
  induction h generalizing stack with
  | nil => simp
  | leaf item _ ih => simpa using ih stack
  | element tag _ _ ihinner ihrest => simp [openAfter_append, ihinner, ihrest]

theorem closes_of_openAfter {tokens : List (Token τ α)} {stack : List τ}
    (h : openAfter stack tokens = some []) : Closes stack tokens := by
  induction tokens generalizing stack with
  | nil =>
    rw [openAfter_nil, Option.some.injEq] at h
    rw [h]
    exact .done .nil
  | cons token tokens ih =>
    cases token with
    | opening tag => exact (ih (by simpa using h)).opening
    | leaf item => exact (ih (by simpa using h)).leaf item
    | closing tag =>
      cases stack with
      | nil => cases h
      | cons top stack =>
        simp only [openAfter] at h
        split at h
        · next heq =>
          subst heq
          exact Closes.close .nil (ih h)
        · cases h

theorem wellNested_iff {tokens : List (Token τ α)} :
    WellNested tokens ↔ openAfter [] tokens = some [] := by
  constructor
  · intro h
    exact h.openAfter_eq []
  · intro h
    cases closes_of_openAfter h with
    | done h => exact h

/-- Closing what is open leaves nothing open. -/
theorem openAfter_closings (stack : List τ) :
    openAfter stack (stack.map (Token.closing (α := α))) = some [] := by
  induction stack with
  | nil => simp
  | cons tag stack ih => simpa using ih

theorem openAfter_leaves (stack : List τ) (items : List α) :
    openAfter stack (items.map (Token.leaf (τ := τ))) = some stack := by
  induction items with
  | nil => simp
  | cons item items ih => simpa using ih

/-- Leaves may be taken away at both ends. -/
theorem WellNested.of_leaves {tokens : List (Token τ α)} {front back : List α}
    (h : WellNested (front.map .leaf ++ (tokens ++ back.map .leaf))) : WellNested tokens := by
  rw [wellNested_iff, openAfter_append, openAfter_leaves, Option.bind_some, openAfter_append] at h
  obtain ⟨stack, htokens, hback⟩ := Option.bind_eq_some_iff.mp h
  rw [openAfter_leaves] at hback
  rw [wellNested_iff, htokens, hback]

end Schemes
