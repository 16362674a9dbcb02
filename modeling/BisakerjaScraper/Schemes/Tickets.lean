import Mathlib.Data.List.Induction

/-! Tickets.

    A failure opens a ticket under its key, and a success closes every ticket its key has. Tickets
    stand in the order they were opened in, and none is ever taken away. So a key has an open ticket
    exactly when the last trial under it failed, and a ticket once closed stays closed. -/

namespace Schemes

universe u
variable {κ : Type u}

/-- A trial under a key, and whether it succeeded. -/
structure Trial (κ : Type u) where
  key : κ
  succeeded : Bool

/-- A ticket. -/
structure Ticket (κ : Type u) where
  key : κ
  isOpen : Bool

variable [DecidableEq κ]

/-- A ticket after its key succeeded, or another one. -/
def Ticket.close (key : κ) (ticket : Ticket κ) : Ticket κ :=
  if ticket.key = key then { ticket with isOpen := false } else ticket

/-- The book of tickets after one trial. -/
def bookTrial (book : List (Ticket κ)) (trial : Trial κ) : List (Ticket κ) :=
  if trial.succeeded then book.map (Ticket.close trial.key) else book ++ [⟨trial.key, true⟩]

/-- The book of tickets after some trials. -/
def bookTrials (book : List (Ticket κ)) (trials : List (Trial κ)) : List (Ticket κ) :=
  trials.foldl bookTrial book

/-- A key has an open ticket. -/
def HasOpen (book : List (Ticket κ)) (key : κ) : Prop :=
  ∃ ticket ∈ book, ticket.key = key ∧ ticket.isOpen = true

/-- The last trial under a key. -/
def lastTrial (trials : List (Trial κ)) (key : κ) : Option (Trial κ) :=
  (trials.filter fun trial => trial.key = key).getLast?

variable {book : List (Ticket κ)}

@[simp] theorem Ticket.close_key (key : κ) (ticket : Ticket κ) :
    (ticket.close key).key = ticket.key := by
  unfold Ticket.close
  split <;> rfl

theorem Ticket.isOpen_close (key : κ) (ticket : Ticket κ) :
    (ticket.close key).isOpen = true ↔ ticket.isOpen = true ∧ ticket.key ≠ key := by
  unfold Ticket.close
  split
  · next h => simp [h]
  · next h => simp [h]

theorem bookTrials_append (book : List (Ticket κ)) (trials more : List (Trial κ)) :
    bookTrials book (trials ++ more) = bookTrials (bookTrials book trials) more :=
  List.foldl_append

theorem bookTrials_concat (book : List (Ticket κ)) (trials : List (Trial κ)) (trial : Trial κ) :
    bookTrials book (trials ++ [trial]) = bookTrial (bookTrials book trials) trial :=
  bookTrials_append book trials [trial]

/-- A success leaves its key without an open ticket, a failure leaves it with one. -/
theorem hasOpen_bookTrial_self (book : List (Ticket κ)) (trial : Trial κ) :
    HasOpen (bookTrial book trial) trial.key ↔ trial.succeeded = false := by
  unfold HasOpen bookTrial
  cases hsucceeded : trial.succeeded with
  | true =>
    refine iff_of_false ?_ nofun
    rintro ⟨ticket, hmem, hkey, hopen⟩
    obtain ⟨earlier, -, rfl⟩ := List.mem_map.mp hmem
    rw [Ticket.close_key] at hkey
    exact ((earlier.isOpen_close trial.key).mp hopen).2 hkey
  | false => exact iff_of_true ⟨⟨trial.key, true⟩, by simp, rfl, rfl⟩ rfl

/-- A trial does not matter to the other keys. -/
theorem hasOpen_bookTrial_of_ne {trial : Trial κ} {key : κ} (h : trial.key ≠ key) :
    HasOpen (bookTrial book trial) key ↔ HasOpen book key := by
  unfold HasOpen bookTrial
  cases trial.succeeded with
  | true =>
    constructor
    · rintro ⟨ticket, hmem, hkey, hopen⟩
      obtain ⟨earlier, hearlier, rfl⟩ := List.mem_map.mp hmem
      rw [Ticket.close_key] at hkey
      exact ⟨earlier, hearlier, hkey, ((earlier.isOpen_close trial.key).mp hopen).1⟩
    · rintro ⟨ticket, hmem, rfl, hopen⟩
      refine ⟨ticket.close trial.key, List.mem_map_of_mem hmem, by simp, ?_⟩
      exact (ticket.isOpen_close trial.key).mpr ⟨hopen, Ne.symm h⟩
  | false =>
    constructor
    · rintro ⟨ticket, hmem, hkey, hopen⟩
      rcases List.mem_append.mp hmem with hmem | hmem
      · exact ⟨ticket, hmem, hkey, hopen⟩
      · rw [List.mem_singleton.mp hmem] at hkey
        exact absurd hkey h
    · rintro ⟨ticket, hmem, hkey, hopen⟩
      exact ⟨ticket, List.mem_append_left _ hmem, hkey, hopen⟩

/-- From an empty book, a key has an open ticket exactly when its last trial failed. -/
theorem hasOpen_bookTrials_iff (trials : List (Trial κ)) (key : κ) :
    HasOpen (bookTrials [] trials) key ↔
      ∃ trial, lastTrial trials key = some trial ∧ trial.succeeded = false := by
  induction trials using List.reverseRecOn with
  | nil => simp [HasOpen, bookTrials, lastTrial]
  | append_singleton trials trial ih =>
    rw [bookTrials_concat]
    unfold lastTrial
    rw [List.filter_append]
    by_cases hkey : trial.key = key
    · rw [List.filter_cons_of_pos (by simpa using hkey), List.filter_nil, List.getLast?_concat]
      subst hkey
      have hlast := hasOpen_bookTrial_self (bookTrials [] trials) trial
      simpa only [Option.some.injEq, exists_eq_left'] using hlast
    · rw [List.filter_cons_of_neg (by simpa using hkey), List.filter_nil, List.append_nil]
      exact (hasOpen_bookTrial_of_ne hkey).trans ih

/-- Every failure opens one ticket, under its key, and nothing else does. -/
theorem keys_bookTrials (book : List (Ticket κ)) (trials : List (Trial κ)) :
    (bookTrials book trials).map Ticket.key
      = book.map Ticket.key ++ (trials.filter (!·.succeeded)).map Trial.key := by
  induction trials generalizing book with
  | nil => simp [bookTrials]
  | cons trial trials ih =>
    change (bookTrials (bookTrial book trial) trials).map Ticket.key = _
    rw [ih]
    unfold bookTrial
    cases hsucceeded : trial.succeeded <;> simp [hsucceeded, Function.comp_def]

/-- A ticket keeps its place and its key, and once closed stays closed. -/
theorem getElem?_bookTrials {i : ℕ} {ticket : Ticket κ} (trials : List (Trial κ))
    (h : book[i]? = some ticket) :
    ∃ ticket', (bookTrials book trials)[i]? = some ticket' ∧ ticket'.key = ticket.key ∧
      (ticket.isOpen = false → ticket'.isOpen = false) := by
  induction trials generalizing book ticket with
  | nil => exact ⟨ticket, h, rfl, id⟩
  | cons trial trials ih =>
    have hstep : ∃ ticket', (bookTrial book trial)[i]? = some ticket' ∧ ticket'.key = ticket.key ∧
        (ticket.isOpen = false → ticket'.isOpen = false) := by
      unfold bookTrial
      split
      · refine ⟨ticket.close trial.key, by simp [h], by simp, fun hclosed => ?_⟩
        unfold Ticket.close
        split
        · rfl
        · exact hclosed
      · have hi : i < book.length := (List.getElem?_eq_some_iff.mp h).1
        exact ⟨ticket, by rw [List.getElem?_append_left hi, h], rfl, id⟩
    obtain ⟨ticket', hget, hkey, hclosed⟩ := hstep
    obtain ⟨ticket'', hget', hkey', hclosed'⟩ := ih hget
    exact ⟨ticket'', hget', hkey'.trans hkey, fun h => hclosed' (hclosed h)⟩

end Schemes
