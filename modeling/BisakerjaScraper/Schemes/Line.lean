import Mathlib.Data.List.Sort

/-! A line that is served from its front.

    A round serves the first of the line, as many as there are places, and those it fails stay at
    the front for the next round. They take the places of those behind them: a number of rounds
    serves everyone exactly when its places suffice for the line and for those served again. -/

namespace Schemes

universe u
variable {α : Type u}

/-- Those who were served and stayed, and those who were not served yet. -/
structure Line (α : Type u) where
  tried : List α
  waiting : List α

namespace Line

/-- Everyone in the line. -/
def all (line : Line α) : List α := line.tried ++ line.waiting

/-- A round. -/
def serve (places : ℕ) (fails : α → Bool) (line : Line α) : Line α where
  tried := (line.all.take places).filter fails
  waiting := line.waiting.drop (places - line.tried.length)

/-- Some rounds. -/
def serveAll (places : ℕ) (line : Line α) : List (α → Bool) → Line α
  | [] => line
  | fails :: rest => serveAll places (line.serve places fails) rest

/-- How many stand at the front from the rounds before, summed over the rounds. -/
def servedAgain (places : ℕ) (line : Line α) : List (α → Bool) → ℕ
  | [] => 0
  | fails :: rest => line.tried.length + servedAgain places (line.serve places fails) rest

variable {places : ℕ} {line : Line α}

theorem length_tried_serve_le (places : ℕ) (line : Line α) (fails : α → Bool) :
    (line.serve places fails).tried.length ≤ places :=
  (List.length_filter_le _ _).trans (List.length_take_le _ _)

/-- No round serves more again than it has places. -/
theorem servedAgain_le (rounds : List (α → Bool)) (h : line.tried.length ≤ places) :
    line.servedAgain places rounds ≤ rounds.length * places := by
  induction rounds generalizing line with
  | nil => exact Nat.zero_le _
  | cons fails rest ih =>
    have hrest := ih (length_tried_serve_le places line fails)
    rw [servedAgain, List.length_cons, Nat.succ_mul]
    omega

/-- Everyone is served exactly when the places suffice. -/
theorem waiting_serveAll_eq_nil_iff (rounds : List (α → Bool)) (h : line.tried.length ≤ places) :
    (line.serveAll places rounds).waiting = [] ↔
      line.waiting.length + line.servedAgain places rounds ≤ rounds.length * places := by
  induction rounds generalizing line with
  | nil => simp [serveAll, servedAgain]
  | cons fails rest ih =>
    have hle := servedAgain_le rest (length_tried_serve_le places line fails)
    rw [serveAll, ih (length_tried_serve_le places line fails), servedAgain, List.length_cons,
      Nat.succ_mul]
    have hwaiting : (line.serve places fails).waiting.length
        = line.waiting.length - (places - line.tried.length) := List.length_drop ..
    omega

/-- The line after a round: those served leave it, unless they are failed. -/
theorem all_serve (fails : α → Bool) (h : line.tried.length ≤ places) :
    (line.serve places fails).all
      = (line.all.take places).filter fails ++ line.all.drop places := by
  rw [all, serve, all, List.drop_append, List.drop_of_length_le h, List.nil_append]

end Line

/-! ### Sorting what is left -/

section Sorting

variable {r : α → α → Prop} [DecidableRel r]

theorem filter_orderedInsert [IsTrans α r] (p : α → Bool) (a : α) {l : List α}
    (hl : l.Pairwise r) : (l.orderedInsert r a).filter p
      = if p a then (l.filter p).orderedInsert r a else l.filter p := by
  induction l with
  | nil => by_cases hp : p a <;> simp [hp]
  | cons b rest ih =>
    obtain ⟨hb, hrest⟩ := List.pairwise_cons.mp hl
    by_cases hab : r a b
    · have hall : ∀ c ∈ (b :: rest).filter p, r a c := by
        intro c hc
        rcases List.mem_cons.mp (List.mem_filter.mp hc).1 with rfl | hmem
        · exact hab
        · exact Trans.trans hab (hb c hmem)
      have hfront : ((b :: rest).filter p).orderedInsert r a = a :: (b :: rest).filter p := by
        cases hfilter : (b :: rest).filter p with
        | nil => rfl
        | cons c others =>
          rw [hfilter] at hall
          exact List.orderedInsert_cons_of_le r others (hall c List.mem_cons_self)
      rw [List.orderedInsert_cons_of_le r rest hab, hfront, List.filter_cons]
    · rw [List.orderedInsert_of_not_le r rest hab, List.filter_cons, List.filter_cons, ih hrest]
      by_cases hpb : p b <;> by_cases hpa : p a <;> simp [hpb, hpa, hab]

/-- Sorting and selecting commute. -/
theorem filter_insertionSort [IsTrans α r] [Std.Total r] (p : α → Bool) (l : List α) :
    (l.insertionSort r).filter p = (l.filter p).insertionSort r := by
  induction l with
  | nil => rfl
  | cons a rest ih =>
    rw [List.insertionSort_cons, filter_orderedInsert p a (List.pairwise_insertionSort r rest), ih]
    by_cases hp : p a <;> simp [hp]

end Sorting

end Schemes
