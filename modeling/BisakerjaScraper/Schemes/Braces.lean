import Mathlib.Data.Int.Cast.Basic
import Mathlib.Data.Nat.Find
import BisakerjaScraper.Schemes.Nesting

/-! Braces outside of quotes.

    A scan counts braces, those in quotes left aside, and stops at the first closing one that makes
    the count zero. From an opening brace this is the one that closes it, and what lies between is
    well nested; what follows has no part in it. -/

namespace Schemes

universe u
variable {α : Type u}

/-! ### Counting -/

/-- A brace, or any other element. -/
abbrev Brace (α : Type u) := Token Unit α

/-- Opening braces less closing ones. -/
def net : List (Brace α) → ℤ
  | [] => 0
  | .opening _ :: rest => net rest + 1
  | .closing _ :: rest => net rest - 1
  | .leaf _ :: rest => net rest

/-- How much there is up to the first closing brace that makes the count zero. -/
def closedAt : ℤ → List (Brace α) → Option ℕ
  | _, [] => none
  | depth, .opening _ :: rest => (closedAt (depth + 1) rest).map (· + 1)
  | depth, .closing _ :: rest =>
    if depth - 1 = 0 then some 1 else (closedAt (depth - 1) rest).map (· + 1)
  | depth, .leaf _ :: rest => (closedAt depth rest).map (· + 1)

/-- A closing brace ends it and makes the count zero. -/
def EndsAtZero (depth : ℤ) (braces : List (Brace α)) : Prop :=
  braces.getLast? = some (.closing ()) ∧ depth + net braces = 0

/-- What a count is behind one element. -/
def Token.count (depth : ℤ) : Brace α → ℤ
  | .opening _ => depth + 1
  | .closing _ => depth - 1
  | .leaf _ => depth

section Counting

variable {depth : ℤ} {brace : Brace α} {braces front rest : List (Brace α)}

theorem net_cons (depth : ℤ) (brace : Brace α) (rest : List (Brace α)) :
    depth + net (brace :: rest) = brace.count depth + net rest := by
  cases brace <;> simp only [net, Token.count] <;> omega

theorem endsAtZero_cons (hne : rest ≠ []) :
    EndsAtZero depth (brace :: rest) ↔ EndsAtZero (brace.count depth) rest := by
  unfold EndsAtZero
  rw [net_cons, List.getLast?_cons_of_ne_nil hne]

theorem not_endsAtZero_nil : ¬ EndsAtZero depth ([] : List (Brace α)) := by
  rintro ⟨h, -⟩
  cases h

/-- The scan stops at a closing brace that makes the count zero. -/
theorem closedAt_of_ends (h : EndsAtZero depth [brace]) (rest : List (Brace α)) :
    closedAt depth (brace :: rest) = some 1 := by
  obtain ⟨hlast, hzero⟩ := h
  obtain rfl : brace = .closing () := Option.some.inj hlast
  rw [net_cons] at hzero
  rw [closedAt, if_pos (by simpa [Token.count, net] using hzero)]

/-- Elsewhere it goes on with the count behind the element. -/
theorem closedAt_of_not_ends (h : ¬ EndsAtZero depth [brace]) (rest : List (Brace α)) :
    closedAt depth (brace :: rest) = (closedAt (brace.count depth) rest).map (· + 1) := by
  cases brace with
  | opening tag => rfl
  | leaf item => rfl
  | closing tag =>
    rw [closedAt, if_neg]
    · rfl
    · intro hzero
      refine h ⟨rfl, ?_⟩
      simp only [net]
      omega

/-- The scan stops behind the shortest front that ends at zero. -/
theorem closedAt_eq_some_iff {n : ℕ} : closedAt depth braces = some n ↔
    n ≤ braces.length ∧ EndsAtZero depth (braces.take n) ∧
      ∀ m < n, ¬ EndsAtZero depth (braces.take m) := by
  induction braces generalizing depth n with
  | nil =>
    rw [List.take_nil]
    exact iff_of_false nofun fun h => not_endsAtZero_nil h.2.1
  | cons brace rest ih =>
    by_cases hstop : EndsAtZero depth [brace]
    · rw [closedAt_of_ends hstop, Option.some.injEq]
      constructor
      · rintro rfl
        refine ⟨by simp, by simpa using hstop, fun m hm => ?_⟩
        obtain rfl : m = 0 := by omega
        exact not_endsAtZero_nil
      · rintro ⟨-, hends, hfirst⟩
        cases n with
        | zero => exact absurd hends not_endsAtZero_nil
        | succ n =>
          cases n with
          | zero => rfl
          | succ n => exact absurd (by simpa using hstop) (hfirst 1 (by omega))
    · rw [closedAt_of_not_ends hstop]
      cases n with
      | zero =>
        refine iff_of_false (by simp) fun h => not_endsAtZero_nil h.2.1
      | succ n =>
        have hstep : ∀ k, EndsAtZero depth ((brace :: rest).take (k + 1)) ↔
            EndsAtZero (brace.count depth) (rest.take k) := by
          intro k
          rw [List.take_succ_cons]
          rcases eq_or_ne (rest.take k) [] with hnil | hne
          · rw [hnil]
            exact iff_of_false hstop not_endsAtZero_nil
          · exact endsAtZero_cons hne
        have hmap : (closedAt (brace.count depth) rest).map (· + 1) = some (n + 1) ↔
            closedAt (brace.count depth) rest = some n := by
          simp [Option.map_eq_some_iff]
        rw [hmap, ih, hstep, List.length_cons, Nat.add_le_add_iff_right]
        refine and_congr_right fun _ => and_congr_right fun _ => ⟨fun h m hm => ?_, fun h m hm => ?_⟩
        · cases m with
          | zero => exact not_endsAtZero_nil
          | succ m => exact (hstep m).not.mpr (h m (by omega))
        · exact (hstep m).not.mp (h (m + 1) (by omega))

/-- What follows the place where the scan stops has no part in it. -/
theorem closedAt_take_append {n : ℕ} (h : closedAt depth braces = some n) (rest : List (Brace α)) :
    closedAt depth (braces.take n ++ rest) = some n := by
  obtain ⟨hle, hends, hfirst⟩ := closedAt_eq_some_iff.mp h
  have hfront : ∀ m ≤ n, (braces.take n ++ rest).take m = braces.take m := by
    intro m hm
    rw [List.take_append_of_le_length (by rw [List.length_take]; omega), List.take_take,
      Nat.min_eq_left hm]
  refine closedAt_eq_some_iff.mpr ⟨?_, by rwa [hfront n le_rfl], fun m hm => ?_⟩
  · rw [List.length_append, List.length_take]
    omega
  · rw [hfront m (by omega)]
    exact hfirst m hm

theorem closedAt_eq_none_iff :
    closedAt depth braces = none ↔ ∀ n, ¬ EndsAtZero depth (braces.take n) := by
  constructor
  · intro hnone n hends
    -- a front that ends at zero has a shortest one
    classical
    have hsome : ∃ k, EndsAtZero depth (braces.take k) := ⟨n, hends⟩
    have hk := Nat.find_spec hsome
    have hfirst : ∀ m < Nat.find hsome, ¬ EndsAtZero depth (braces.take m) :=
      fun m hm => Nat.find_min hsome hm
    have hle : Nat.find hsome ≤ braces.length := by
      by_contra hlt
      refine hfirst braces.length (by omega) ?_
      rw [List.take_of_length_le (by omega)] at hk
      rwa [List.take_length]
    rw [closedAt_eq_some_iff.mpr ⟨hle, hk, hfirst⟩] at hnone
    cases hnone
  · intro hnever
    cases hsome : closedAt depth braces with
    | none => rfl
    | some n => exact absurd (closedAt_eq_some_iff.mp hsome).2.1 (hnever n)

/-! ### Well-nested braces -/

/-- Behind braces that leave open what they found open, the scan goes on. -/
theorem closedAt_append {stack stack' : List Unit} (h : openAfter stack front = some stack')
    (rest : List (Brace α)) : closedAt (stack.length + 1) (front ++ rest)
      = (closedAt (stack'.length + 1) rest).map (· + front.length) := by
  induction front generalizing stack with
  | nil =>
    rw [openAfter_nil, Option.some.injEq] at h
    rw [h]
    simp
  | cons brace front ih =>
    rw [List.cons_append, List.length_cons]
    cases brace with
    | opening tag =>
      rw [openAfter_opening] at h
      have hmore := ih h
      rw [List.length_cons, Int.natCast_add_one] at hmore
      rw [closedAt, hmore, Option.map_map]
      rfl
    | leaf item =>
      rw [openAfter_leaf] at h
      rw [closedAt, ih h, Option.map_map]
      rfl
    | closing tag =>
      cases stack with
      | nil => cases h
      | cons top stack =>
        obtain rfl : top = tag := rfl
        rw [openAfter_closing_self] at h
        rw [List.length_cons, Int.natCast_add_one, closedAt, if_neg (by omega), Int.add_sub_cancel, ih h,
          Option.map_map]
        rfl

/-- Other elements are passed over, whatever the count is. -/
theorem closedAt_leaves (depth : ℤ) (items : List α) (rest : List (Brace α)) :
    closedAt depth (items.map .leaf ++ rest) = (closedAt depth rest).map (· + items.length) := by
  induction items with
  | nil => simp
  | cons item items ih =>
    rw [List.map_cons, List.cons_append, closedAt, ih, Option.map_map]
    rfl

/-- Braces that open something and close it at their end: the last one closes the first. -/
def Group (braces : List (Brace α)) : Prop :=
  ∃ (items : List α) (inner : List (Brace α)), WellNested inner ∧
    braces = items.map .leaf ++ .opening () :: (inner ++ [.closing ()])

/-- The first brace is a closing one. -/
def ClosesFirst (braces : List (Brace α)) : Prop :=
  ∃ (items : List α) (rest : List (Brace α)), braces = items.map .leaf ++ .closing () :: rest

/-- A group is well nested. -/
theorem Group.wellNested (h : Group braces) : WellNested braces := by
  obtain ⟨items, inner, hinner, rfl⟩ := h
  rw [wellNested_iff, openAfter_append, openAfter_leaves, Option.bind_some, openAfter_opening,
    openAfter_append, hinner.openAfter_eq]
  simp

/-- From a group the scan stops at its end, whatever follows. -/
theorem Group.closedAt_append (h : Group front) (rest : List (Brace α)) :
    closedAt 0 (front ++ rest) = some front.length := by
  obtain ⟨items, inner, hinner, rfl⟩ := h
  have hskip := Schemes.closedAt_append (hinner.openAfter_eq []) (.closing () :: rest)
  have hstop : closedAt 1 (.closing () :: rest) = some 1 := rfl
  rw [List.length_nil, Int.natCast_zero, Int.zero_add, hstop] at hskip
  rw [List.append_assoc, closedAt_leaves, List.cons_append, closedAt, Int.zero_add,
    List.append_assoc, List.singleton_append, hskip]
  simp only [Option.map_some, List.length_append, List.length_map, List.length_cons,
    List.length_nil]
  congr 1
  omega

/-- With something open, the scan stops where what is open is closed. -/
theorem exists_of_closedAt {stack : List Unit} {n : ℕ}
    (h : closedAt (stack.length + 1) braces = some n) : ∃ inner rest,
      braces = inner ++ .closing () :: rest ∧ n = inner.length + 1 ∧
        openAfter stack inner = some [] := by
  induction braces generalizing stack n with
  | nil => cases h
  | cons brace braces ih =>
    cases brace with
    | opening tag =>
      obtain ⟨m, hm, rfl⟩ := Option.map_eq_some_iff.mp h
      rw [← Int.natCast_add_one, ← List.length_cons (a := tag)] at hm
      obtain ⟨inner, rest, rfl, rfl, hinner⟩ := ih hm
      exact ⟨.opening tag :: inner, rest, rfl, rfl, by rwa [openAfter_opening]⟩
    | leaf item =>
      obtain ⟨m, hm, rfl⟩ := Option.map_eq_some_iff.mp h
      obtain ⟨inner, rest, rfl, rfl, hinner⟩ := ih hm
      exact ⟨.leaf item :: inner, rest, rfl, rfl, by rwa [openAfter_leaf]⟩
    | closing tag =>
      rw [closedAt] at h
      cases stack with
      | nil =>
        obtain rfl : 1 = n := by simpa using h
        exact ⟨[], braces, rfl, rfl, openAfter_nil []⟩
      | cons top stack =>
        rw [List.length_cons, Int.natCast_add_one, if_neg (by omega), Int.add_sub_cancel] at h
        obtain ⟨m, hm, rfl⟩ := Option.map_eq_some_iff.mp h
        obtain ⟨inner, rest, rfl, rfl, hinner⟩ := ih hm
        exact ⟨.closing tag :: inner, rest, rfl, rfl, by rwa [openAfter_closing_self]⟩

/-- Where no closing brace is the first, the scan stops at the end of a group. -/
theorem group_of_closedAt {n : ℕ} (hfirst : ¬ ClosesFirst braces)
    (h : closedAt 0 braces = some n) : Group (braces.take n) := by
  induction braces generalizing n with
  | nil => cases h
  | cons brace braces ih =>
    cases brace with
    | opening tag =>
      obtain ⟨m, hm, rfl⟩ := Option.map_eq_some_iff.mp h
      have hopen : closedAt (([] : List Unit).length + 1) braces = some m := hm
      obtain ⟨inner, rest, rfl, rfl, hinner⟩ := exists_of_closedAt hopen
      refine ⟨[], inner, wellNested_iff.mpr hinner, ?_⟩
      rw [List.take_succ_cons, List.append_cons, List.take_left' (by simp)]
      rfl
    | leaf item =>
      obtain ⟨m, hm, rfl⟩ := Option.map_eq_some_iff.mp h
      have hmore : ¬ ClosesFirst braces := by
        rintro ⟨items, rest, rfl⟩
        exact hfirst ⟨item :: items, rest, rfl⟩
      obtain ⟨items, inner, hinner, hgroup⟩ := ih hmore hm
      exact ⟨item :: items, inner, hinner, by rw [List.take_succ_cons, hgroup]; rfl⟩
    | closing tag => exact absurd ⟨[], braces, rfl⟩ hfirst

end Counting

/-! ### Quotes -/

/-- Where a scan stands: outside of quotes, inside, or inside behind an escape. -/
inductive QuoteMode where | outside | inside | escaped
  deriving DecidableEq

/-- The elements a scan looks for. -/
structure BraceMarks (α : Type u) where
  opening : α
  closing : α
  quote : α
  escape : α

namespace BraceMarks

variable [DecidableEq α] (marks : BraceMarks α)

/-- Where a scan stands behind an element. -/
def next : QuoteMode → α → QuoteMode
  | .outside, c => if c = marks.quote then .inside else .outside
  | .inside, c =>
    if c = marks.escape then .escaped else if c = marks.quote then .outside else .inside
  | .escaped, _ => .inside

/-- An element as a brace, outside of quotes. -/
def brace : QuoteMode → α → Brace α
  | .outside, c =>
    if c = marks.quote then .leaf c
    else if c = marks.opening then .opening ()
    else if c = marks.closing then .closing ()
    else .leaf c
  | _, c => .leaf c

/-- The braces of a text. -/
def braces : QuoteMode → List α → List (Brace α)
  | _, [] => []
  | mode, c :: rest => marks.brace mode c :: braces (marks.next mode c) rest

/-- Where a scan stands behind a text. -/
def modeAfter (mode : QuoteMode) (text : List α) : QuoteMode := text.foldl marks.next mode

variable {marks} {mode : QuoteMode} {text a b : List α}

@[simp] theorem length_braces (mode : QuoteMode) (text : List α) :
    (marks.braces mode text).length = text.length := by
  induction text generalizing mode with
  | nil => rfl
  | cons c text ih => simp [braces, ih]

theorem braces_append (mode : QuoteMode) (a b : List α) : marks.braces mode (a ++ b)
    = marks.braces mode a ++ marks.braces (marks.modeAfter mode a) b := by
  induction a generalizing mode with
  | nil => rfl
  | cons c a ih => exact congrArg _ (ih (marks.next mode c))

theorem modeAfter_append (mode : QuoteMode) (a b : List α) :
    marks.modeAfter mode (a ++ b) = marks.modeAfter (marks.modeAfter mode a) b :=
  List.foldl_append

/-- The braces of a front are the front of the braces. -/
theorem braces_take (mode : QuoteMode) (text : List α) (n : ℕ) :
    marks.braces mode (text.take n) = (marks.braces mode text).take n := by
  induction text generalizing mode n with
  | nil => simp [braces]
  | cons c text ih =>
    cases n with
    | zero => rfl
    | succ n => exact congrArg _ (ih (marks.next mode c) n)

/-! ### Neutral texts -/

variable (marks) in
/-- Behind a neutral text a scan stands as before it, outside of quotes, and nothing is open that
    was not. -/
structure Neutral (text : List α) : Prop where
  mode : marks.modeAfter .outside text = .outside
  nested : WellNested (marks.braces .outside text)

theorem Neutral.nil : marks.Neutral [] := ⟨rfl, .nil⟩

theorem Neutral.append (ha : marks.Neutral a) (hb : marks.Neutral b) : marks.Neutral (a ++ b) where
  mode := by rw [modeAfter_append, ha.mode, hb.mode]
  nested := by
    rw [braces_append, ha.mode, wellNested_iff, openAfter_append, ha.nested.openAfter_eq,
      Option.bind_some, hb.nested.openAfter_eq]

/-- A text without marks is neutral. -/
theorem Neutral.of_forall (h : ∀ c ∈ text, c ∉ [marks.opening, marks.closing, marks.quote]) :
    marks.Neutral text := by
  induction text with
  | nil => exact .nil
  | cons c text ih =>
    obtain ⟨hc, htext⟩ := List.forall_mem_cons.mp h
    simp only [List.mem_cons, List.not_mem_nil, or_false, not_or] at hc
    have hone : marks.Neutral [c] := by
      refine ⟨?_, ?_⟩
      · simp [modeAfter, next, hc]
      · simp only [braces, brace, hc, if_false]
        exact .leaf c .nil
    exact hone.append (ih htext)

/-- A neutral text in braces is a group. -/
theorem Neutral.group (h : marks.Neutral text) (hopening : marks.opening ≠ marks.quote)
    (hclosing : marks.closing ∉ [marks.opening, marks.quote]) :
    Group (marks.braces .outside (marks.opening :: (text ++ [marks.closing]))) := by
  simp only [List.mem_cons, List.not_mem_nil, or_false, not_or] at hclosing
  refine ⟨[], _, h.nested, ?_⟩
  simp [braces, braces_append, brace, next, h.mode, hopening, hclosing]

/-- It is neutral, too. -/
theorem Neutral.enclosed (h : marks.Neutral text) (hopening : marks.opening ≠ marks.quote)
    (hclosing : marks.closing ∉ [marks.opening, marks.quote]) :
    marks.Neutral (marks.opening :: (text ++ [marks.closing])) where
  mode := by
    simp only [List.mem_cons, List.not_mem_nil, or_false, not_or] at hclosing
    rw [← List.cons_append, modeAfter_append, ← List.singleton_append, modeAfter_append]
    simp only [modeAfter, List.foldl_cons, List.foldl_nil, next, hopening, if_false]
    rw [show text.foldl marks.next .outside = .outside from h.mode]
    simp [hclosing]
  nested := (h.group hopening hclosing).wellNested

variable (marks) in
/-- What may stand between quotes: no quote without an escape before it, and no escape that escapes
    nothing. -/
inductive Quotable : List α → Prop
  | nil : Quotable []
  | plain {c : α} {rest : List α} (hescape : c ≠ marks.escape) (hquote : c ≠ marks.quote)
      (h : Quotable rest) : Quotable (c :: rest)
  | escaped (c : α) {rest : List α} (h : Quotable rest) : Quotable (marks.escape :: c :: rest)

/-- Between quotes a scan stays inside and sees no brace. -/
theorem Quotable.inside (h : marks.Quotable text) : marks.modeAfter .inside text = .inside ∧
    marks.braces .inside text = text.map .leaf := by
  induction h with
  | nil => exact ⟨rfl, rfl⟩
  | plain hescape hquote _ ih => simpa [modeAfter, braces, brace, next, hescape, hquote] using ih
  | escaped c _ ih => simpa [modeAfter, braces, brace, next] using ih

/-- A quoted text is neutral. -/
theorem Quotable.neutral (h : marks.Quotable text) (hescape : marks.quote ≠ marks.escape) :
    marks.Neutral (marks.quote :: (text ++ [marks.quote])) := by
  obtain ⟨hmode, hbraces⟩ := h.inside
  refine ⟨?_, ?_⟩
  · rw [← List.cons_append, modeAfter_append, ← List.singleton_append, modeAfter_append]
    have hfirst : marks.modeAfter .outside [marks.quote] = .inside := by simp [modeAfter, next]
    rw [hfirst, hmode]
    simp [modeAfter, next, hescape]
  · have hall : marks.braces .outside (marks.quote :: (text ++ [marks.quote]))
        = (marks.quote :: (text ++ [marks.quote])).map .leaf := by
      simp [braces, braces_append, brace, next, hmode, hbraces]
    rw [hall, wellNested_iff, openAfter_leaves]

end BraceMarks

end Schemes
