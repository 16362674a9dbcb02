import Mathlib.Logic.Basic

/-! Fallible computations that came out well: what `ok` says about the parts. -/

namespace Schemes

universe u v
variable {ε : Type u} {α β : Type v}

/-- A sequence is `ok` when both halves are. -/
theorem ok_bind_iff {x : Except ε α} {f : α → Except ε β} {b : β} :
    x >>= f = .ok b ↔ ∃ a, x = .ok a ∧ f a = .ok b := by
  constructor
  · intro h
    cases x with
    | error e => cases h
    | ok a => exact ⟨a, rfl, h⟩
  · rintro ⟨a, rfl, h⟩
    exact h

/-- What comes out well is passed on. -/
theorem ok_bind (a : α) (f : α → Except ε β) : (Except.ok a >>= f) = f a := rfl

/-- A sequence is an error when one of its halves is. -/
theorem error_bind_iff {x : Except ε α} {f : α → Except ε β} {e : ε} :
    x >>= f = .error e ↔ x = .error e ∨ ∃ a, x = .ok a ∧ f a = .error e := by
  constructor
  · intro h
    cases x with
    | error e' =>
      cases h
      exact .inl rfl
    | ok a => exact .inr ⟨a, rfl, h⟩
  · rintro (rfl | ⟨a, rfl, h⟩)
    · rfl
    · exact h

/-- A mapped computation is `ok` when the computation is. -/
theorem ok_map_iff {x : Except ε α} {f : α → β} {b : β} :
    x.map f = .ok b ↔ ∃ a, x = .ok a ∧ f a = b := by
  constructor
  · intro h
    cases x with
    | error e => cases h
    | ok a =>
      cases h
      exact ⟨a, rfl, rfl⟩
  · rintro ⟨a, rfl, rfl⟩
    rfl

/-- Renaming the exception leaves the good outcomes alone. -/
theorem ok_mapError_iff {ε' : Type u} {x : Except ε α} {f : ε → ε'} {a : α} :
    x.mapError f = .ok a ↔ x = .ok a := by
  cases x with
  | error e =>
    constructor <;> intro h <;> cases h
  | ok a' =>
    constructor <;> intro h <;> cases h <;> rfl

/-- What a mapped list keeps of every member it keeps in order. -/
theorem map_eq_of_mapM_ok {γ : Type*} {f : α → Except ε β} {g : α → γ} {k : β → γ}
    (hf : ∀ x y, f x = .ok y → k y = g x) {xs : List α} {ys : List β} (h : xs.mapM f = .ok ys) :
    ys.map k = xs.map g := by
  induction xs generalizing ys with
  | nil =>
    cases h
    rfl
  | cons x xs ih =>
    rw [List.mapM_cons, ok_bind_iff] at h
    obtain ⟨y, hx, h⟩ := h
    obtain ⟨ys', hrest, h⟩ := ok_bind_iff.mp h
    cases h
    rw [List.map_cons, List.map_cons, hf x y hx, ih hrest]

/-- A list mapped without an error keeps its length. -/
theorem length_of_mapM_ok {f : α → Except ε β} {xs : List α} {ys : List β}
    (h : xs.mapM f = .ok ys) : ys.length = xs.length := by
  have hunits := map_eq_of_mapM_ok (g := fun _ => ()) (k := fun _ => ()) (fun _ _ _ => rfl) h
  simpa using congrArg List.length hunits

/-- Every result of a mapped list comes from a member of the list. -/
theorem mem_of_mapM_ok {f : α → Except ε β} {xs : List α} {ys : List β} (h : xs.mapM f = .ok ys)
    {y : β} (hy : y ∈ ys) : ∃ x ∈ xs, f x = .ok y := by
  induction xs generalizing ys with
  | nil =>
    cases h
    cases hy
  | cons x xs ih =>
    rw [List.mapM_cons, ok_bind_iff] at h
    obtain ⟨y', hx, h⟩ := h
    obtain ⟨ys', hrest, h⟩ := ok_bind_iff.mp h
    cases h
    rcases List.mem_cons.mp hy with rfl | hy
    · exact ⟨x, List.mem_cons_self, hx⟩
    · obtain ⟨x', hmem, hx'⟩ := ih hrest hy
      exact ⟨x', List.mem_cons_of_mem _ hmem, hx'⟩

/-- Every member of a mapped list has its result. -/
theorem exists_of_mapM_ok {f : α → Except ε β} {xs : List α} {ys : List β}
    (h : xs.mapM f = .ok ys) {x : α} (hx : x ∈ xs) : ∃ y ∈ ys, f x = .ok y := by
  induction xs generalizing ys with
  | nil => cases hx
  | cons x' xs ih =>
    rw [List.mapM_cons, ok_bind_iff] at h
    obtain ⟨y, hy, h⟩ := h
    obtain ⟨ys', hrest, h⟩ := ok_bind_iff.mp h
    cases h
    rcases List.mem_cons.mp hx with rfl | hx
    · exact ⟨y, List.mem_cons_self, hy⟩
    · obtain ⟨y', hmem, hy'⟩ := ih hrest hx
      exact ⟨y', List.mem_cons_of_mem _ hmem, hy'⟩

/-- Where every step succeeds, so does the whole. -/
theorem mapM_of_ok {f : α → Except ε β} {g : α → β} {xs : List α}
    (h : ∀ x ∈ xs, f x = .ok (g x)) : xs.mapM f = .ok (xs.map g) := by
  induction xs with
  | nil => rfl
  | cons x xs ih =>
    rw [List.mapM_cons, h x List.mem_cons_self, ih fun y hy => h y (List.mem_cons_of_mem _ hy)]
    rfl

/-- The front of a list is mapped to the front of what it is mapped to. -/
theorem mapM_take {f : α → Except ε β} {xs : List α} {ys : List β} (h : xs.mapM f = .ok ys) (n : Nat) :
    (xs.take n).mapM f = .ok (ys.take n) := by
  induction xs generalizing ys n with
  | nil =>
    cases h
    cases n <;> rfl
  | cons x xs ih =>
    rw [List.mapM_cons, ok_bind_iff] at h
    obtain ⟨y, hx, h⟩ := h
    obtain ⟨ys', hrest, h⟩ := ok_bind_iff.mp h
    cases h
    cases n with
    | zero => rfl
    | succ n =>
      rw [List.take_succ_cons, List.take_succ_cons, List.mapM_cons, hx, ok_bind, ih hrest n, ok_bind]
      rfl

/-- And the rest to the rest. -/
theorem mapM_drop {f : α → Except ε β} {xs : List α} {ys : List β} (h : xs.mapM f = .ok ys) (n : Nat) :
    (xs.drop n).mapM f = .ok (ys.drop n) := by
  induction xs generalizing ys n with
  | nil =>
    cases h
    cases n <;> rfl
  | cons x xs ih =>
    cases n with
    | zero => exact h
    | succ n =>
      rw [List.mapM_cons, ok_bind_iff] at h
      obtain ⟨y, -, h⟩ := h
      obtain ⟨ys', hrest, h⟩ := ok_bind_iff.mp h
      cases h
      exact ih hrest n

/-- A mapped list is an error when one of its members is. -/
theorem error_mapM_iff {f : α → Except ε β} {xs : List α} :
    (∃ e, xs.mapM f = .error e) ↔ ∃ x ∈ xs, ∃ e, f x = .error e := by
  induction xs with
  | nil => exact iff_of_false (fun ⟨e, h⟩ => by cases h) (by simp)
  | cons x xs ih =>
    have hcons : (∃ x' ∈ x :: xs, ∃ e, f x' = .error e) ↔
        (∃ e, f x = .error e) ∨ ∃ x' ∈ xs, ∃ e, f x' = .error e := by simp
    rw [hcons, ← ih, List.mapM_cons]
    rcases hx : f x with e | y
    · exact iff_of_true ⟨e, rfl⟩ (.inl ⟨e, rfl⟩)
    · rcases hrest : xs.mapM f with e | ys
      · exact iff_of_true ⟨e, rfl⟩ (.inr ⟨e, rfl⟩)
      · refine iff_of_false ?_ ?_
        · rintro ⟨e, h⟩
          cases h
        · rintro (⟨e, h⟩ | ⟨e, h⟩) <;> cases h

/-! ### Exceptions of a kind -/

/-- The outcome is an exception of a kind. -/
def Fails (kind : ε → Prop) (x : Except ε α) : Prop := ∃ e, x = .error e ∧ kind e

variable {kind : ε → Prop}

@[simp] theorem fails_ok (a : α) : ¬ Fails kind (.ok a : Except ε α) := fun ⟨_, h, _⟩ => by cases h

@[simp] theorem fails_pure (a : α) : ¬ Fails kind (pure a : Except ε α) := fails_ok a

@[simp] theorem fails_error_iff {e : ε} : Fails kind (.error e : Except ε α) ↔ kind e := by
  constructor
  · rintro ⟨e', h, hkind⟩
    cases h
    exact hkind
  · exact fun hkind => ⟨e, rfl, hkind⟩

/-- A sequence fails in its first half, or in its second after the first came out well. -/
theorem fails_bind_iff {x : Except ε α} {f : α → Except ε β} :
    Fails kind (x >>= f) ↔ Fails kind x ∨ ∃ a, x = .ok a ∧ Fails kind (f a) := by
  cases x with
  | error e =>
    refine ⟨fun ⟨e', h, hkind⟩ => .inl ?_, ?_⟩
    · cases h
      exact ⟨e, rfl, hkind⟩
    · rintro (⟨e', h, hkind⟩ | ⟨a, ha, -⟩)
      · cases h
        exact ⟨e, rfl, hkind⟩
      · cases ha
  | ok a =>
    refine ⟨fun h => .inr ⟨a, rfl, h⟩, ?_⟩
    rintro (h | ⟨a', ha, h⟩)
    · exact absurd h (fails_ok a)
    · cases ha
      exact h

@[simp] theorem fails_map_iff {x : Except ε α} {f : α → β} :
    Fails kind (f <$> x) ↔ Fails kind x := by
  cases x with
  | error e => exact fails_error_iff.trans fails_error_iff.symm
  | ok a => exact iff_of_false (fails_ok _) (fails_ok _)

/-- A mapped list fails where one of its members does. -/
theorem exists_fails_of_mapM {f : α → Except ε β} {xs : List α} (h : Fails kind (xs.mapM f)) :
    ∃ x ∈ xs, Fails kind (f x) := by
  induction xs with
  | nil => exact absurd h (fails_pure _)
  | cons x xs ih =>
    rw [List.mapM_cons, fails_bind_iff] at h
    rcases h with h | ⟨y, -, h⟩
    · exact ⟨x, List.mem_cons_self, h⟩
    · rcases fails_bind_iff.mp h with h | ⟨ys, -, h⟩
      · obtain ⟨x', hmem, hx'⟩ := ih h
        exact ⟨x', List.mem_cons_of_mem _ hmem, hx'⟩
      · exact absurd h (fails_pure _)

/-- The computation comes out well where `c` holds, and raises an exception of the kind elsewhere. -/
structure GoodWhen (kind : ε → Prop) (c : Prop) (x : Except ε α) : Prop where
  ok : c → ∃ a, x = .ok a
  fails : ¬ c → Fails kind x

theorem GoodWhen.fails_iff {c : Prop} {x : Except ε α} (h : GoodWhen kind c x) :
    Fails kind x ↔ ¬ c := by
  refine ⟨fun hfails hc => ?_, h.fails⟩
  obtain ⟨a, rfl⟩ := h.ok hc
  exact fails_ok a hfails

theorem goodWhen_ok {c : Prop} (hc : c) (a : α) : GoodWhen kind c (.ok a) :=
  ⟨fun _ => ⟨a, rfl⟩, fun hne => absurd hc hne⟩

theorem goodWhen_error {c : Prop} (hc : ¬ c) {e : ε} (he : kind e) :
    GoodWhen kind c (.error e : Except ε α) :=
  ⟨fun hyes => absurd hyes hc, fun _ => fails_error_iff.mpr he⟩

/-- What comes out well and then fails or not: the two conditions are joined. -/
theorem GoodWhen.fails_bind_iff {c d : Prop} {x : Except ε α} {f : α → Except ε β}
    (h : GoodWhen kind c x) (hf : ∀ a, x = .ok a → (Fails kind (f a) ↔ ¬ d)) :
    Fails kind (x >>= f) ↔ ¬ (c ∧ d) := by
  by_cases hc : c
  · obtain ⟨a, rfl⟩ := h.ok hc
    simpa [hc, ok_bind] using hf a rfl
  · refine iff_of_true ?_ fun hboth => hc hboth.1
    exact Schemes.fails_bind_iff.mpr (.inl (h.fails hc))

/-- One after the other. -/
theorem GoodWhen.bind {c d : Prop} {x : Except ε α} {f : α → Except ε β}
    (h : GoodWhen kind c x) (hf : ∀ a, x = .ok a → GoodWhen kind d (f a)) :
    GoodWhen kind (c ∧ d) (x >>= f) := by
  constructor
  · rintro ⟨hc, hd⟩
    obtain ⟨a, rfl⟩ := h.ok hc
    exact (hf a rfl).ok hd
  · exact (h.fails_bind_iff fun a ha => (hf a ha).fails_iff).mpr

/-- What follows always comes out well. -/
theorem GoodWhen.bind_total {c : Prop} {x : Except ε α} (h : GoodWhen kind c x)
    {f : α → Except ε β} (hf : ∀ a, ∃ b, f a = .ok b) : GoodWhen kind c (x >>= f) := by
  constructor
  · intro hc
    obtain ⟨a, rfl⟩ := h.ok hc
    exact hf a
  · exact fun hc => Schemes.fails_bind_iff.mpr (.inl (h.fails hc))

/-- What follows only computes. -/
theorem GoodWhen.bind_pure {c : Prop} {x : Except ε α} (h : GoodWhen kind c x) (g : α → β) :
    GoodWhen kind c (x >>= fun a => pure (g a)) :=
  h.bind_total fun a => ⟨g a, rfl⟩

theorem GoodWhen.map {c : Prop} {x : Except ε α} (h : GoodWhen kind c x) (g : α → β) :
    GoodWhen kind c (x.map g) := by
  constructor
  · intro hc
    obtain ⟨a, rfl⟩ := h.ok hc
    exact ⟨g a, rfl⟩
  · intro hc
    obtain ⟨e, rfl, he⟩ := h.fails hc
    exact ⟨e, rfl, he⟩

/-- What came out well was good. -/
theorem GoodWhen.of_ok {c : Prop} {x : Except ε α} (h : GoodWhen kind c x) {a : α} (ha : x = .ok a) :
    c := by
  refine Classical.byContradiction fun hc => ?_
  rw [ha] at h
  exact fails_ok a (h.fails hc)

/-- It comes out well exactly when it is good. -/
theorem GoodWhen.ok_iff {c : Prop} {x : Except ε α} (h : GoodWhen kind c x) :
    (∃ a, x = .ok a) ↔ c := ⟨fun ⟨_, ha⟩ => h.of_ok ha, h.ok⟩

theorem GoodWhen.congr {c d : Prop} {x : Except ε α} (h : GoodWhen kind c x) (hcd : c ↔ d) :
    GoodWhen kind d x := by
  rwa [← hcd]

/-- A mapped list comes out well when each of its members does. -/
theorem goodWhen_mapM {f : α → Except ε β} {c : α → Prop} {xs : List α}
    (h : ∀ x ∈ xs, GoodWhen kind (c x) (f x)) : GoodWhen kind (∀ x ∈ xs, c x) (xs.mapM f) := by
  induction xs with
  | nil => exact goodWhen_ok (by simp) _
  | cons x xs ih =>
    rw [List.mapM_cons, List.forall_mem_cons]
    exact (h x List.mem_cons_self).bind fun _ _ =>
      (ih fun x' hx' => h x' (List.mem_cons_of_mem _ hx')).bind_pure _

/-- Some place of a list yields something when some member does. -/
theorem exists_zipIdx_ne_none_iff {g : α → Option β} {xs : List α} :
    (∃ entry ∈ xs.zipIdx, xs[entry.2]?.bind g ≠ none) ↔ xs.findSome? g ≠ none := by
  rw [ne_eq, List.findSome?_eq_none_iff, not_forall]
  constructor
  · rintro ⟨entry, hentry, hsome⟩
    rw [List.mem_zipIdx_iff_getElem?.mp hentry] at hsome
    exact ⟨entry.1, fun h => hsome (h (List.mem_of_getElem? (List.mem_zipIdx_iff_getElem?.mp hentry)))⟩
  · rintro ⟨x, hx⟩
    obtain ⟨hmem, hsome⟩ := Classical.not_imp.mp hx
    obtain ⟨i, hi⟩ := List.mem_iff_getElem?.mp hmem
    refine ⟨(x, i), List.mem_zipIdx_iff_getElem?.mpr hi, ?_⟩
    rw [hi]
    exact hsome

end Schemes
