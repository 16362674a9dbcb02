import BisakerjaScraper.Schemes.Delivery
import BisakerjaScraper.Schemes.Table
import Mathlib.Data.List.TakeWhile
import Mathlib.Logic.Function.Basic

/-! Delivery runs that are cut short.

    A run posts chunks of deliveries and writes their marks; its log keeps both in order. Each write
    raises the attempts of its mark, and a chunk is recorded before the next one is posted. Where a
    run commits once, at its end, a run that is cut before leaves the ledger of its start: then the
    marks of all chunks before the last one are kept exactly when there is none. -/

namespace Schemes.Delivery

universe u v w
variable {κ : Type u}

/-- An entry of the log: a chunk is posted, or a mark is written. -/
inductive Entry (κ : Type u) where
  | posted (keys : List κ)
  | wrote (k : κ) (m : Mark)

/-- The entry is a post. -/
def Entry.isPost : Entry κ → Bool
  | .posted _ => true
  | .wrote _ _ => false

/-- The number of posts. -/
def postCount (log : List (Entry κ)) : ℕ := log.countP Entry.isPost

/-- The keys of the chunks that are posted before the last one. -/
def settledKeys : List (Entry κ) → List κ
  | [] => []
  | .wrote _ _ :: rest => settledKeys rest
  | .posted keys :: rest => if rest.any Entry.isPost then keys ++ settledKeys rest else []

/-- The entries up to the next post. -/
def untilPost (log : List (Entry κ)) : List (Entry κ) := log.takeWhile fun entry => !entry.isPost

/-- No chunk is empty, and each is recorded before the next post. -/
def Recorded : List (Entry κ) → Prop
  | [] => True
  | .wrote _ _ :: rest => Recorded rest
  | .posted keys :: rest =>
    keys ≠ [] ∧ (∀ k ∈ keys, ∃ m, .wrote k m ∈ untilPost rest) ∧ Recorded rest

section Replay

variable [DecidableEq κ]

/-- The ledger after one more entry. -/
def Entry.apply (l : Ledger κ) : Entry κ → Ledger κ
  | .posted _ => l
  | .wrote k m => Function.update l k (some m)

/-- The ledger after a log. -/
def replay (l : Ledger κ) (log : List (Entry κ)) : Ledger κ := log.foldl Entry.apply l

/-- Every write raises the attempts under its key. -/
def Rising : Ledger κ → List (Entry κ) → Prop
  | _, [] => True
  | l, .posted _ :: rest => Rising l rest
  | l, .wrote k m :: rest =>
    (∀ m₀, l k = some m₀ → m₀.attempts < m.attempts) ∧ Rising (Function.update l k (some m)) rest

/-- A log that leads from one ledger to another, as delivery runs write it. -/
structure Ran (l : Ledger κ) (log : List (Entry κ)) (l' : Ledger κ) : Prop where
  replayed : replay l log = l'
  rising : Rising l log
  recorded : Recorded log

end Replay

/-! ### Posts and chunks -/

theorem untilPost_of_none {log : List (Entry κ)} (h : ∀ entry ∈ log, entry.isPost = false) :
    untilPost log = log :=
  List.takeWhile_eq_self_iff.mpr fun entry hentry => by
    rw [h entry hentry]
    rfl

/-- What stands before the next post is not changed by what comes after it. -/
theorem untilPost_append_of_any {log more : List (Entry κ)} (h : log.any Entry.isPost = true) :
    untilPost (log ++ more) = untilPost log := by
  obtain ⟨entry, hentry, hpost⟩ := List.any_eq_true.mp h
  unfold untilPost
  rw [List.takeWhile_append, if_neg]
  intro hlen
  have hall := List.takeWhile_eq_self_iff.mp
    ((List.takeWhile_sublist _).eq_of_length hlen) entry hentry
  rw [hpost] at hall
  cases hall

theorem untilPost_subset_append (log more : List (Entry κ)) :
    untilPost log ⊆ untilPost (log ++ more) := by
  unfold untilPost
  rw [List.takeWhile_append]
  split
  · exact fun entry hentry => List.mem_append_left _ ((List.takeWhile_sublist _).subset hentry)
  · exact fun _ => id

theorem Recorded.append {log more : List (Entry κ)} (h : Recorded log) (hmore : Recorded more) :
    Recorded (log ++ more) := by
  induction log with
  | nil => exact hmore
  | cons entry rest ih =>
    cases entry with
    | wrote k m => exact ih h
    | posted keys =>
      obtain ⟨hne, hkeys, hrest⟩ := h
      refine ⟨hne, fun k hk => ?_, ih hrest⟩
      obtain ⟨m, hm⟩ := hkeys k hk
      exact ⟨m, untilPost_subset_append rest more hm⟩

/-- In a cut log, the chunks before the last one are recorded all the same. -/
theorem Recorded.wrote_of_settled {before more : List (Entry κ)} (h : Recorded (before ++ more))
    {k : κ} (hk : k ∈ settledKeys before) : ∃ m, .wrote k m ∈ before := by
  induction before with
  | nil => cases hk
  | cons entry rest ih =>
    cases entry with
    | wrote k' m' =>
      obtain ⟨m, hm⟩ := ih h hk
      exact ⟨m, List.mem_cons_of_mem _ hm⟩
    | posted keys =>
      obtain ⟨-, hkeys, hrest⟩ := h
      unfold settledKeys at hk
      split at hk
      · next hany =>
        rcases List.mem_append.mp hk with hk | hk
        · obtain ⟨m, hm⟩ := hkeys k hk
          rw [List.append_eq, untilPost_append_of_any hany] at hm
          exact ⟨m, List.mem_cons_of_mem _ ((List.takeWhile_sublist _).subset hm)⟩
        · obtain ⟨m, hm⟩ := ih hrest hk
          exact ⟨m, List.mem_cons_of_mem _ hm⟩
      · cases hk

/-- There is a chunk before the last one exactly when two are posted. -/
theorem Recorded.settledKeys_eq_nil_iff {before more : List (Entry κ)}
    (h : Recorded (before ++ more)) : settledKeys before = [] ↔ postCount before ≤ 1 := by
  induction before with
  | nil => exact iff_of_true rfl (Nat.zero_le _)
  | cons entry rest ih =>
    unfold postCount
    rw [List.countP_cons]
    cases entry with
    | wrote k m => exact ih h
    | posted keys =>
      obtain ⟨hne, -, -⟩ := h
      have hany : rest.any Entry.isPost = true ↔ 0 < rest.countP Entry.isPost := by
        rw [List.any_eq_true, List.countP_pos_iff]
      unfold settledKeys
      split
      · next hpost =>
        have := hany.mp hpost
        refine iff_of_false (by simp [hne]) ?_
        simp only [Entry.isPost, if_true]
        omega
      · next hpost =>
        have := mt hany.mpr hpost
        refine iff_of_true rfl ?_
        simp only [Entry.isPost, if_true]
        omega

/-! ### Replaying -/

variable [DecidableEq κ] {l l₁ l₂ : Ledger κ} {log more : List (Entry κ)} {k : κ}

theorem replay_append (l : Ledger κ) (log more : List (Entry κ)) :
    replay l (log ++ more) = replay (replay l log) more :=
  List.foldl_append

theorem rising_append : Rising l (log ++ more) ↔ Rising l log ∧ Rising (replay l log) more := by
  induction log generalizing l with
  | nil => exact ⟨fun h => ⟨trivial, h⟩, And.right⟩
  | cons entry rest ih =>
    cases entry with
    | posted keys => exact ih
    | wrote k m => exact (and_congr_right fun _ => ih).trans and_assoc.symm

/-- A delivery that exists is there after every log, with as many attempts, and with more once it is
    written. -/
theorem Rising.attempts (h : Rising l log) {m₀ : Mark} (hk : l k = some m₀) :
    ∃ m, replay l log k = some m ∧ m₀.attempts ≤ m.attempts ∧
      ∀ m', .wrote k m' ∈ log → m₀.attempts < m.attempts := by
  induction log generalizing l m₀ with
  | nil => exact ⟨m₀, hk, le_rfl, fun m' hm' => absurd hm' List.not_mem_nil⟩
  | cons entry rest ih =>
    cases entry with
    | posted keys =>
      obtain ⟨m, hm, hle, hlt⟩ := ih (l := l) h hk
      refine ⟨m, hm, hle, fun m' hm' => ?_⟩
      rcases List.mem_cons.mp hm' with heq | hm'
      · cases heq
      · exact hlt m' hm'
    | wrote k' m' =>
      obtain ⟨hraise, hrest⟩ := h
      by_cases hkey : k' = k
      · subst hkey
        obtain ⟨m, hm, hle, -⟩ := ih hrest (Function.update_self ..)
        have hlt := hraise m₀ hk
        exact ⟨m, hm, by omega, fun _ _ => by omega⟩
      · have hkept := (Function.update_of_ne (Ne.symm hkey) (some m') l).trans hk
        obtain ⟨m, hm, hle, hlt⟩ := ih hrest hkept
        refine ⟨m, hm, hle, fun m'' hm'' => ?_⟩
        rcases List.mem_cons.mp hm'' with heq | hm''
        · cases heq
          exact absurd rfl hkey
        · exact hlt m'' hm''

/-- What is written is not as it was. -/
theorem Rising.ne_of_wrote (h : Rising l log) {m : Mark} (hm : .wrote k m ∈ log) :
    replay l log k ≠ l k := by
  cases hk : l k with
  | some m₀ =>
    obtain ⟨m', hm', -, hlt⟩ := h.attempts hk
    have := hlt m hm
    rw [hm']
    intro heq
    cases heq
    omega
  | none =>
    obtain ⟨before, rest, rfl⟩ := List.append_of_mem hm
    obtain ⟨-, -, hrest⟩ := rising_append.mp h
    obtain ⟨m', hm', -⟩ := hrest.attempts (Function.update_self ..)
    rw [replay_append]
    change replay (Function.update (replay l before) k (some m)) rest k ≠ none
    rw [hm']
    exact nofun

namespace Ran

theorem refl (l : Ledger κ) : Ran l [] l := ⟨rfl, trivial, trivial⟩

theorem trans (h : Ran l log l₁) (h' : Ran l₁ more l₂) : Ran l (log ++ more) l₂ := by
  obtain ⟨rfl, hrising, hrecorded⟩ := h
  exact ⟨(replay_append ..).trans h'.replayed, rising_append.mpr ⟨hrising, h'.rising⟩,
    hrecorded.append h'.recorded⟩

/-- One mark is written. -/
theorem wrote {m : Mark} (h : ∀ m₀, l k = some m₀ → m₀.attempts < m.attempts) :
    Ran l [.wrote k m] (Function.update l k (some m)) := ⟨rfl, ⟨h, trivial⟩, trivial⟩

/-- A chunk is posted, and what follows records it. -/
theorem posted {keys : List κ} (h : Ran l log l₁) (hne : keys ≠ [])
    (hquiet : ∀ entry ∈ log, entry.isPost = false) (hkeys : ∀ k ∈ keys, ∃ m, .wrote k m ∈ log) :
    Ran l (.posted keys :: log) l₁ :=
  ⟨h.replayed, h.rising, hne, by rw [untilPost_of_none hquiet]; exact hkeys, h.recorded⟩

/-- Deliveries do not disappear. -/
theorem isSome (h : Ran l log l₁) (hk : (l k).isSome = true) : (l₁ k).isSome = true := by
  obtain ⟨m₀, hm₀⟩ := Option.isSome_iff_exists.mp hk
  obtain ⟨m, hm, -⟩ := h.rising.attempts hm₀
  rw [← h.replayed, hm]
  rfl

end Ran

/-! ### Tables of deliveries -/

section Rows

variable {α : Type v} {key : α → κ} (mark : α → Mark) {t : Table α key}

/-- The ledger of a table whose rows have marks. -/
def rowMarks (t : Table α key) : Ledger κ := fun k => (t.find? k).map mark

/-- A new row writes its mark. -/
theorem rowMarks_insert {r : α} (h : t.find? (key r) = none) :
    rowMarks mark (t.insert r) = Function.update (rowMarks mark t) (key r) (some (mark r)) := by
  funext k
  unfold rowMarks
  by_cases hk : k = key r
  · subst hk
    rw [Function.update_self, Table.find?_insert_self t h]
    rfl
  · rw [Function.update_of_ne hk, Table.find?_insert_of_ne t (Ne.symm hk)]

/-- A row that is rewritten writes its new mark. -/
theorem rowMarks_modify {r : α} (h : t.find? k = some r) (f : α → α)
    (hf : ∀ r, key (f r) = key r) :
    rowMarks mark (t.modify k f hf) = Function.update (rowMarks mark t) k (some (mark (f r))) := by
  funext k'
  unfold rowMarks
  by_cases hk : k' = k
  · subst hk
    rw [Function.update_self, Table.find?_modify_self, h]
    rfl
  · rw [Function.update_of_ne hk, Table.find?_modify_of_ne t f hf (Ne.symm hk)]

/-- A row that is rewritten without its mark writes nothing. -/
theorem rowMarks_modify_same {f : α → α} {hf : ∀ r, key (f r) = key r}
    (hmark : ∀ r, mark (f r) = mark r) : rowMarks mark (t.modify k f hf) = rowMarks mark t := by
  funext k'
  unfold rowMarks
  by_cases hk : k = k'
  · subst hk
    rw [Table.find?_modify_self]
    cases t.find? k <;> simp [hmark]
  · rw [Table.find?_modify_of_ne t f hf hk]

end Rows

/-! ### Sessions that log -/

section Sessions

variable {σ : Type w} (log : σ → List (Entry κ)) (marks : σ → Ledger κ)

/-- From one session to a later one: the log has grown by what leads from the marks of the one to
    the marks of the other. -/
def Logged (s s' : σ) : Prop := ∃ more, log s' = log s ++ more ∧ Ran (marks s) more (marks s')

/-- The answer for some deliveries is recorded: nothing is posted, and each delivery that exists is
    written. -/
def Records (keys : List κ) (s s' : σ) : Prop :=
  ∃ more, log s' = log s ++ more ∧ Ran (marks s) more (marks s') ∧
    (∀ entry ∈ more, entry.isPost = false) ∧
    ∀ k ∈ keys, (marks s k).isSome = true → ∃ m, .wrote k m ∈ more

variable {log marks} {s s' s'' : σ}

/-- A session with the same log and the same marks. -/
theorem Logged.of_eq (hlog : log s' = log s) (hmarks : marks s' = marks s) :
    Logged log marks s s' :=
  ⟨[], by rw [hlog, List.append_nil], by rw [hmarks]; exact .refl _⟩

theorem Logged.refl (s : σ) : Logged log marks s s := .of_eq rfl rfl

theorem Logged.trans (h : Logged log marks s s') (h' : Logged log marks s' s'') :
    Logged log marks s s'' := by
  obtain ⟨more, hlog, hran⟩ := h
  obtain ⟨more', hlog', hran'⟩ := h'
  exact ⟨more ++ more', by rw [hlog', hlog, List.append_assoc], hran.trans hran'⟩

theorem Records.logged {keys : List κ} (h : Records log marks keys s s') : Logged log marks s s' := by
  obtain ⟨more, hlog, hran, -⟩ := h
  exact ⟨more, hlog, hran⟩

/-- Recording the answer one delivery after the other. -/
theorem Records.foldl {step : σ → κ → σ} (hstep : ∀ s k, Records log marks [k] s (step s k)) :
    ∀ (keys : List κ) (s : σ), Records log marks keys s (keys.foldl step s)
  | [], s => ⟨[], (List.append_nil _).symm, .refl _, nofun, nofun⟩
  | key :: keys, s => by
    obtain ⟨more, hlog, hran, hquiet, hwrote⟩ := hstep s key
    obtain ⟨more', hlog', hran', hquiet', hwrote'⟩ := Records.foldl hstep keys (step s key)
    refine ⟨more ++ more', by rw [List.foldl_cons, hlog', hlog, List.append_assoc],
      hran.trans hran', fun entry hentry => ?_, fun k hk hsome => ?_⟩
    · exact (List.mem_append.mp hentry).elim (hquiet entry) (hquiet' entry)
    · rcases List.mem_cons.mp hk with rfl | hk
      · obtain ⟨m, hm⟩ := hwrote k (List.mem_singleton_self _) hsome
        exact ⟨m, List.mem_append_left _ hm⟩
      · obtain ⟨m, hm⟩ := hwrote' k hk (hran.isSome hsome)
        exact ⟨m, List.mem_append_right _ hm⟩

/-- A chunk is posted from the one session, and its answer recorded in the next. -/
theorem Records.posted {keys : List κ} {s₀ : σ} (h : Records log marks keys s s')
    (hne : keys ≠ []) (hkeys : ∀ k ∈ keys, (marks s₀ k).isSome = true)
    (hlog : log s = log s₀ ++ [.posted keys]) (hmarks : marks s = marks s₀) :
    Logged log marks s₀ s' := by
  obtain ⟨more, hmore, hran, hquiet, hwrote⟩ := h
  rw [hmarks] at hran hwrote
  refine ⟨.posted keys :: more, ?_, hran.posted hne hquiet fun k hk => hwrote k hk (hkeys k hk)⟩
  rw [hmore, hlog, List.append_assoc, List.singleton_append]

end Sessions

/-! ### Runs with one commit -/

/-- A run: the ledgers it starts and ends with, and its log. -/
structure Run (κ : Type u) [DecidableEq κ] where
  start : Ledger κ
  log : List (Entry κ)
  finish : Ledger κ
  ran : Ran start log finish

/-- The run from one session to a later one. -/
def Run.between {σ : Type w} {log : σ → List (Entry κ)} {marks : σ → Ledger κ} (s s' : σ)
    (h : Logged log marks s s') : Run κ where
  start := marks s
  log := (log s').drop (log s).length
  finish := marks s'
  ran := by
    obtain ⟨more, hlog, hran⟩ := h
    rw [hlog, List.drop_left]
    exact hran

/-- Where a run stops: after some entries of its log, or after the commit at its end. -/
structure Run.Stop (run : Run κ) where
  done : List (Entry κ)
  left : List (Entry κ)
  split : done ++ left = run.log
  committed : Bool
  whole : committed = true → left = []

namespace Run.Stop

variable {run : Run κ} (stop : run.Stop)

/-- The ledger a restart finds: the open transaction is gone. -/
def durable : Ledger κ := if stop.committed then run.finish else run.start

/-- The ledger the session showed when it stopped. -/
def session : Ledger κ := replay run.start stop.done

/-- The deliveries of every chunk that was posted before the last one have kept their marks. -/
def ChunksKept : Prop := ∀ k ∈ settledKeys stop.done, stop.durable k = stop.session k

/-- They have exactly when the run has committed, or has posted no more than one chunk. -/
theorem chunksKept_iff : stop.ChunksKept ↔ stop.committed = true ∨ postCount stop.done ≤ 1 := by
  have hrecorded : Recorded (stop.done ++ stop.left) := by
    rw [stop.split]
    exact run.ran.recorded
  have hrising : Rising run.start stop.done := by
    refine (rising_append.mp (?_ : Rising _ (_ ++ stop.left))).1
    rw [stop.split]
    exact run.ran.rising
  rw [← hrecorded.settledKeys_eq_nil_iff]
  unfold ChunksKept durable session
  cases hcommitted : stop.committed with
  | true =>
    refine iff_of_true (fun k _ => ?_) (.inl rfl)
    have hall : stop.done = run.log := by
      rw [← stop.split, stop.whole hcommitted, List.append_nil]
    rw [if_pos rfl, hall, run.ran.replayed]
  | false =>
    rw [if_neg Bool.false_ne_true]
    constructor
    · intro hkept
      refine .inr (List.eq_nil_iff_forall_not_mem.mpr fun k hk => ?_)
      obtain ⟨m, hm⟩ := hrecorded.wrote_of_settled hk
      exact hrising.ne_of_wrote hm (hkept k hk).symm
    · rintro (hfalse | hnil) k hk
      · cases hfalse
      · rw [hnil] at hk
        cases hk

end Run.Stop

end Schemes.Delivery
