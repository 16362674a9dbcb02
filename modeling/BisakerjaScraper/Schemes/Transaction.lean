import Mathlib.Data.List.Basic
import Mathlib.Data.List.Induction
import Mathlib.Order.Basic

/-! What a transaction keeps.

    A history of a session lists its writes, its commits and its rollbacks. A commit makes the
    writes before it durable, a rollback takes back those that are not. Every write ends up durable,
    still pending or lost, and none is lost exactly when every rollback finds nothing pending. -/

namespace Schemes

universe u v
variable {ω : Type u} {ω' : Type v}

/-- An event of a session. -/
inductive TxEvent (ω : Type u) where
  | wrote (w : ω)
  | committed
  | rolledBack

/-- The writes a session has made durable and those of its open transaction. -/
structure TxView (ω : Type u) where
  durable : List ω := []
  pending : List ω := []

namespace TxView

/-- The view after one more event. -/
def step (v : TxView ω) : TxEvent ω → TxView ω
  | .wrote w => { v with pending := v.pending ++ [w] }
  | .committed => { durable := v.durable ++ v.pending, pending := [] }
  | .rolledBack => { v with pending := [] }

/-- The view after a history. -/
def replay (v : TxView ω) (history : List (TxEvent ω)) : TxView ω := history.foldl step v

/-- All writes of a view. -/
def all (v : TxView ω) : List ω := v.durable ++ v.pending

/-- No rollback of the history finds a pending write. -/
def LosesNothing : TxView ω → List (TxEvent ω) → Prop
  | _, [] => True
  | v, .wrote w :: rest => (v.step (.wrote w)).LosesNothing rest
  | v, .committed :: rest => (v.step .committed).LosesNothing rest
  | v, .rolledBack :: rest => v.pending = [] ∧ (v.step .rolledBack).LosesNothing rest

end TxView

/-- The write of an event. -/
def TxEvent.write? : TxEvent ω → Option ω
  | .wrote w => some w
  | _ => none

/-- The writes of a history. -/
def txWrites (history : List (TxEvent ω)) : List ω := history.filterMap TxEvent.write?

/-- The event as far as some writes are concerned. -/
def TxEvent.select (f : ω → Option ω') : TxEvent ω → Option (TxEvent ω')
  | .wrote w => (f w).map .wrote
  | .committed => some .committed
  | .rolledBack => some .rolledBack

/-- The history as far as some writes are concerned. -/
def txSelect (f : ω → Option ω') (history : List (TxEvent ω)) : List (TxEvent ω') :=
  history.filterMap (TxEvent.select f)

@[simp] theorem txWrites_append (history history' : List (TxEvent ω)) :
    txWrites (history ++ history') = txWrites history ++ txWrites history' :=
  List.filterMap_append

@[simp] theorem txSelect_append (f : ω → Option ω') (history history' : List (TxEvent ω)) :
    txSelect f (history ++ history') = txSelect f history ++ txSelect f history' :=
  List.filterMap_append

namespace TxView

variable {v : TxView ω}

@[simp] theorem replay_nil : v.replay [] = v := rfl

theorem replay_cons (event : TxEvent ω) (rest : List (TxEvent ω)) :
    v.replay (event :: rest) = (v.step event).replay rest := rfl

@[simp] theorem replay_append (history history' : List (TxEvent ω)) :
    v.replay (history ++ history') = (v.replay history).replay history' :=
  List.foldl_append

theorem replay_wrote (history : List (TxEvent ω)) (w : ω) :
    v.replay (history ++ [.wrote w])
      = { durable := (v.replay history).durable, pending := (v.replay history).pending ++ [w] } :=
  replay_append _ _

theorem replay_committed (history : List (TxEvent ω)) :
    v.replay (history ++ [.committed]) = { durable := (v.replay history).all, pending := [] } :=
  replay_append _ _

theorem replay_rolledBack (history : List (TxEvent ω)) :
    v.replay (history ++ [.rolledBack])
      = { durable := (v.replay history).durable, pending := [] } :=
  replay_append _ _

/-- After a commit nothing is pending. -/
theorem pending_replay_committed (history : List (TxEvent ω)) :
    (v.replay (history ++ [.committed])).pending = [] := by
  rw [replay_committed]

/-- One event adds its write or takes pending writes away. -/
theorem step_sublist (event : TxEvent ω) :
    ((v.step event).all).Sublist (v.all ++ event.write?.toList) := by
  cases event with
  | wrote w =>
    simp only [all, step, TxEvent.write?, Option.toList_some, List.append_assoc]
    exact List.Sublist.refl _
  | committed => simp [all, step, TxEvent.write?]
  | rolledBack => simp [all, step, TxEvent.write?]

/-- What a view holds was written, in that order. -/
theorem replay_sublist (history : List (TxEvent ω)) :
    ((v.replay history).all).Sublist (v.all ++ txWrites history) := by
  induction history generalizing v with
  | nil => simp [txWrites]
  | cons event rest ih =>
    have hwrites : txWrites (event :: rest) = event.write?.toList ++ txWrites rest := by
      cases event <;> rfl
    rw [replay_cons, hwrites, ← List.append_assoc]
    exact ih.trans ((step_sublist event).append_right _)

/-- A durable write was durable before or has been written since. -/
theorem mem_of_mem_durable {history : List (TxEvent ω)} {w : ω}
    (h : w ∈ (v.replay history).durable) : w ∈ v.all ∨ w ∈ txWrites history := by
  have hall : w ∈ (v.replay history).all := List.mem_append_left _ h
  exact List.mem_append.mp ((replay_sublist history).subset hall)

/-- The view holds every write exactly when no rollback has found one pending. -/
theorem length_all_replay_iff (history : List (TxEvent ω)) :
    (v.replay history).all.length = v.all.length + (txWrites history).length ↔
      v.LosesNothing history := by
  induction history generalizing v with
  | nil => simp [LosesNothing, txWrites]
  | cons event rest ih =>
    have hwrites : txWrites (event :: rest) = event.write?.toList ++ txWrites rest := by
      cases event <;> rfl
    have hbound := (replay_sublist (v := v.step event) rest).length_le
    rw [List.length_append] at hbound
    rw [replay_cons, hwrites, List.length_append]
    cases event with
    | wrote w =>
      have hstep : (v.step (.wrote w)).all.length = v.all.length + 1 := by
        simp [all, step, Nat.add_assoc]
      rw [LosesNothing, ← ih, hstep]
      simp only [TxEvent.write?, Option.toList_some, List.length_singleton]
      omega
    | committed =>
      have hstep : (v.step .committed).all.length = v.all.length := by simp [all, step]
      rw [LosesNothing, ← ih, hstep]
      simp only [TxEvent.write?, Option.toList_none, List.length_nil]
      omega
    | rolledBack =>
      have hstep : (v.step .rolledBack).all.length + v.pending.length = v.all.length := by
        simp [all, step]
      have hempty : v.pending = [] ↔ v.pending.length = 0 := List.length_eq_zero_iff.symm
      rw [LosesNothing, ← ih, hempty]
      simp only [TxEvent.write?, Option.toList_none, List.length_nil]
      omega

/-- Replaying and selecting writes go together. -/
theorem replay_select (f : ω → Option ω') (history : List (TxEvent ω)) :
    (TxView.mk (v.durable.filterMap f) (v.pending.filterMap f)).replay (txSelect f history)
      = ⟨(v.replay history).durable.filterMap f, (v.replay history).pending.filterMap f⟩ := by
  induction history generalizing v with
  | nil => rfl
  | cons event rest ih =>
    rw [replay_cons, ← ih (v := v.step event)]
    cases event with
    | wrote w => cases hw : f w <;> simp [txSelect, TxEvent.select, hw, replay_cons, step]
    | committed => simp [txSelect, TxEvent.select, replay_cons, step]
    | rolledBack => simp [txSelect, TxEvent.select, replay_cons, step]

end TxView

theorem txWrites_select (f : ω → Option ω') (history : List (TxEvent ω)) :
    txWrites (txSelect f history) = (txWrites history).filterMap f := by
  induction history with
  | nil => rfl
  | cons event rest ih =>
    unfold txWrites txSelect at ih ⊢
    cases event with
    | wrote w => cases hw : f w <;> simp [TxEvent.select, TxEvent.write?, hw, ih]
    | committed => exact ih
    | rolledBack => exact ih

/-! ### The last write under a key -/

/-- The last write under a key. -/
def lastWrite {κ : Type v} [DecidableEq κ] (key : ω → κ) (writes : List ω) (k : κ) : Option ω :=
  writes.reverse.find? fun w => key w = k

section LastWrite

variable {κ : Type v} [DecidableEq κ] {key : ω → κ} {writes : List ω} {k : κ} {w : ω}

@[simp] theorem lastWrite_nil : lastWrite key [] k = none := rfl

theorem lastWrite_append (writes : List ω) (w : ω) (k : κ) :
    lastWrite key (writes ++ [w]) k = if key w = k then some w else lastWrite key writes k := by
  unfold lastWrite
  rw [List.reverse_append, List.reverse_singleton, List.singleton_append]
  split
  · next h => exact List.find?_cons_of_pos (by simpa using h)
  · next h => exact List.find?_cons_of_neg (by simpa using h)

theorem lastWrite_append_list (writes writes' : List ω) (k : κ) :
    lastWrite key (writes ++ writes') k = (lastWrite key writes' k).or (lastWrite key writes k) := by
  unfold lastWrite
  rw [List.reverse_append, List.find?_append]

theorem mem_of_lastWrite (h : lastWrite key writes k = some w) : w ∈ writes ∧ key w = k := by
  refine ⟨List.mem_reverse.mp (List.mem_of_find?_eq_some h), ?_⟩
  simpa using List.find?_some h

theorem lastWrite_eq_none_iff : lastWrite key writes k = none ↔ ∀ w ∈ writes, key w ≠ k := by
  simp [lastWrite]

/-- Writes under other keys do not matter to a key. -/
theorem lastWrite_filter {keep : κ → Bool} (h : keep k = true) (writes : List ω) :
    lastWrite key (writes.filter fun w => keep (key w)) k = lastWrite key writes k := by
  induction writes using List.reverseRecOn with
  | nil => rfl
  | append_singleton writes w ih =>
    rw [List.filter_append, lastWrite_append]
    by_cases hkeep : keep (key w) = true
    · rw [List.filter_cons_of_pos (p := fun w => keep (key w)) hkeep, List.filter_nil,
        lastWrite_append, ih]
    · have hne : key w ≠ k := fun heq => hkeep (heq ▸ h)
      rw [List.filter_cons_of_neg (p := fun w => keep (key w)) hkeep, List.filter_nil,
        List.append_nil, if_neg hne, ih]

end LastWrite

end Schemes
