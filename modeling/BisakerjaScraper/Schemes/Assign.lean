import BisakerjaScraper.Schemes.Table
import BisakerjaScraper.Schemes.Transaction
import Mathlib.Data.List.Dedup

/-! Dicts built by assignment, and writes that overwrite each other.

    A dict is a table of entries under distinct keys. Assigning under a key replaces the value or
    adds an entry at the end, so a dict comprehension keeps the last value it meets under a key.

    Of writes in general, one under a key takes the place of those under that key before it. What is
    left are the last writes, one for each key; of a batch of writes those stay whose key no later
    batch writes. -/

namespace Schemes

universe u v
variable {κ : Type u} {β : Type v}

/-- A dict: entries with distinct keys, in the order their keys came. -/
abbrev Assigned (κ : Type u) (β : Type v) := Table (κ × β) Prod.fst

namespace Assigned

/-- The values of a dict. -/
def values (d : Assigned κ β) : List β := d.rows.map Prod.snd

variable [DecidableEq κ]

/-- `d.get(key)`. -/
def get (d : Assigned κ β) (key : κ) : Option β := (d.find? key).map Prod.snd

/-- `d[key] = value`. -/
def assign (d : Assigned κ β) (key : κ) (value : β) : Assigned κ β :=
  match d.find? key with
  | none => d.insert (key, value)
  | some _ => d.modify key (fun entry => (entry.1, value)) fun _ => rfl

/-- `{key: value for key, value in entries}`. -/
def ofEntries (entries : List (κ × β)) : Assigned κ β :=
  entries.foldl (fun d entry => d.assign entry.1 entry.2) (Table.empty _)

theorem get_assign_self (d : Assigned κ β) (key : κ) (value : β) :
    (d.assign key value).get key = some value := by
  unfold assign get
  cases hfind : d.find? key with
  | none => rw [Table.find?_insert_self d (r := (key, value)) hfind, Option.map_some]
  | some entry =>
    dsimp only
    rw [Table.find?_modify_self, hfind]
    rfl

theorem get_assign_of_ne (d : Assigned κ β) {key key' : κ} (h : key ≠ key') (value : β) :
    (d.assign key value).get key' = d.get key' := by
  unfold assign get
  split
  · rw [Table.find?_insert_of_ne d (r := (key, value)) h]
  · rw [Table.find?_modify_of_ne d _ _ h]

theorem mem_rows_iff {d : Assigned κ β} {key : κ} {value : β} :
    (key, value) ∈ d.rows ↔ d.get key = some value := by
  unfold get
  constructor
  · intro h
    rw [Table.find?_of_mem h, Option.map_some]
  · intro h
    obtain ⟨entry, hfind, hvalue⟩ := Option.map_eq_some_iff.mp h
    have hkey : entry.1 = key := Table.key_of_find? hfind
    rw [← hkey, ← hvalue]
    exact Table.mem_of_find? hfind

/-- Assignments under other keys do not matter to a key. -/
theorem get_foldl_filter (p : κ → Bool) {key : κ} (h : p key = true) (entries : List (κ × β))
    (d d' : Assigned κ β) (hd : d.get key = d'.get key) :
    ((entries.filter fun entry => p entry.1).foldl (fun d entry => d.assign entry.1 entry.2) d).get
        key
      = (entries.foldl (fun d entry => d.assign entry.1 entry.2) d').get key := by
  induction entries generalizing d d' with
  | nil => exact hd
  | cons entry entries ih =>
    by_cases hkey : entry.1 = key
    · rw [List.filter_cons_of_pos (p := fun e : κ × β => p e.1) (by rw [hkey]; exact h),
        List.foldl_cons, List.foldl_cons]
      refine ih _ _ ?_
      rw [hkey, get_assign_self, get_assign_self]
    · rw [List.foldl_cons]
      by_cases hp : p entry.1 = true
      · rw [List.filter_cons_of_pos (p := fun e : κ × β => p e.1) hp, List.foldl_cons]
        refine ih _ _ ?_
        rw [get_assign_of_ne d hkey, get_assign_of_ne d' hkey, hd]
      · rw [List.filter_cons_of_neg (p := fun e : κ × β => p e.1) hp]
        refine ih _ _ ?_
        rw [get_assign_of_ne d' hkey, hd]

theorem get_ofEntries_filter (p : κ → Bool) {key : κ} (h : p key = true)
    (entries : List (κ × β)) :
    (ofEntries (entries.filter fun entry => p entry.1)).get key = (ofEntries entries).get key :=
  get_foldl_filter p h entries _ _ rfl

/-- A key has a value exactly when some entry assigned one, and its value is one of those. -/
theorem get_foldl_assign (entries : List (κ × β)) (d : Assigned κ β) (key : κ) :
    (key ∉ entries.map Prod.fst ∧
        (entries.foldl (fun d entry => d.assign entry.1 entry.2) d).get key = d.get key) ∨
      ∃ value, (key, value) ∈ entries ∧
        (entries.foldl (fun d entry => d.assign entry.1 entry.2) d).get key = some value := by
  induction entries generalizing d with
  | nil => exact .inl ⟨List.not_mem_nil, rfl⟩
  | cons entry entries ih =>
    rw [List.foldl_cons]
    rcases ih (d.assign entry.1 entry.2) with ⟨hnone, heq⟩ | ⟨value, hmem, heq⟩
    · by_cases hkey : entry.1 = key
      · refine .inr ⟨entry.2, by rw [← hkey]; exact List.mem_cons_self, ?_⟩
        rw [heq, hkey, get_assign_self]
      · refine .inl ⟨?_, heq.trans (get_assign_of_ne d hkey entry.2)⟩
        rw [List.map_cons, List.mem_cons, not_or]
        exact ⟨Ne.symm hkey, hnone⟩
    · exact .inr ⟨value, List.mem_cons_of_mem entry hmem, heq⟩

theorem get_ofEntries_eq_none_iff {entries : List (κ × β)} {key : κ} :
    (ofEntries entries).get key = none ↔ key ∉ entries.map Prod.fst := by
  rcases get_foldl_assign entries (Table.empty _) key with ⟨hnone, heq⟩ | ⟨value, hmem, heq⟩
  · exact ⟨fun _ => hnone, fun _ => heq⟩
  · constructor
    · intro h
      rw [ofEntries, heq] at h
      cases h
    · intro h
      exact absurd (List.mem_map.mpr ⟨_, hmem, rfl⟩) h

theorem mem_of_get_ofEntries {entries : List (κ × β)} {key : κ} {value : β}
    (h : (ofEntries entries).get key = some value) : (key, value) ∈ entries := by
  rcases get_foldl_assign entries (Table.empty _) key with ⟨-, heq⟩ | ⟨value', hmem, heq⟩
  · rw [ofEntries, heq] at h
    cases h
  · rw [ofEntries, heq] at h
    cases h
    exact hmem

end Assigned

/-! ### What is left of writes -/

section Writes

variable {ω : Type u} {κ : Type v} [DecidableEq κ]

/-- The writes that no later one overwrites. -/
def lastWritten (key : ω → κ) : List ω → List ω
  | [] => []
  | w :: rest => if key w ∈ rest.map key then lastWritten key rest else w :: lastWritten key rest

variable {key : ω → κ}

/-- One write is left for each key. -/
theorem keys_lastWritten (writes : List ω) :
    (lastWritten key writes).map key = (writes.map key).dedup := by
  induction writes with
  | nil => rfl
  | cons w rest ih =>
    rw [lastWritten, List.map_cons]
    split
    · next hmem => rw [List.dedup_cons_of_mem hmem, ih]
    · next hmem => rw [List.dedup_cons_of_notMem hmem, List.map_cons, ih]

theorem nodup_lastWritten (writes : List ω) : ((lastWritten key writes).map key).Nodup := by
  rw [keys_lastWritten]
  exact List.nodup_dedup _

theorem lastWritten_subset (writes : List ω) : lastWritten key writes ⊆ writes := by
  induction writes with
  | nil => exact fun _ h => h
  | cons w rest ih =>
    rw [lastWritten]
    split
    · exact fun x hx => List.mem_cons_of_mem w (ih hx)
    · exact List.cons_subset_cons w ih

/-- Of two batches, the second overwrites the first. -/
theorem lastWritten_append (first later : List ω) :
    lastWritten key (first ++ later)
      = ((lastWritten key first).filter fun w => key w ∉ later.map key)
        ++ lastWritten key later := by
  induction first with
  | nil => rfl
  | cons w rest ih =>
    rw [List.cons_append, lastWritten, lastWritten, List.map_append]
    by_cases hrest : key w ∈ rest.map key
    · rw [if_pos (List.mem_append_left _ hrest), if_pos hrest, ih]
    · by_cases hlater : key w ∈ later.map key
      · rw [if_pos (List.mem_append_right _ hlater), if_neg hrest, ih,
          List.filter_cons_of_neg (by simpa using hlater)]
      · rw [if_neg (by rw [List.mem_append, not_or]; exact ⟨hrest, hlater⟩), if_neg hrest, ih,
          List.filter_cons_of_pos (by simpa using hlater), List.cons_append]

/-- What is left are the last writes. -/
theorem mem_lastWritten_iff {writes : List ω} {w : ω} :
    w ∈ lastWritten key writes ↔ lastWrite key writes (key w) = some w := by
  induction writes using List.reverseRecOn with
  | nil => simp [lastWritten]
  | append_singleton writes w' ih =>
    rw [lastWritten_append, lastWrite_append, List.mem_append, List.mem_filter, ih]
    simp only [lastWritten, List.map_cons, List.map_nil, List.not_mem_nil, if_false,
      List.mem_singleton, decide_eq_true_eq]
    by_cases hkey : key w' = key w
    · rw [if_pos hkey, Option.some.injEq]
      simp [hkey, eq_comm]
    · rw [if_neg hkey]
      constructor
      · rintro (⟨hlast, -⟩ | rfl)
        · exact hlast
        · exact absurd rfl hkey
      · exact fun hlast => .inl ⟨hlast, Ne.symm hkey⟩

/-- The writes of a batch that no later batch overwrites. -/
def leftOf (key : ω → κ) (batch : List ω) (later : List (List ω)) : List ω :=
  (lastWritten key batch).filter fun w => key w ∉ later.flatten.map key

/-- What is left of some batches is what is left of each. -/
theorem lastWritten_flatten_cons (batch : List ω) (later : List (List ω)) :
    lastWritten key (batch :: later).flatten
      = leftOf key batch later ++ lastWritten key later.flatten := by
  rw [List.flatten_cons, lastWritten_append]
  rfl

/-- The keys of a batch that no later batch writes, each once. -/
def keysLeft (keys later : List κ) : List κ := keys.dedup.filter fun k => k ∉ later

/-- One write of a batch is left for each of them. -/
theorem keys_leftOf (batch : List ω) (later : List (List ω)) :
    (leftOf key batch later).map key = keysLeft (batch.map key) (later.flatten.map key) := by
  unfold leftOf keysLeft
  rw [← keys_lastWritten, List.filter_map]
  rfl

theorem length_leftOf (batch : List ω) (later : List (List ω)) :
    (leftOf key batch later).length
      = (keysLeft (batch.map key) (later.flatten.map key)).length := by
  rw [← keys_leftOf, List.length_map]

section Batches

variable {γ : Type u} {β : Type v} {batch : γ → List ω} {f : ω → β} {g : γ → β}

/-- With one write left of each batch, what is left is a list of the batches. -/
theorem map_lastWritten_eq {batches : List γ} (h : ∀ c ∈ batches, ∀ w ∈ batch c, f w = g c)
    (hone : ∀ before c later, batches = before ++ c :: later →
      (leftOf key (batch c) (later.map batch)).length = 1) :
    (lastWritten key (batches.map batch).flatten).map f = batches.map g := by
  induction batches with
  | nil => rfl
  | cons c later ih =>
    rw [List.map_cons, lastWritten_flatten_cons, List.map_append, List.map_cons,
      ih (fun c' hc' => h c' (List.mem_cons_of_mem c hc'))
        fun before c' rest hsplit => hone (c :: before) c' rest (by rw [hsplit, List.cons_append])]
    obtain ⟨w, hw⟩ := List.length_eq_one_iff.mp (hone [] c later rfl)
    have hmem : w ∈ batch c := by
      have hleft : w ∈ leftOf key (batch c) (later.map batch) := by
        rw [hw]
        exact List.mem_singleton_self w
      exact lastWritten_subset _ (List.mem_of_mem_filter hleft)
    rw [hw, List.map_singleton, h c List.mem_cons_self w hmem, List.singleton_append]

/-- What is left of one batch, when its writes can be told from those of the others. -/
theorem filter_lastWritten_eq {p : ω → Bool} {before later : List γ} {c : γ}
    (hself : ∀ w ∈ batch c, p w = true)
    (hothers : ∀ c' ∈ before ++ later, ∀ w ∈ batch c', p w = false) :
    (lastWritten key ((before ++ c :: later).map batch).flatten).filter p
      = leftOf key (batch c) (later.map batch) := by
  induction before with
  | nil =>
    rw [List.nil_append, List.map_cons, lastWritten_flatten_cons, List.filter_append]
    have hkeep : (leftOf key (batch c) (later.map batch)).filter p
        = leftOf key (batch c) (later.map batch) :=
      List.filter_eq_self.mpr fun w hw =>
        hself w (lastWritten_subset _ (List.mem_of_mem_filter hw))
    have hdrop : (lastWritten key (later.map batch).flatten).filter p = [] := by
      refine List.filter_eq_nil_iff.mpr fun w hw => ?_
      obtain ⟨batch', hbatch', hmem⟩ := List.mem_flatten.mp (lastWritten_subset _ hw)
      obtain ⟨c', hc', rfl⟩ := List.mem_map.mp hbatch'
      simp [hothers c' hc' w hmem]
    rw [hkeep, hdrop, List.append_nil]
  | cons c' before ih =>
    rw [List.cons_append, List.map_cons, lastWritten_flatten_cons, List.filter_append,
      ih fun c'' hc'' => hothers c'' (List.mem_cons_of_mem c' hc'')]
    have hdrop : (leftOf key (batch c') ((before ++ c :: later).map batch)).filter p = [] := by
      refine List.filter_eq_nil_iff.mpr fun w hw => ?_
      have hmem := lastWritten_subset _ (List.mem_of_mem_filter hw)
      simp [hothers c' List.mem_cons_self w hmem]
    rw [hdrop, List.nil_append]

end Batches

end Writes

end Schemes
