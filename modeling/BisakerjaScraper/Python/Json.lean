import Mathlib.Data.Rat.Defs

/-! JSON values as Python holds them after decoding.

    Integers are unbounded, a float is a rational or one of the three special values, and a dict
    is its list of entries in insertion order. -/

namespace Bisakerja

/-- A Python float. -/
inductive PyFloat where
  | finite (q : ℚ)
  | posInf
  | negInf
  | nan

/-- A decoded JSON value. -/
inductive Json where
  | null
  | bool (b : Bool)
  | int (n : ℤ)
  | float (x : PyFloat)
  | str (s : String)
  | list (xs : List Json)
  | dict (entries : List (String × Json))

instance : Inhabited Json := ⟨.null⟩

/-- The entries of a dict with string keys. -/
abbrev Dict := List (String × Json)

namespace Dict

/-- `d.get(key)`: the entry under `key`, `None` when there is none. -/
def get (d : Dict) (key : String) : Json := (d.lookup key).getD .null

/-- `key in d`. -/
def contains (d : Dict) (key : String) : Bool := (d.lookup key).isSome

/-- `d[key] = value`: an existing key keeps its place, a new one goes to the end. -/
def set (d : Dict) (key : String) (value : Json) : Dict :=
  if contains d key then d.map fun e => if e.1 = key then (key, value) else e
  else d ++ [(key, value)]

/-- `{**d, **e}`. -/
def merge (d e : Dict) : Dict := e.foldl (fun acc kv => set acc kv.1 kv.2) d

theorem contains_append (d e : Dict) (key : String) :
    contains (d ++ e) key = (contains d key || contains e key) := by
  unfold contains
  rw [List.lookup_append, Option.isSome_or]

/-- Entries under new keys are appended. -/
theorem merge_eq_append {d e : Dict} (h : ∀ entry ∈ e, contains d entry.1 = false)
    (hnodup : (e.map Prod.fst).Nodup) : merge d e = d ++ e := by
  induction e generalizing d with
  | nil => exact (List.append_nil d).symm
  | cons entry e ih =>
    have hset : set d entry.1 entry.2 = d ++ [entry] := by
      unfold set
      rw [h entry List.mem_cons_self, if_neg Bool.false_ne_true]
    rw [List.map_cons, List.nodup_cons] at hnodup
    have hrest : ∀ other ∈ e, contains (d ++ [entry]) other.1 = false := by
      intro other hother
      rw [contains_append, h other (List.mem_cons_of_mem entry hother), Bool.false_or]
      have hne : other.1 ≠ entry.1 := fun heq => hnodup.1 (heq ▸ List.mem_map_of_mem hother)
      simp [contains, hne]
    unfold merge at ih ⊢
    rw [List.foldl_cons, hset, ih hrest hnodup.2, List.append_assoc, List.singleton_append]

end Dict

namespace Json

/-- `value if isinstance(value, dict) else {}`. -/
def asDict : Json → Dict
  | .dict entries => entries
  | _ => []

/-- `value.get(key)` on what `as_dict` makes of a value. -/
def get (v : Json) (key : String) : Json := Dict.get v.asDict key

/-- `isinstance(value, dict)`. -/
def isDict : Json → Bool
  | .dict _ => true
  | _ => false

/-- `value if isinstance(value, list) else []`. -/
def asList : Json → List Json
  | .list xs => xs
  | _ => []

/-- The truth value of a decoded value. -/
def truthy : Json → Bool
  | .null => false
  | .bool b => b
  | .int n => n ≠ 0
  | .float (.finite q) => q ≠ 0
  | .float _ => true
  | .str s => s ≠ ""
  | .list xs => !xs.isEmpty
  | .dict entries => !entries.isEmpty

/-- An optional text as JSON. -/
def ofOption : Option String → Json
  | some s => .str s
  | none => .null

end Json

end Bisakerja
