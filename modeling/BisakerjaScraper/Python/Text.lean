import Mathlib.Data.List.Infix

/-! The string operations of Python the scraper uses, over the characters of a string. -/

namespace Bisakerja

/-- What is said of the characters of a text is decided along the text, not along all characters. -/
instance (priority := 2000) decidableForallMem (p : Char → Prop) [DecidablePred p]
    (text : List Char) : Decidable (∀ c ∈ text, p c) := List.decidableBAll p text

instance (priority := 2000) decidableForallMemOption (p : Char → Prop) [DecidablePred p]
    (char : Option Char) : Decidable (∀ c ∈ char, p c) := Option.decidableForallMem char

instance lawfulBEqPair : LawfulBEq (String × String) := inferInstance

theorem isUpper_eq (c : Char) : c.isUpper = decide (c.val ≥ 'A'.val ∧ c.val ≤ 'Z'.val) := rfl

theorem isLower_eq (c : Char) :
    c.isLower = (decide (c.val ≥ 'a'.val) && decide (c.val ≤ 'z'.val)) := rfl

theorem isAlpha_eq (c : Char) : c.isAlpha = (c.isUpper || c.isLower) := rfl

/-- `s.endswith(suffix)`. -/
def endsWith (s suffix : String) : Bool := suffix.toList.isSuffixOf s.toList

/-- `s[:-n]` for `n ≥ 1`. -/
def dropLast (s : String) (n : ℕ) : String := String.ofList (s.toList.take (s.toList.length - n))

/-- The characters `str.strip()` removes: what `str.isspace` accepts. -/
def isSpace (c : Char) : Bool :=
  (9 ≤ c.toNat && c.toNat ≤ 13) || (28 ≤ c.toNat && c.toNat ≤ 32) ||
    c.toNat ∈ [0x85, 0xA0, 0x1680, 0x2028, 0x2029, 0x202F, 0x205F, 0x3000] ||
    (0x2000 ≤ c.toNat && c.toNat ≤ 0x200A)

/-- Lower-casing an ASCII letter gives no space, and nothing to lower-case again. -/
theorem toLower_facts (c : Char) :
    isSpace c.toLower = isSpace c ∧ c.toLower.toLower = c.toLower := by
  have hupper : ∀ n < 91, 65 ≤ n → isSpace (Char.ofNat n).toLower = isSpace (Char.ofNat n) ∧
      (Char.ofNat n).toLower.toLower = (Char.ofNat n).toLower := by decide
  by_cases h : 65 ≤ c.toNat ∧ c.toNat ≤ 90
  · have hc := hupper c.toNat (Nat.lt_succ_of_le h.2) h.1
    rwa [Char.ofNat_toNat] at hc
  · have hsame : c.toLower = c := by
      unfold Char.toLower
      rw [dif_neg]
      rintro ⟨hlow, hhigh⟩
      exact h ⟨hlow, hhigh⟩
    rw [hsame, hsame]
    exact ⟨rfl, rfl⟩

/-- `s.strip()`. -/
def strip (s : String) : String :=
  String.ofList (((s.toList.dropWhile isSpace).reverse.dropWhile isSpace).reverse)

/-- `s.lstrip()`. -/
def lstrip (text : List Char) : List Char := text.dropWhile isSpace

/-- `s.replace(old, new)` for single characters. -/
def replaceChar (s : String) (old new : Char) : String :=
  String.ofList (s.toList.map fun c => if c = old then new else c)

/-- `s.replace(old, new)`, once some characters have been skipped. -/
def replaceFrom (old new : List Char) : ℕ → List Char → List Char
  | _, [] => []
  | skip + 1, _ :: rest => replaceFrom old new skip rest
  | 0, c :: rest =>
    if old.isPrefixOf (c :: rest) then new ++ replaceFrom old new (old.length - 1) rest
    else c :: replaceFrom old new 0 rest

/-- `s.replace(old, new)`. -/
def replaceText (s old new : String) : String :=
  String.ofList (replaceFrom old.toList new.toList 0 s.toList)

/-- `needle in haystack`. -/
def isInfix (needle haystack : String) : Bool := needle.toList <:+: haystack.toList

/-- `value or other` for optional texts: `None` and the empty string are false. -/
def orText : Option String → String → String
  | some "", other => other
  | some s, _ => s
  | none, other => other

/-- What a check of the characters of a text finds holds of each of them. -/
theorem forall_mem_of_all {p : Char → Prop} [DecidablePred p] {text : List Char}
    (h : (text.all fun c => p c) = true) : ∀ c ∈ text, p c := by
  simpa using h

/-- A text with a character that the haystack lacks is not in it. -/
theorem isInfix_eq_false {needle haystack : String} {c : Char} (hc : c ∈ needle.toList)
    (h : c ∉ haystack.toList) : isInfix needle haystack = false := by
  simp only [isInfix, decide_eq_false_iff_not]
  exact fun hwithin => h (hwithin.subset hc)

/-- A text without whitespace at its ends. -/
theorem strip_ofList {text : List Char} (hhead : ∀ c ∈ text.head?, isSpace c = false)
    (hlast : ∀ c ∈ text.getLast?, isSpace c = false) :
    strip (String.ofList text) = String.ofList text := by
  have hkept : ∀ l : List Char, (∀ c ∈ l.head?, isSpace c = false) → l.dropWhile isSpace = l := by
    rintro (- | ⟨c, l⟩) h
    · rfl
    · simp [h c rfl]
  rw [strip, String.toList_ofList, hkept text hhead, hkept text.reverse, List.reverse_reverse]
  simpa [List.head?_reverse] using hlast

end Bisakerja
