import BisakerjaScraper.Python.Text
import Mathlib.Algebra.Group.Int.Defs
import Mathlib.Algebra.Group.Nat.Defs
import Mathlib.Data.Int.Notation

/-! `decimal.Decimal`, as far as texts are read into it, multiplied and truncated.

    A finite number is a sign, a coefficient and an exponent. Reading a text is exact; a product is
    rounded to the 28 digits of the default context. -/

namespace Bisakerja

/-- The code points of the digits zero; each is followed by the digits one to nine. -/
def decimalZeros : List ℕ :=
  [0x30, 0x660, 0x6F0, 0x7C0, 0x966, 0x9E6, 0xA66, 0xAE6, 0xB66, 0xBE6, 0xC66, 0xCE6, 0xD66, 0xDE6,
    0xE50, 0xED0, 0xF20, 0x1040, 0x1090, 0x17E0, 0x1810, 0x1946, 0x19D0, 0x1A80, 0x1A90, 0x1B50,
    0x1BB0, 0x1C40, 0x1C50, 0xA620, 0xA8D0, 0xA900, 0xA9D0, 0xA9F0, 0xAA50, 0xABF0, 0xFF10, 0x104A0,
    0x10D30, 0x11066, 0x110F0, 0x11136, 0x111D0, 0x112F0, 0x11450, 0x114D0, 0x11650, 0x116C0,
    0x11730, 0x118E0, 0x11950, 0x11C50, 0x11D50, 0x11DA0, 0x11F50, 0x16A60, 0x16AC0, 0x16B50,
    0x1D7CE, 0x1D7D8, 0x1D7E2, 0x1D7EC, 0x1D7F6, 0x1E140, 0x1E2F0, 0x1E4D0, 0x1E950, 0x1FBF0]

/-- The value of a decimal digit. -/
def digitValue (c : Char) : Option ℕ :=
  (decimalZeros.find? fun start => start ≤ c.toNat && c.toNat < start + 10).map fun start =>
    c.toNat - start

/-- `\d`. -/
def isDecimalDigit (c : Char) : Bool := (digitValue c).isSome

/-- The number some digits write. -/
def digitsValue (digits : List Char) : ℕ :=
  digits.foldl (fun n c => 10 * n + (digitValue c).getD 0) 0

/-- `Decimal`. -/
inductive PyDecimal where
  | finite (negative : Bool) (coefficient : ℕ) (exponent : ℤ)
  | infinite (negative : Bool)
  | nan
  deriving DecidableEq

namespace PyDecimal

/-- The sign of a number and what follows it. -/
def splitSign : List Char → Bool × List Char
  | '-' :: rest => (true, rest)
  | '+' :: rest => (false, rest)
  | text => (false, text)

/-- The digits in front, and what follows them. -/
def splitDigits (text : List Char) : List Char × List Char :=
  (text.takeWhile isDecimalDigit, text.dropWhile isDecimalDigit)

/-- The digits behind a point, and what follows them. -/
def splitFraction : List Char → List Char × List Char
  | '.' :: rest => splitDigits rest
  | text => ([], text)

/-- The exponent at the end of a number. -/
def readExponent : List Char → Option ℤ
  | [] => some 0
  | e :: rest =>
    let (negative, digits) := splitSign rest
    if (e = 'e' || e = 'E') && !digits.isEmpty && digits.all isDecimalDigit then
      some (if negative then -digitsValue digits else digitsValue digits)
    else none

/-- A text names a signalling or a quiet NaN. -/
def isNanText (lowered : List Char) : Bool :=
  ["nan", "snan"].any fun name =>
    name.toList.isPrefixOf lowered && (lowered.drop name.toList.length).all isDecimalDigit

/-- `Decimal(value)`; none is `InvalidOperation`. -/
def ofText (value : String) : Option PyDecimal :=
  let (negative, text) := splitSign ((strip value).toList.filter (· ≠ '_'))
  let lowered := text.map Char.toLower
  if lowered = "inf".toList ∨ lowered = "infinity".toList then some (.infinite negative)
  else if isNanText lowered then some .nan
  else
    let (whole, rest) := splitDigits text
    let (fraction, rest) := splitFraction rest
    if whole.isEmpty && fraction.isEmpty then none
    else (readExponent rest).map fun exponent =>
      .finite negative (digitsValue (whole ++ fraction)) (exponent - fraction.length)

/-- The precision of the default context. -/
def precision : ℕ := 28

/-- A coefficient without its last digits, rounded half to even. -/
def roundHalfEven (coefficient dropped : ℕ) : ℕ :=
  let quotient := coefficient / 10 ^ dropped
  let rest := coefficient % 10 ^ dropped
  if 10 ^ dropped < 2 * rest || (2 * rest = 10 ^ dropped && quotient % 2 = 1) then quotient + 1
  else quotient

/-- `number * Decimal(multiplier)`. -/
def mul (multiplier : ℕ) : PyDecimal → PyDecimal
  | .finite negative coefficient exponent =>
    let product := coefficient * multiplier
    let dropped := (Nat.toDigits 10 product).length - precision
    .finite negative (roundHalfEven product dropped) (exponent + dropped)
  | .infinite negative => .infinite negative
  | .nan => .nan

/-- `int(number)`; none is the exception of an infinite number or a NaN. -/
def toInt : PyDecimal → Option ℤ
  | .finite negative coefficient exponent =>
    let magnitude : ℤ := if 0 ≤ exponent then coefficient * 10 ^ exponent.toNat
      else coefficient / 10 ^ (-exponent).toNat
    some (if negative then -magnitude else magnitude)
  | _ => none

/-! ### Digits -/

theorem digitValue_of_isDigit {c : Char} (h : c.isDigit = true) :
    digitValue c = some (c.toNat - '0'.toNat) := by
  obtain ⟨hlow, hhigh⟩ : 48 ≤ c.toNat ∧ c.toNat ≤ 57 := by
    simpa [Char.isDigit, UInt32.le_iff_toNat_le, ge_iff_le] using h
  have hzero : decimalZeros.find? (fun start => start ≤ c.toNat && c.toNat < start + 10) = some 48 := by
    rw [decimalZeros, List.find?_cons_of_pos]
    simp
    omega
  simp [digitValue, hzero]

theorem isDecimalDigit_of_isDigit {c : Char} (h : c.isDigit = true) : isDecimalDigit c = true := by
  simp [isDecimalDigit, digitValue_of_isDigit h]

theorem digitsValue_eq_ofDigitChars {digits : List Char} (h : ∀ c ∈ digits, c.isDigit = true) :
    digitsValue digits = Nat.ofDigitChars 10 digits 0 := by
  rw [digitsValue, Nat.ofDigitChars_eq_foldl]
  suffices hfold : ∀ n, digits.foldl (fun n c => 10 * n + (digitValue c).getD 0) n
      = digits.foldl (fun sofar c => 10 * sofar + (c.toNat - '0'.toNat)) n from hfold 0
  induction digits with
  | nil => exact fun _ => rfl
  | cons c rest ih =>
    intro n
    simp only [List.foldl_cons, digitValue_of_isDigit (h c List.mem_cons_self), Option.getD_some]
    exact ih (fun d hd => h d (List.mem_cons_of_mem _ hd)) _

/-- The digits of a number write it. -/
theorem digitsValue_toDigits (n : ℕ) : digitsValue (Nat.toDigits 10 n) = n := by
  rw [digitsValue_eq_ofDigitChars fun c hc => Nat.isDigit_of_mem_toDigits (by decide) (by decide) hc]
  exact Nat.ofDigitChars_ten_toDigits

theorem digitsValue_append_singleton (digits : List Char) (c : Char) :
    digitsValue (digits ++ [c]) = 10 * digitsValue digits + (digitValue c).getD 0 := by
  simp [digitsValue]

theorem digitValue_lt {c : Char} {n : ℕ} (h : digitValue c = some n) : n < 10 := by
  obtain ⟨start, hfind, rfl⟩ := Option.map_eq_some_iff.mp h
  have hrange := List.find?_some hfind
  simp only [Bool.and_eq_true, decide_eq_true_eq] at hrange
  omega

/-- A number of so many digits is smaller than the power. -/
theorem digitsValue_lt (digits : List Char) : digitsValue digits < 10 ^ digits.length := by
  induction digits using List.reverseRecOn with
  | nil => simp [digitsValue]
  | append_singleton digits c ih =>
    have hc : (digitValue c).getD 0 < 10 := by
      cases hvalue : digitValue c with
      | none => simp
      | some n => simpa using digitValue_lt hvalue
    rw [digitsValue_append_singleton, List.length_append, List.length_singleton, Nat.pow_succ]
    omega

theorem splitDigits_append {digits : List Char} (h : ∀ c ∈ digits, isDecimalDigit c = true)
    (rest : List Char) (hrest : ∀ c ∈ rest.head?, isDecimalDigit c = false) :
    splitDigits (digits ++ rest) = (digits, rest) := by
  have htake : rest.takeWhile isDecimalDigit = [] ∧ rest.dropWhile isDecimalDigit = rest := by
    rcases rest with - | ⟨c, rest⟩
    · simp
    · simp [hrest c rfl]
  rw [splitDigits, List.takeWhile_append_of_pos h, List.dropWhile_append_of_pos h, htake.1, htake.2,
    List.append_nil]

/-! ### Numbers without sign and exponent -/

/-- The codes that mean something else than a digit where numbers are read: whitespace, separators,
    signs and the letters of the special values. -/
def isOtherCode (n : ℕ) : Bool :=
  (9 ≤ n && n ≤ 13) || (28 ≤ n && n ≤ 32) ||
    n ∈ [0x85, 0xA0, 0x1680, 0x2028, 0x2029, 0x202F, 0x205F, 0x3000] ||
    (0x2000 ≤ n && n ≤ 0x200A) || n ∈ [43, 44, 45, 46, 95, 105, 110, 115] || (65 ≤ n && n ≤ 90)

theorem not_isOtherCode_digits : ∀ start ∈ decimalZeros, ∀ k < 10,
    isOtherCode (start + k) = false := by
  decide +kernel

theorem not_isOtherCode {c : Char} (h : isDecimalDigit c = true) : isOtherCode c.toNat = false := by
  unfold isDecimalDigit digitValue at h
  rw [Option.isSome_map] at h
  obtain ⟨start, hfind⟩ := Option.isSome_iff_exists.mp h
  have hrange := List.find?_some hfind
  simp only [Bool.and_eq_true, decide_eq_true_eq] at hrange
  have hcode := not_isOtherCode_digits start (List.mem_of_find?_eq_some hfind) (c.toNat - start)
    (by omega)
  rwa [Nat.add_sub_cancel' hrange.1] at hcode

/-- A character with another code is no digit. -/
theorem ne_of_isDecimalDigit {c d : Char} (h : isDecimalDigit c = true)
    (hd : isOtherCode d.toNat = true) : c ≠ d := by
  rintro rfl
  rw [not_isOtherCode h] at hd
  cases hd

theorem isSpace_of_isDecimalDigit {c : Char} (h : isDecimalDigit c = true) : isSpace c = false := by
  have hcode := not_isOtherCode h
  unfold isOtherCode at hcode
  simp only [Bool.or_eq_false_iff] at hcode
  unfold isSpace
  simp only [Bool.or_eq_false_iff]
  exact hcode.1.1

theorem toLower_of_isDecimalDigit {c : Char} (h : isDecimalDigit c = true) : c.toLower = c := by
  have hcode := not_isOtherCode h
  unfold isOtherCode at hcode
  simp only [Bool.or_eq_false_iff, Bool.and_eq_false_iff, decide_eq_false_iff_not] at hcode
  unfold Char.toLower
  rw [dif_neg]
  rintro ⟨hlow, hhigh⟩
  have hA : 'A'.val.toNat = 65 := rfl
  have hZ : 'Z'.val.toNat = 90 := rfl
  have hc : c.val.toNat = c.toNat := rfl
  simp only [ge_iff_le, UInt32.le_iff_toNat_le] at hlow hhigh
  omega

theorem isSpace_of_isDigit {c : Char} (h : c.isDigit = true) : isSpace c = false :=
  isSpace_of_isDecimalDigit (isDecimalDigit_of_isDigit h)

theorem toLower_of_isDigit {c : Char} (h : c.isDigit = true) : c.toLower = c :=
  toLower_of_isDecimalDigit (isDecimalDigit_of_isDigit h)

/-- Digits, with or without a point and more digits behind it. -/
theorem ofText_of_digits {head rest : List Char} (hne : head ≠ [])
    (hhead : ∀ c ∈ head, isDecimalDigit c = true)
    (hrest : ∀ c ∈ rest, c = '.' ∨ isDecimalDigit c = true)
    (hstart : ∀ c ∈ rest.head?, isDecimalDigit c = false) :
    ofText (String.ofList (head ++ rest)) =
      (readExponent (splitFraction rest).2).map fun exponent =>
        .finite false (digitsValue (head ++ (splitFraction rest).1))
          (exponent - (splitFraction rest).1.length) := by
  have hall : ∀ c ∈ head ++ rest, c = '.' ∨ isDecimalDigit c = true := fun c hc =>
    (List.mem_append.mp hc).elim (fun h => .inr (hhead c h)) (hrest c)
  have hspace : ∀ c ∈ head ++ rest, isSpace c = false := by
    intro c hc
    rcases hall c hc with rfl | hdigit
    · rfl
    · exact isSpace_of_isDecimalDigit hdigit
  have hstrip : strip (String.ofList (head ++ rest)) = String.ofList (head ++ rest) :=
    strip_ofList (fun c hc => hspace c (List.mem_of_mem_head? hc))
      fun c hc => hspace c (List.mem_of_getLast? hc)
  have hfilter : (head ++ rest).filter (· ≠ '_') = head ++ rest := by
    refine List.filter_eq_self.mpr fun c hc => ?_
    rcases hall c hc with rfl | hdigit
    · rfl
    · simpa using ne_of_isDecimalDigit hdigit (d := '_') (by decide)
  have hsplit := splitDigits_append hhead rest hstart
  obtain ⟨c, more, rfl⟩ := List.exists_cons_of_ne_nil hne
  have hc : isDecimalDigit c = true := hhead c List.mem_cons_self
  have hname : ∀ d, isOtherCode d.toNat = true → c ≠ d := fun d => ne_of_isDecimalDigit hc
  have hsign : splitSign (c :: more ++ rest) = (false, c :: more ++ rest) := by
    rw [splitSign.eq_def]
    split
    · next heq => exact absurd (List.cons.inj heq).1 (hname '-' (by decide))
    · next heq => exact absurd (List.cons.inj heq).1 (hname '+' (by decide))
    · rfl
  have hinf := hname 'i' (by decide)
  have hnan := hname 'n' (by decide)
  have hsnan := hname 's' (by decide)
  simp only [ofText, hstrip, String.toList_ofList, hfilter, hsign, hsplit]
  simp [toLower_of_isDecimalDigit hc, isNanText, hinf, hnan.symm, hsnan.symm]

end PyDecimal

end Bisakerja
