import BisakerjaScraper.Core.Errors
import BisakerjaScraper.Python.Decimal
import Mathlib.Data.Nat.Size

/-! Integers as the sources send them: read from texts, and divided. -/

namespace Bisakerja

/-- The code points, first and last, of the digits `str.isdigit` accepts beyond the decimal ones:
    superscripts, subscripts, circled digits and the like. -/
def otherDigits : List (ℕ × ℕ) :=
  [(0xB2, 0xB3), (0xB9, 0xB9), (0x1369, 0x1371), (0x19DA, 0x19DA), (0x2070, 0x2070),
    (0x2074, 0x2079), (0x2080, 0x2089), (0x2460, 0x2468), (0x2474, 0x247C), (0x2488, 0x2490),
    (0x24EA, 0x24EA), (0x24F5, 0x24FD), (0x24FF, 0x24FF), (0x2776, 0x277E), (0x2780, 0x2788),
    (0x278A, 0x2792), (0x10A40, 0x10A43), (0x10E60, 0x10E68), (0x11052, 0x1105A),
    (0x1F100, 0x1F10A)]

/-- `s.isdigit()`. -/
def isDigitText (s : String) : Bool :=
  s ≠ "" && s.toList.all fun c =>
    isDecimalDigit c || otherDigits.any fun range => range.1 ≤ c.toNat && c.toNat ≤ range.2

/-- `int(s)`, none where it raises a `ValueError`: single underscores may separate the digits, and
    there are at most 4300 of them. -/
def intOfText (s : String) : Option ℤ :=
  let (negative, digits) := PyDecimal.splitSign (strip s).toList
  let groups := digits.splitOn '_'
  if groups.all (fun group => group ≠ [] && group.all isDecimalDigit) &&
      groups.flatten.length ≤ 4300 then
    some (if negative then -(digitsValue groups.flatten : ℤ) else digitsValue groups.flatten)
  else none

/-- `n / d` rounded to the nearest integer, a tie to the even one. -/
def roundHalfEven (n d : ℕ) : ℕ :=
  if 2 * (n % d) < d ∨ (2 * (n % d) = d ∧ n / d % 2 = 0) then n / d else n / d + 1

/-- `ceil(n / d)`: the quotient is a float of 53 bits. -/
def ceilTrueDiv (n d : ℕ) : Except PyException ℕ :=
  if d = 0 then .error (.plain "ZeroDivisionError" "division by zero")
  else
    let bits := (n / d).size
    if bits ≤ 53 then
      let scale := 2 ^ (53 - bits)
      .ok ((roundHalfEven (n * scale) d + (scale - 1)) / scale)
    else
      let scale := 2 ^ (bits - 53)
      let quotient := roundHalfEven n (d * scale) * scale
      if quotient < 2 ^ 1024 then .ok quotient
      else .error (.plain "OverflowError" "integer division result too large for a float")

/-! ### Where the quotient is exact enough -/

theorem roundHalfEven_of_dvd {n d : ℕ} (hd : 0 < d) (h : n % d = 0) : roundHalfEven n d = n / d := by
  unfold roundHalfEven
  rw [h, if_pos (.inl (by omega))]

theorem roundHalfEven_le (n d : ℕ) : roundHalfEven n d ≤ n / d + 1 := by
  unfold roundHalfEven
  split <;> omega

theorem roundHalfEven_ge (n d : ℕ) : n / d ≤ roundHalfEven n d := by
  unfold roundHalfEven
  split <;> omega

/-- More than half is rounded up. -/
theorem roundHalfEven_of_lt {n d : ℕ} (h : d < 2 * (n % d)) : roundHalfEven n d = n / d + 1 := by
  unfold roundHalfEven
  rw [if_neg]
  omega

theorem mul_add_div_of_lt {d r : ℕ} (k : ℕ) (h : r < d) : (d * k + r) / d = k := by
  rw [Nat.mul_add_div (by omega), Nat.div_eq_of_lt h, Nat.add_zero]

/-- The bits of the quotient leave room for what is behind the point. -/
theorem lt_scale {n d : ℕ} (hn : n ≤ 2 ^ 53) (hd : d ≤ 2 ^ 53) (hmod : 0 < n % d)
    (hbits : (n / d).size ≤ 53) : d < 2 * 2 ^ (53 - (n / d).size) := by
  have hsplit := Nat.div_add_mod n d
  rcases Nat.eq_zero_or_pos (n / d).size with hzero | hpos
  · rw [hzero]
    omega
  · have hlarge : 2 ^ ((n / d).size - 1) ≤ n / d := Nat.lt_size.mp (by omega)
    have hpow : 2 ^ 53 = 2 * 2 ^ (53 - (n / d).size) * 2 ^ ((n / d).size - 1) := by
      rw [← Nat.pow_succ', ← Nat.pow_add]
      congr 1
      omega
    have hmul : d * 2 ^ ((n / d).size - 1) ≤ d * (n / d) := Nat.mul_le_mul_left d hlarge
    refine Nat.lt_of_mul_lt_mul_right (a := 2 ^ ((n / d).size - 1)) ?_
    omega

/-- Up to `2 ^ 53` the quotient is rounded to no wrong side of an integer. -/
theorem ceilTrueDiv_eq {n d : ℕ} (hd : 0 < d) (hn : n ≤ 2 ^ 53) (hd' : d ≤ 2 ^ 53) :
    ceilTrueDiv n d = .ok ((n + d - 1) / d) := by
  have hsplit := Nat.div_add_mod n d
  have hlt := Nat.mod_lt n hd
  rcases Nat.eq_zero_or_pos (n % d) with hzero | hpos
  · have hceil : (n + d - 1) / d = n / d := by
      conv_lhs => rw [← hsplit, hzero, Nat.add_zero, Nat.add_sub_assoc hd]
      exact mul_add_div_of_lt _ (by omega)
    rw [hceil]
    unfold ceilTrueDiv
    rw [if_neg (by omega)]
    dsimp only
    split
    · next hbits =>
      have hscale : 0 < 2 ^ (53 - (n / d).size) := Nat.two_pow_pos _
      generalize 2 ^ (53 - (n / d).size) = scale at hscale ⊢
      have hmod : n * scale % d = 0 := by
        rw [Nat.mul_mod, hzero, Nat.zero_mul, Nat.zero_mod]
      have hdvd : d ∣ n := Nat.dvd_of_mod_eq_zero hzero
      rw [roundHalfEven_of_dvd hd hmod, Nat.mul_comm, Nat.mul_div_assoc _ hdvd]
      exact congrArg Except.ok (mul_add_div_of_lt _ (by omega))
    · next hbits =>
      have hlarge : 2 ^ 53 ≤ n / d := Nat.lt_size.mp (by omega)
      have hle : n / d ≤ n := Nat.div_le_self n d
      have hn' : n = 2 ^ 53 := by omega
      have hquot : n / d = 2 ^ 53 := by omega
      have hone : d = 1 := by
        rw [hzero, hquot, hn', Nat.add_zero] at hsplit
        omega
      have hround : roundHalfEven (2 ^ 53) (1 * 2 ^ (53 + 1 - 53)) = 2 ^ 52 := by decide
      have hback : 2 ^ 52 * 2 ^ (53 + 1 - 53) = 2 ^ 53 := by decide
      have hlimit : 53 < 1024 := by decide
      rw [hquot, hn', hone, Nat.size_pow, hround, hback]
      generalize 1024 = exponent at hlimit ⊢
      exact if_pos (Nat.pow_lt_pow_right (by decide) hlimit)
  · have hceil : (n + d - 1) / d = n / d + 1 := by
      have hshift : n + d - 1 = d * (n / d + 1) + (n % d - 1) := by
        rw [Nat.mul_add, Nat.mul_one]
        omega
      rw [hshift]
      exact mul_add_div_of_lt _ (by omega)
    have hsmall : n / d < 2 ^ 53 := by
      have hmul : n / d ≤ d * (n / d) := Nat.le_mul_of_pos_left _ hd
      omega
    have hbits : (n / d).size ≤ 53 := Nat.size_le.mpr hsmall
    have hroom := lt_scale hn hd' hpos hbits
    rw [hceil]
    unfold ceilTrueDiv
    rw [if_neg (by omega)]
    dsimp only
    rw [if_pos hbits]
    generalize 2 ^ (53 - (n / d).size) = scale at hroom
    have hscaled : n * scale = d * (n / d * scale) + n % d * scale := by
      conv_lhs => rw [← hsplit, Nat.add_mul, Nat.mul_assoc]
    have hdiv : n * scale / d = n / d * scale + n % d * scale / d := by
      rw [hscaled, Nat.mul_add_div hd]
    have hmod : n * scale % d = n % d * scale % d := by
      rw [hscaled, Nat.mul_add_mod]
    have hbelow : n % d * scale / d < scale := by
      rw [Nat.div_lt_iff_lt_mul hd, Nat.mul_comm scale]
      exact Nat.mul_lt_mul_of_pos_right hlt (by omega)
    have hupper : roundHalfEven (n * scale) d ≤ n / d * scale + scale := by
      have hle := roundHalfEven_le (n * scale) d
      omega
    have hlower : n / d * scale < roundHalfEven (n * scale) d := by
      rcases Nat.eq_zero_or_pos (n % d * scale / d) with hfrac | hfrac
      · have hrest : n % d * scale % d = n % d * scale :=
          Nat.mod_eq_of_lt ((Nat.div_eq_zero_iff_lt hd).mp hfrac)
        have hpart : scale ≤ n % d * scale := Nat.le_mul_of_pos_left _ hpos
        rw [roundHalfEven_of_lt (by omega)]
        omega
      · have hge := roundHalfEven_ge (n * scale) d
        omega
    refine congrArg Except.ok (Nat.div_eq_of_lt_le ?_ ?_)
    · rw [Nat.add_mul]
      omega
    · rw [Nat.add_mul, Nat.add_mul]
      omega

/-- Whatever the sizes, a quotient that comes out small is not rounded below the whole part. -/
theorem div_le_of_ceilTrueDiv {n d quotient : ℕ} (h : ceilTrueDiv n d = .ok quotient)
    (hsmall : quotient < 2 ^ 53) : n / d ≤ quotient := by
  unfold ceilTrueDiv at h
  split at h
  · cases h
  · dsimp only at h
    split at h
    · next hbits =>
      cases h
      have hscale : 0 < 2 ^ (53 - (n / d).size) := Nat.two_pow_pos _
      generalize 2 ^ (53 - (n / d).size) = scale at hscale
      have hround := roundHalfEven_ge (n * scale) d
      calc n / d = n * scale / d / scale := by
            rw [Nat.div_div_eq_div_mul, Nat.mul_div_mul_right _ _ hscale]
        _ ≤ (roundHalfEven (n * scale) d + (scale - 1)) / scale := Nat.div_le_div_right (by omega)
    · next hbits =>
      split at h
      · cases h
        exfalso
        have hlarge : 2 ^ ((n / d).size - 1) ≤ n / d := Nat.lt_size.mp (by omega)
        have hround := roundHalfEven_ge n (d * 2 ^ ((n / d).size - 53))
        have hsplit : 2 ^ ((n / d).size - 1) = 2 ^ 52 * 2 ^ ((n / d).size - 53) := by
          rw [← Nat.pow_add]
          congr 1
          omega
        have htwo : 2 ^ 1 ≤ 2 ^ ((n / d).size - 53) := Nat.pow_le_pow_right (by decide) (by omega)
        have hquot : 2 ^ 52 ≤ n / (d * 2 ^ ((n / d).size - 53)) := by
          rw [← Nat.div_div_eq_div_mul, Nat.le_div_iff_mul_le (by omega), ← hsplit]
          exact hlarge
        have hmul := Nat.mul_le_mul (hquot.trans hround) htwo
        omega
      · cases h

end Bisakerja
