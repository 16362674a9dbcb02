import BisakerjaScraper.Python.Decimal
import BisakerjaScraper.Python.Json
import BisakerjaScraper.Schemes.Codes

/-! `json.dumps` of a flat dict, with the separators `,` and `:`.

    What is written can be read back: a text ends at its quote, which is escaped within, and a
    number at the comma or the brace behind it. So two dicts with one text are equal. -/

namespace Bisakerja
open Schemes

/-- A value of a flat dict. -/
inductive Cell where
  | text (s : String)
  | int (n : ℤ)
  | float (x : PyFloat)

/-- `float.__repr__`, with `NaN` and `Infinity`: a float is written with a point, an exponent or a
    letter, so its text is no integer and tells it apart. -/
structure FloatRepr where
  repr : PyFloat → String
  injective : Function.Injective repr
  ne_int : ∀ x (n : ℤ), repr x ≠ toString n
  bare : ∀ x, ∀ c ∈ (repr x).toList, c ∉ ['"', ',', '}']

/-! ### Texts -/

/-- The characters with an escape of one letter. -/
def shortEscapes : List (Char × Char) :=
  [('"', '"'), ('\\', '\\'), ('\n', 'n'), ('\r', 'r'), ('\t', 't'), ('\x0c', 'f'), ('\x08', 'b')]

/-- The letter that stands for a character behind a backslash. -/
def shortEscape (c : Char) : Option Char :=
  (shortEscapes.find? fun entry => entry.1 = c).map Prod.snd

/-- Four hexadecimal digits. -/
def hexUnit (n : ℕ) : List Char :=
  [n / 4096 % 16, n / 256 % 16, n / 16 % 16, n % 16].map Nat.digitChar

/-- `\uXXXX`. -/
def unitEscape (n : ℕ) : List Char := '\\' :: 'u' :: hexUnit n

/-- The UTF-16 units of a character. -/
def utf16 (c : Char) : List ℕ :=
  if c.toNat < 0x10000 then [c.toNat]
  else [0xD800 + (c.toNat - 0x10000) / 0x400, 0xDC00 + (c.toNat - 0x10000) % 0x400]

/-- A character as `ensure_ascii` writes it. -/
def escapeAscii (c : Char) : List Char :=
  match shortEscape c with
  | some letter => ['\\', letter]
  | none => if ' ' ≤ c ∧ c ≤ '~' then [c] else (utf16 c).flatMap unitEscape

/-- A quoted text. -/
def quote (s : String) : List Char := '"' :: closed escapeAscii '"' s.toList

/-! ### Dicts -/

section Dumps

variable (floats : FloatRepr)

/-- A value. -/
def Cell.dump : Cell → List Char
  | .text s => quote s
  | .int n => (toString n).toList
  | .float x => (floats.repr x).toList

/-- An entry. -/
def dumpEntry (entry : String × Cell) : List Char :=
  quote entry.1 ++ ':' :: entry.2.dump floats

/-- `json.dumps(payload, separators=(",", ":"))`. -/
def dumps (payload : List (String × Cell)) : String :=
  String.ofList ('{' :: match payload with
    | [] => ['}']
    | entry :: entries => dumpEntry floats entry ++ separated (dumpEntry floats) ',' '}' entries)

end Dumps

/-! ### Reading back a character -/

theorem mem_shortEscapes {c letter : Char} (h : shortEscape c = some letter) :
    (c, letter) ∈ shortEscapes := by
  obtain ⟨⟨c', letter'⟩, hfind, rfl⟩ := Option.map_eq_some_iff.mp h
  have hc : c' = c := by simpa using List.find?_some hfind
  rw [← hc]
  exact List.mem_of_find?_eq_some hfind

theorem shortEscapes_inj : ∀ e ∈ shortEscapes, ∀ e' ∈ shortEscapes, e.2 = e'.2 → e = e' := by
  decide

theorem shortEscapes_ne_unit : ∀ e ∈ shortEscapes, e.2 ≠ 'u' := by decide

/-- The three ways a character is written. -/
theorem escapeAscii_cases (c : Char) :
    (∃ letter, (c, letter) ∈ shortEscapes ∧ escapeAscii c = ['\\', letter]) ∨
    (c ≠ '\\' ∧ c ≠ '"' ∧ escapeAscii c = [c]) ∨
    escapeAscii c = (utf16 c).flatMap unitEscape := by
  unfold escapeAscii
  cases hshort : shortEscape c with
  | some letter => exact .inl ⟨letter, mem_shortEscapes hshort, rfl⟩
  | none =>
    dsimp only
    split
    · refine .inr (.inl ⟨?_, ?_, rfl⟩)
      · rintro rfl
        cases hshort
      · rintro rfl
        cases hshort
    · exact .inr (.inr rfl)

theorem digitChar_inj : ∀ a < 16, ∀ b < 16, Nat.digitChar a = Nat.digitChar b → a = b := by decide

theorem hexUnit_inj {m n : ℕ} (hm : m < 0x10000) (hn : n < 0x10000) (h : hexUnit m = hexUnit n) :
    m = n := by
  simp only [hexUnit, List.map_cons, List.map_nil, List.cons.injEq, and_true] at h
  obtain ⟨h1, h2, h3, h4⟩ := h
  have h1 := digitChar_inj _ (by omega) _ (by omega) h1
  have h2 := digitChar_inj _ (by omega) _ (by omega) h2
  have h3 := digitChar_inj _ (by omega) _ (by omega) h3
  have h4 := digitChar_inj _ (by omega) _ (by omega) h4
  omega

/-- A unit in front of a text is read back. -/
theorem unitEscape_append_inj {m n : ℕ} {x y : List Char} (hm : m < 0x10000) (hn : n < 0x10000)
    (h : unitEscape m ++ x = unitEscape n ++ y) : m = n ∧ x = y := by
  obtain ⟨hword, hrest⟩ := List.append_inj h rfl
  exact ⟨hexUnit_inj hm hn (List.cons.inj (List.cons.inj hword).2).2, hrest⟩

/-- No character is a surrogate, and all are below `0x110000`. -/
theorem char_range (c : Char) : c.toNat < 0xD800 ∨ 0xDFFF < c.toNat ∧ c.toNat < 0x110000 := c.valid

/-- The units in front of a text are read back. -/
theorem utf16_append_inj {c d : Char} {x y : List Char}
    (h : (utf16 c).flatMap unitEscape ++ x = (utf16 d).flatMap unitEscape ++ y) :
    c = d ∧ x = y := by
  have hc := char_range c
  have hd := char_range d
  suffices hnat : c.toNat = d.toNat ∧ x = y from ⟨Char.toNat_inj.mp hnat.1, hnat.2⟩
  unfold utf16 at h
  split at h <;> split at h
  all_goals
    simp only [List.flatMap_cons, List.flatMap_nil, List.append_nil, List.append_assoc] at h
    obtain ⟨hfirst, h⟩ := unitEscape_append_inj (by omega) (by omega) h
  · exact ⟨hfirst, h⟩
  · omega
  · omega
  · obtain ⟨hsecond, h⟩ := unitEscape_append_inj (by omega) (by omega) h
    exact ⟨by omega, h⟩

/-- The escape of a unit begins with a backslash and a `u`. -/
theorem utf16_front (c : Char) : ∃ w, (utf16 c).flatMap unitEscape = '\\' :: 'u' :: w := by
  unfold utf16
  split <;> exact ⟨_, rfl⟩

theorem readable_escapeAscii : Readable escapeAscii Anything := by
  have huvw : ∀ {c : Char} {letter : Char} {d : Char} {x y : List Char},
      (c, letter) ∈ shortEscapes → ['\\', letter] ++ x ≠ (utf16 d).flatMap unitEscape ++ y := by
    intro c letter d x y hmem heq
    obtain ⟨w, hw⟩ := utf16_front d
    rw [hw] at heq
    exact shortEscapes_ne_unit _ hmem (List.cons.inj (List.cons.inj heq).2).1
  have hplain : ∀ {c d : Char} {x y : List Char}, c ≠ '\\' →
      [c] ++ x ≠ (utf16 d).flatMap unitEscape ++ y := by
    intro c d x y hc heq
    obtain ⟨w, hw⟩ := utf16_front d
    rw [hw] at heq
    exact hc (List.cons.inj heq).1
  intro c d x y _ _ heq
  rcases escapeAscii_cases c with ⟨letter, hc, hcode⟩ | ⟨hc, -, hcode⟩ | hcode <;>
    rcases escapeAscii_cases d with ⟨letter', hd, hcode'⟩ | ⟨hd, -, hcode'⟩ | hcode' <;>
    rw [hcode, hcode'] at heq
  · obtain ⟨hletter, hrest⟩ := List.cons.inj (List.cons.inj heq).2
    have hentry := shortEscapes_inj _ hc _ hd hletter
    exact ⟨congrArg Prod.fst hentry, hrest⟩
  · exact absurd (List.cons.inj heq).1.symm hd
  · exact absurd heq (huvw hc)
  · exact absurd (List.cons.inj heq).1 hc
  · exact ⟨(List.cons.inj heq).1, (List.cons.inj heq).2⟩
  · exact absurd heq (hplain hc)
  · exact absurd heq.symm (huvw hd)
  · exact absurd heq.symm (hplain hd)
  · exact utf16_append_inj heq

/-! ### Reading back a dict -/

theorem readable_quote : Readable quote Anything := by
  have hclosed : Readable (closed escapeAscii '"') Anything := by
    refine readable_escapeAscii.closed fun c => ?_
    rcases escapeAscii_cases c with ⟨letter, -, hcode⟩ | ⟨-, hc, hcode⟩ | hcode
    · exact ⟨'\\', _, by decide, hcode⟩
    · exact ⟨c, _, hc, hcode⟩
    · obtain ⟨w, hw⟩ := utf16_front c
      exact ⟨'\\', _, by decide, hcode.trans hw⟩
  intro s s' x y _ _ heq
  obtain ⟨htext, hrest⟩ := hclosed .intro .intro (List.cons.inj heq).2
  exact ⟨String.toList_inj.mp htext, hrest⟩

/-- An integer is written in digits, behind a sign when it is negative. -/
theorem mem_toString_int {n : ℤ} {c : Char} (h : c ∈ (toString n).toList) :
    c = '-' ∨ c.isDigit = true := by
  have hdigits : ∀ {k : ℕ}, c ∈ k.repr.toList → c.isDigit = true := by
    intro k hc
    rw [Nat.toList_repr] at hc
    exact Nat.isDigit_of_mem_toDigits (by decide) (by decide) hc
  change c ∈ (Int.repr n).toList at h
  rw [Int.repr_eq_if] at h
  split at h
  · exact .inr (hdigits h)
  · rw [String.toList_append, List.mem_append] at h
    rcases h with h | h
    · exact .inl (by simpa using h)
    · exact .inr (hdigits h)

theorem toString_int_free {letters : List Char}
    (h : ∀ c ∈ letters, c ≠ '-' ∧ c.isDigit = false) (n : ℤ) :
    ∀ c ∈ (toString n).toList, c ∉ letters := by
  intro c hc hletter
  obtain ⟨hsign, hdigit⟩ := h c hletter
  rcases mem_toString_int hc with rfl | hc
  · exact hsign rfl
  · rw [hdigit] at hc
    cases hc

theorem repr_nat_inj {m n : ℕ} (h : m.repr = n.repr) : m = n := by
  have hdigits := congrArg (fun s => digitsValue s.toList) h
  simpa only [Nat.toList_repr, PyDecimal.digitsValue_toDigits] using hdigits

theorem toString_int_inj {m n : ℤ} (h : toString m = toString n) : m = n := by
  have hsign : ∀ {k l : ℕ}, k.repr ≠ "-" ++ l.repr := by
    intro k l heq
    have hmem : '-' ∈ k.repr.toList := by
      rw [heq, String.toList_append]
      exact List.mem_append_left _ List.mem_cons_self
    rw [Nat.toList_repr] at hmem
    exact absurd (Nat.isDigit_of_mem_toDigits (by decide) (by decide) hmem) (by decide)
  change Int.repr m = Int.repr n at h
  rw [Int.repr_eq_if, Int.repr_eq_if] at h
  split at h <;> split at h
  · have hnat := repr_nat_inj h
    omega
  · exact absurd h hsign
  · exact absurd h.symm hsign
  · have htail : (-m).toNat.repr = (-n).toNat.repr := by simpa using h
    have hnat := repr_nat_inj htail
    omega

variable {floats : FloatRepr}

/-- The text of a number has no quote, comma or brace. -/
theorem Cell.dump_bare {cell : Cell} (h : ∀ s, cell ≠ .text s) :
    ∀ c ∈ cell.dump floats, c ∉ ['"', ',', '}'] := by
  intro c hc
  rcases cell with s | n | x
  · exact absurd rfl (h s)
  · exact toString_int_free (forall_mem_of_all (by decide)) n c hc
  · exact floats.bare x c hc

/-- The text of a number tells it apart. -/
theorem Cell.dump_inj {cell cell' : Cell} (h : ∀ s, cell ≠ .text s) (h' : ∀ s, cell' ≠ .text s)
    (heq : cell.dump floats = cell'.dump floats) : cell = cell' := by
  rcases cell with s | n | x
  · exact absurd rfl (h s)
  · rcases cell' with s | m | y
    · exact absurd rfl (h' s)
    · exact congrArg Cell.int (toString_int_inj (String.toList_inj.mp heq))
    · exact absurd (String.toList_inj.mp heq).symm (floats.ne_int y n)
  · rcases cell' with s | m | y
    · exact absurd rfl (h' s)
    · exact absurd (String.toList_inj.mp heq) (floats.ne_int x m)
    · exact congrArg Cell.float (floats.injective (String.toList_inj.mp heq))

/-- A value is read back up to the comma or the brace behind it. -/
theorem readable_dump : Readable (Cell.dump floats) (Begins [',', '}']) := by
  have hquote : ∀ {cell : Cell} {s : String} {x y : List Char}, (∀ s, cell ≠ .text s) →
      Begins [',', '}'] x → cell.dump floats ++ x ≠ quote s ++ y := by
    intro cell s x y hcell hx
    refine ne_of_begins (fun c hc => ?_) (by decide) hx
    rintro rfl
    exact Cell.dump_bare hcell _ hc List.mem_cons_self
  intro a b x y hx hy heq
  by_cases ha : ∃ s, a = .text s <;> by_cases hb : ∃ s, b = .text s
  · obtain ⟨s, rfl⟩ := ha
    obtain ⟨s', rfl⟩ := hb
    obtain ⟨rfl, hrest⟩ := readable_quote .intro .intro heq
    exact ⟨rfl, hrest⟩
  · obtain ⟨s, rfl⟩ := ha
    exact absurd heq.symm (hquote (not_exists.mp hb) hy)
  · obtain ⟨s, rfl⟩ := hb
    exact absurd heq (hquote (not_exists.mp ha) hx)
  · have hbare : ∀ {cell : Cell}, (∀ s, cell ≠ .text s) →
        ∀ c ∈ cell.dump floats, c ∉ [',', '}'] :=
      fun hcell c hc hstop => Cell.dump_bare hcell c hc (List.mem_cons_of_mem _ hstop)
    obtain ⟨hword, hrest⟩ := append_inj_of_stops (hbare (not_exists.mp ha))
      (hbare (not_exists.mp hb)) hx hy heq
    exact ⟨Cell.dump_inj (not_exists.mp ha) (not_exists.mp hb) hword, hrest⟩

/-- An entry is read back. -/
theorem readable_dumpEntry : Readable (dumpEntry floats) (Begins [',', '}']) := by
  rintro ⟨key, a⟩ ⟨key', b⟩ x y hx hy heq
  simp only [dumpEntry, List.append_assoc, List.cons_append] at heq
  obtain ⟨rfl, hvalue⟩ := readable_quote .intro .intro heq
  obtain ⟨rfl, hrest⟩ := readable_dump hx hy (List.cons.inj hvalue).2
  exact ⟨rfl, hrest⟩

/-- Dicts with one text are equal. -/
theorem dumps_injective : Function.Injective (dumps floats) := by
  have hentries : Readable (separated (dumpEntry floats) ',' '}') Anything :=
    readable_dumpEntry.separated (by decide)
  have hbegins : ∀ es, Begins [',', '}'] (separated (dumpEntry floats) ',' '}' es) := fun es => by
    simpa using begins_separated (dumpEntry floats) ',' '}' es []
  rintro (- | ⟨e, es⟩) (- | ⟨e', es'⟩) heq <;>
    have hchars := (List.cons.inj (String.ofList_injective heq)).2
  · rfl
  · exact absurd (List.cons.inj hchars).1 (by decide)
  · exact absurd (List.cons.inj hchars).1 (by decide)
  · obtain ⟨rfl, htail⟩ := readable_dumpEntry (hbegins es) (hbegins es') hchars
    exact congrArg (List.cons e) (hentries.injective [] .intro htail)

/-! ### A way to write floats -/

/-- A fraction, where a finite float is taken for its rational. -/
def fractionText : PyFloat → String
  | .finite q => toString q.num ++ ("/" ++ toString (q.den : ℤ))
  | .posInf => "Infinity"
  | .negInf => "-Infinity"
  | .nan => "NaN"

theorem toList_fractionText (q : ℚ) : (fractionText (.finite q)).toList
    = (toString q.num).toList ++ '/' :: (toString (q.den : ℤ)).toList := by
  simp [fractionText]

/-- A slash or a capital letter stands in it, which no integer has. -/
theorem mem_fractionText (x : PyFloat) : ∃ c ∈ ['/', 'I', 'N'], c ∈ (fractionText x).toList := by
  rcases x with q | - | - | -
  · refine ⟨'/', by decide, ?_⟩
    rw [toList_fractionText]
    exact List.mem_append_right _ List.mem_cons_self
  · exact ⟨'I', by decide, by decide⟩
  · exact ⟨'I', by decide, by decide⟩
  · exact ⟨'N', by decide, by decide⟩

theorem fractionText_bare (x : PyFloat) : ∀ c ∈ (fractionText x).toList, c ∉ ['"', ',', '}'] := by
  rcases x with q | - | - | -
  · intro c hc
    rw [toList_fractionText, List.mem_append, List.mem_cons] at hc
    rcases hc with hc | rfl | hc
    · exact toString_int_free (forall_mem_of_all (by decide)) _ c hc
    · decide
    · exact toString_int_free (forall_mem_of_all (by decide)) _ c hc
  · exact forall_mem_of_all (by decide)
  · exact forall_mem_of_all (by decide)
  · exact forall_mem_of_all (by decide)

theorem fractionText_injective : Function.Injective fractionText := by
  have hslash : ∀ {q : ℚ} {x : PyFloat}, '/' ∉ (fractionText x).toList →
      fractionText (.finite q) ≠ fractionText x := by
    intro q x hx heq
    refine hx ?_
    rw [← heq, toList_fractionText]
    exact List.mem_append_right _ List.mem_cons_self
  rintro (q | - | - | -) (q' | - | - | -) heq
  case finite.finite =>
    have hchars := congrArg String.toList heq
    rw [toList_fractionText, toList_fractionText] at hchars
    have hfree : ∀ n : ℤ, ∀ c ∈ (toString n).toList, c ∉ ['/'] :=
      toString_int_free (forall_mem_of_all (by decide))
    obtain ⟨hnum, hden⟩ := append_inj_of_stops (hfree _) (hfree _)
      ⟨_, List.mem_singleton_self _, _, rfl⟩ ⟨_, List.mem_singleton_self _, _, rfl⟩ hchars
    have hnum := toString_int_inj (String.toList_inj.mp hnum)
    have hden := toString_int_inj (String.toList_inj.mp (List.cons.inj hden).2)
    rw [Rat.ext hnum (by exact_mod_cast hden)]
  case posInf.posInf => rfl
  case negInf.negInf => rfl
  case nan.nan => rfl
  case finite.posInf | finite.negInf | finite.nan => exact absurd heq (hslash (by decide))
  case posInf.finite | negInf.finite | nan.finite => exact absurd heq.symm (hslash (by decide))
  all_goals exact absurd heq (by decide)

/-- Floats written as fractions. -/
def FloatRepr.fractions : FloatRepr where
  repr := fractionText
  injective := fractionText_injective
  ne_int x n heq := by
    obtain ⟨c, hletter, hc⟩ := mem_fractionText x
    rw [heq] at hc
    exact toString_int_free (forall_mem_of_all (by decide)) n c hc hletter
  bare := fractionText_bare

end Bisakerja
