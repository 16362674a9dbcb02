import BisakerjaScraper.Python.Text
import BisakerjaScraper.Schemes.Words

/-! Searching a text for a pattern.

    A search tries the pattern at every character, knowing whether the character before it is one of
    a word. The patterns here are a few letters in any case, whatever whitespace, and a closing
    character; what they find in a text does not depend on how its words are separated. -/

namespace Bisakerja
open Schemes

/-! ### Characters -/

/-- A letter as `re.IGNORECASE` compares it: four letters beyond ASCII are folded, too. -/
def foldLetter (c : Char) : Char :=
  if c = '\u0130' ∨ c = '\u0131' then 'i'
  else if c = '\u017f' then 's'
  else if c = '\u212a' then 'k'
  else c.toLower

/-- `[a-z]` under `re.IGNORECASE`. -/
def isLetter (c : Char) : Bool := (foldLetter c).isLower

/-- `str.isalnum` beyond ASCII: whitespace is not alphanumeric. -/
structure Alphabet where
  isAlnum : Char → Bool
  isAlnum_space : ∀ c, isSpace c = true → isAlnum c = false

namespace Alphabet

variable (alphabet : Alphabet)

/-- `\w`. -/
def isWord (c : Char) : Bool :=
  if c.toNat < 128 then c.isAlphanum || c = '_' else alphabet.isAlnum c

/-- The tries of a search, character by character. -/
def search (startsAt : Bool → List Char → Bool) : Bool → List Char → Bool
  | _, [] => false
  | afterWord, c :: rest =>
    startsAt afterWord (c :: rest) || search startsAt (alphabet.isWord c) rest

end Alphabet

/-- What is behind the letters of a pattern. -/
def literal : List Char → List Char → Option (List Char)
  | [], text => some text
  | _ :: _, [] => none
  | letter :: letters, c :: text => if foldLetter c = letter then literal letters text else none

/-- `\s*` and a closing character. -/
def closedBy (closing : Char) : Option (List Char) → Bool
  | none => false
  | some rest => (lstrip rest).head? = some closing

/-- What is behind `\bon[a-z]+`. -/
def eventName (afterWord : Bool) (text : List Char) : Option (List Char) :=
  if afterWord then none
  else (literal "on".toList text).bind fun rest =>
    if rest.takeWhile isLetter = [] then none else some (rest.dropWhile isLetter)

/-- A lone `<`, which stands for a tag. -/
def tagMark : List Char := [' ', '<', ' ']

/-- `\bon[a-z]+\s*=` or `javascript\s*:`. -/
def scriptAt (afterWord : Bool) (text : List Char) : Bool :=
  closedBy '=' (eventName afterWord text) || closedBy ':' (literal "javascript".toList text)

namespace Alphabet

/-- The text says `onclick=`, `javascript:` or the like. -/
def SaysScript (alphabet : Alphabet) (text : List Char) : Prop :=
  alphabet.search scriptAt false text = true

end Alphabet

/-! ### Whitespace -/

theorem isAlphanum_of_isSpace {c : Char} (h : isSpace c = true) : c.isAlphanum = false := by
  by_contra hne
  have hrange : (65 ≤ c.toNat → 90 < c.toNat) → (97 ≤ c.toNat → 122 < c.toNat) →
      48 ≤ c.toNat ∧ c.toNat ≤ 57 := by
    simpa [Char.isAlphanum, isAlpha_eq, isUpper_eq, isLower_eq, Char.isDigit,
      UInt32.le_iff_toNat_le] using hne
  simp only [isSpace, Bool.or_eq_true, Bool.and_eq_true, decide_eq_true_eq, List.mem_cons,
    List.not_mem_nil, or_false] at h
  omega

theorem foldLetter_of_isSpace {c : Char} (h : isSpace c = true) : foldLetter c = c := by
  have hother : ∀ d, isSpace d = false → c ≠ d := by
    rintro d hd rfl
    rw [h] at hd
    cases hd
  have hlower : c.toLower = c := by
    have hnone := isAlphanum_of_isSpace h
    simp only [Char.isAlphanum, isAlpha_eq, isUpper_eq, Bool.or_eq_false_iff] at hnone
    unfold Char.toLower
    rw [dif_neg]
    rintro ⟨hlow, hhigh⟩
    exact of_decide_eq_false hnone.1.1 ⟨hlow, hhigh⟩
  unfold foldLetter
  rw [if_neg (not_or.mpr ⟨hother _ (by decide), hother _ (by decide)⟩),
    if_neg (hother _ (by decide)), if_neg (hother _ (by decide)), hlower]

theorem isLetter_of_isSpace {c : Char} (h : isSpace c = true) : isLetter c = false := by
  have hnone := isAlphanum_of_isSpace h
  unfold isLetter
  rw [foldLetter_of_isSpace h]
  simp only [Char.isAlphanum, isAlpha_eq, Bool.or_eq_false_iff] at hnone
  exact hnone.1.2

theorem Alphabet.isWord_of_isSpace (alphabet : Alphabet) {c : Char} (h : isSpace c = true) :
    alphabet.isWord c = false := by
  unfold Alphabet.isWord
  split
  · rw [isAlphanum_of_isSpace h, Bool.false_or, decide_eq_false_iff_not]
    rintro rfl
    cases h
  · exact alphabet.isAlnum_space c h

/-! ### A text and what follows it -/

section Following

variable {t t' : List Char}

/-- No pattern of letters goes on in a text that does not begin with one. -/
theorem literal_append {letters : List Char} (hletters : ∀ l ∈ letters, l.isLower = true)
    (ht : ∀ c ∈ t.head?, isLetter c = false) (w : List Char) :
    literal letters (w ++ t) = (literal letters w).map (· ++ t) := by
  induction letters generalizing w with
  | nil => rfl
  | cons l letters ih =>
    rcases w with - | ⟨c, w⟩
    · rcases t with - | ⟨c, t⟩
      · rfl
      · have hc := ht c rfl
        have hne : foldLetter c ≠ l := by
          rintro rfl
          have hlower := hletters _ List.mem_cons_self
          unfold isLetter at hc
          rw [hc] at hlower
          cases hlower
        simp [literal, hne]
    · simp only [List.cons_append, literal]
      split
      · exact ih (fun l hl => hletters l (List.mem_cons_of_mem _ hl)) w
      · rfl

theorem eventName_append (ht : ∀ c ∈ t.head?, isLetter c = false) (afterWord : Bool)
    (w : List Char) : eventName afterWord (w ++ t) = (eventName afterWord w).map (· ++ t) := by
  unfold eventName
  rw [literal_append (forall_mem_of_all (by decide)) ht]
  cases afterWord with
  | true => rfl
  | false =>
    cases hrest : literal "on".toList w with
    | none => rfl
    | some rest =>
      obtain ⟨htake, hdrop⟩ := span_append ht rest
      simp only [Bool.false_eq_true, if_false, Option.map_some, Option.bind_some, htake, hdrop]
      split <;> rfl

/-- Two texts begin alike for a pattern that looks for its closing character. -/
def ClosesAlike (t t' : List Char) : Prop :=
  ∀ closing ∈ ['=', ':'], (lstrip t).head? = some closing ↔ (lstrip t').head? = some closing

/-- The closing character is found before or behind the end of a text. -/
theorem closedBy_append {closing : Char} (hclosing : closing ∈ ['=', ':']) (w : Option (List Char))
    (h : ClosesAlike t t') :
    closedBy closing (w.map (· ++ t)) = closedBy closing (w.map (· ++ t')) := by
  cases w with
  | none => rfl
  | some w =>
    simp only [Option.map_some, closedBy, lstrip, List.dropWhile_append]
    split
    · exact decide_eq_decide.mpr (h closing hclosing)
    · next hw =>
      have hne : w.dropWhile isSpace ≠ [] := by simpa [List.isEmpty_iff] using hw
      obtain ⟨c, rest, hcons⟩ := List.exists_cons_of_ne_nil hne
      rw [hcons]
      rfl

theorem scriptAt_append (ht : ∀ c ∈ t.head?, isLetter c = false)
    (ht' : ∀ c ∈ t'.head?, isLetter c = false) (h : ClosesAlike t t') (afterWord : Bool)
    (w : List Char) : scriptAt afterWord (w ++ t) = scriptAt afterWord (w ++ t') := by
  have hjavascript : ∀ l ∈ "javascript".toList, l.isLower = true := forall_mem_of_all (by decide)
  unfold scriptAt
  rw [eventName_append ht, eventName_append ht', literal_append hjavascript ht,
    literal_append hjavascript ht', closedBy_append (by simp) _ h, closedBy_append (by simp) _ h]

end Following

namespace Alphabet

variable {alphabet : Alphabet}

theorem scriptAt_of_not_isLetter {c : Char} (h : isLetter c = false) (afterWord : Bool)
    (rest : List Char) : scriptAt afterWord (c :: rest) = false := by
  have ht : ∀ d ∈ (c :: rest).head?, isLetter d = false := by
    rintro d ⟨⟩
    exact h
  have hnone : ∀ {l : Char} {letters : List Char}, (∀ d ∈ l :: letters, d.isLower = true) →
      literal (l :: letters) (c :: rest) = none := by
    intro l letters hletters
    exact literal_append hletters ht []
  have hon : literal "on".toList (c :: rest) = none := hnone (forall_mem_of_all (by decide))
  have hjavascript : literal "javascript".toList (c :: rest) = none :=
    hnone (forall_mem_of_all (by decide))
  unfold scriptAt eventName
  rw [hon, hjavascript]
  cases afterWord <;> rfl

/-- A search goes on alike behind a word when it does from where the word ends. -/
theorem search_append {t t' : List Char} (ht : ∀ c ∈ t.head?, isLetter c = false)
    (ht' : ∀ c ∈ t'.head?, isLetter c = false) (h : ClosesAlike t t')
    (hsearch : ∀ afterWord, alphabet.search scriptAt afterWord t
      = alphabet.search scriptAt afterWord t') (w : List Char) (afterWord : Bool) :
    alphabet.search scriptAt afterWord (w ++ t) = alphabet.search scriptAt afterWord (w ++ t') := by
  induction w generalizing afterWord with
  | nil => exact hsearch afterWord
  | cons c w ih =>
    have hat := scriptAt_append ht ht' h afterWord (c :: w)
    simp only [List.cons_append] at hat ⊢
    rw [search, search, hat, ih]

theorem search_isSpace {c : Char} (h : isSpace c = true) (afterWord : Bool) (rest : List Char) :
    alphabet.search scriptAt afterWord (c :: rest) = alphabet.search scriptAt false rest := by
  rw [search, scriptAt_of_not_isLetter (isLetter_of_isSpace h), alphabet.isWord_of_isSpace h,
    Bool.false_or]

/-- Whether a text says script does not depend on how its words are separated. -/
theorem saysScript_congr {a b : List Char} (h : words isSpace a = words isSpace b) :
    alphabet.SaysScript a ↔ alphabet.SaysScript b := by
  have hbreaks : ∀ {breaks : List Char}, (∀ c ∈ breaks, isSpace c = true) → ∀ rest,
      alphabet.search scriptAt false (breaks ++ rest) = alphabet.search scriptAt false rest := by
    intro breaks hall rest
    induction breaks with
    | nil => rfl
    | cons c breaks ih =>
      rw [List.cons_append, search_isSpace (hall c List.mem_cons_self),
        ih fun d hd => hall d (List.mem_cons_of_mem _ hd)]
  have hstart : ∀ {rest : List Char}, (∀ c ∈ rest.head?, isSpace c = true) → ∀ afterWord,
      alphabet.search scriptAt afterWord rest = alphabet.search scriptAt false rest := by
    intro rest hhead afterWord
    rcases rest with - | ⟨c, rest⟩
    · rfl
    · rw [search_isSpace (hhead c rfl), search_isSpace (hhead c rfl)]
  unfold SaysScript
  rw [eq_of_words_eq (f := alphabet.search scriptAt false) hbreaks ?_ h]
  intro word rest rest' _ hrest hrest' hhead heq
  refine search_append (fun c hc => isLetter_of_isSpace (hrest c hc))
    (fun c hc => isLetter_of_isSpace (hrest' c hc)) (fun closing _ => ?_) (fun afterWord => ?_)
    word false
  · unfold lstrip
    rw [hhead]
  · rw [hstart hrest, hstart hrest', heq]

/-- What a text says stands before a mark or behind it. -/
theorem saysScript_mark (alphabet : Alphabet) (a b : List Char) :
    alphabet.SaysScript (a ++ (tagMark ++ b)) ↔ alphabet.SaysScript a ∨ alphabet.SaysScript b := by
  have hsearch : ∀ afterWord, alphabet.search scriptAt afterWord (a ++ (tagMark ++ b))
      = (alphabet.search scriptAt afterWord a || alphabet.search scriptAt false b) := by
    induction a with
    | nil =>
      intro afterWord
      have hlt : alphabet.search scriptAt false ('<' :: ' ' :: b)
          = alphabet.search scriptAt false b := by
        rw [search, scriptAt_of_not_isLetter (by decide), search_isSpace (by decide), Bool.false_or]
      change alphabet.search scriptAt afterWord (' ' :: '<' :: ' ' :: b) = _
      rw [search_isSpace (by decide), hlt]
      rfl
    | cons c a ih =>
      intro afterWord
      have hcloses : ClosesAlike (tagMark ++ b) [] := by
        intro closing hclosing
        have hhead : (lstrip (tagMark ++ b)).head? = some '<' := rfl
        have hnone : (lstrip []).head? = none := rfl
        rw [hhead, hnone]
        simp only [List.mem_cons, List.not_mem_nil, or_false] at hclosing
        rcases hclosing with rfl | rfl <;> decide
      have hletter : ∀ d ∈ (tagMark ++ b).head?, isLetter d = false := by
        rintro d ⟨⟩
        decide
      have hat := scriptAt_append hletter (fun d hd => by cases hd) hcloses afterWord (c :: a)
      rw [List.append_nil] at hat
      simp only [List.cons_append] at hat ⊢
      rw [search, search, hat, ih, Bool.or_assoc]
  unfold SaysScript
  rw [hsearch, Bool.or_eq_true]

end Alphabet

end Bisakerja
