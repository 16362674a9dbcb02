import Mathlib.Data.List.TakeWhile

/-! Words.

    The words of a text are its longest pieces without breaks. They split at every break, so two
    texts that are written piece by piece have the same words when the pieces have and breaks stand
    between them. The longest front of a text whose elements are of one kind is found where the next
    element is of another. -/

namespace Schemes

universe u
variable {α : Type u} (p : α → Bool)

/-- The words of a text between the elements `p` breaks at. -/
def words (text : List α) : List (List α) := (text.splitOnP p).filter (¬ ·.isEmpty)

@[simp] theorem words_nil : words p [] = [] := by
  simp [words, List.splitOnP_nil]

variable {p} {text rest : List α}

/-- Words split at a break. -/
theorem words_append_break {c : α} (hc : p c = true) (text rest : List α) :
    words p (text ++ c :: rest) = words p text ++ words p rest := by
  unfold words
  rw [List.splitOnP_append_cons text rest hc, List.filter_append]

theorem words_cons_break {c : α} (hc : p c = true) (rest : List α) :
    words p (c :: rest) = words p rest := by
  simpa using words_append_break hc [] rest

/-- Breaks at the front belong to no word. -/
theorem words_breaks_append {breaks : List α} (h : ∀ c ∈ breaks, p c = true) (rest : List α) :
    words p (breaks ++ rest) = words p rest := by
  induction breaks with
  | nil => rfl
  | cons c breaks ih =>
    rw [List.cons_append, words_cons_break (h c List.mem_cons_self),
      ih fun d hd => h d (List.mem_cons_of_mem _ hd)]

theorem words_eq_nil (h : ∀ c ∈ text, p c = true) : words p text = [] := by
  simpa using words_breaks_append h []

/-- Words split where the front begins with a break. -/
theorem words_append_of_head (h : ∀ c ∈ rest.head?, p c = true) (text : List α) :
    words p (text ++ rest) = words p text ++ words p rest := by
  rcases rest with - | ⟨c, rest⟩
  · simp
  · rw [words_append_break (h c rfl), words_cons_break (h c rfl)]

/-- Words split where the end is a break. -/
theorem words_append_of_getLast (h : ∀ c ∈ text.getLast?, p c = true) (rest : List α) :
    words p (text ++ rest) = words p text ++ words p rest := by
  rcases List.eq_nil_or_concat text with rfl | ⟨text, c, rfl⟩
  · simp
  · rw [List.concat_eq_append] at h ⊢
    have hc := h c (by simp)
    rw [List.append_assoc, List.singleton_append, words_append_break hc, words_append_break hc,
      words_nil, List.append_nil]

theorem words_of_no_break {word : List α} (hne : word ≠ []) (h : ∀ c ∈ word, p c = false) :
    words p word = [word] := by
  simp [words, List.splitOnP_eq_singleton h, hne]

/-- A text is breaks only, or begins with a word behind some breaks. -/
theorem breaks_or_word (p : α → Bool) (text : List α) :
    (∀ c ∈ text, p c = true) ∨ ∃ breaks word rest, text = breaks ++ (word ++ rest) ∧
      (∀ c ∈ breaks, p c = true) ∧ word ≠ [] ∧ (∀ c ∈ word, p c = false) ∧
      (∀ c ∈ rest.head?, p c = true) := by
  rcases hfront : text.dropWhile p with - | ⟨c, front⟩
  · exact .inl (List.dropWhile_eq_nil_iff.mp hfront)
  · refine .inr ⟨text.takeWhile p, (c :: front).takeWhile (¬ p ·), (c :: front).dropWhile (¬ p ·),
      ?_, fun d hd => List.mem_takeWhile_imp hd, ?_, ?_, ?_⟩
    · rw [List.takeWhile_append_dropWhile, ← hfront, List.takeWhile_append_dropWhile]
    · have hc : p c = false := by
        have h := List.head?_dropWhile_not p text
        rw [hfront] at h
        simpa using h
      simp [hc]
    · intro d hd
      simpa using List.mem_takeWhile_imp hd
    · intro d hd
      have h := List.head?_dropWhile_not (fun c => decide ¬ p c = true) (c :: front)
      rw [Option.mem_def.mp hd] at h
      simpa using h

theorem words_breaks_word {breaks word : List α} (hbreaks : ∀ c ∈ breaks, p c = true)
    (hne : word ≠ []) (hword : ∀ c ∈ word, p c = false) (hrest : ∀ c ∈ rest.head?, p c = true) :
    words p (breaks ++ (word ++ rest)) = word :: words p rest := by
  rw [words_breaks_append hbreaks, words_append_of_head hrest, words_of_no_break hne hword,
    List.singleton_append]

theorem words_eq_nil_iff : words p text = [] ↔ ∀ c ∈ text, p c = true := by
  refine ⟨fun h => ?_, words_eq_nil⟩
  rcases breaks_or_word p text with hall | ⟨_, _, _, rfl, hbreaks, hne, hword, hrest⟩
  · exact hall
  · rw [words_breaks_word hbreaks hne hword hrest] at h
    cases h

/-- A word is not empty and has no break in it. -/
theorem of_mem_words {word : List α} (h : word ∈ words p text) :
    word ≠ [] ∧ ∀ c ∈ word, p c = false := by
  induction hn : text.length using Nat.strong_induction_on generalizing text with
  | _ n ih =>
    rcases breaks_or_word p text with hall | ⟨breaks, first, rest, rfl, hbreaks, hne, hfirst, hrest⟩
    · rw [words_eq_nil hall] at h
      cases h
    · rw [words_breaks_word hbreaks hne hfirst hrest] at h
      rcases List.mem_cons.mp h with rfl | hmem
      · exact ⟨hne, hfirst⟩
      · have hpos := List.length_pos_iff.mpr hne
        simp only [List.length_append] at hn
        exact ih rest.length (by omega) hmem rfl

/-- The words of a text are the text without its breaks. -/
theorem flatten_words (p : α → Bool) (text : List α) :
    (words p text).flatten = text.filter (¬ p ·) := by
  induction hn : text.length using Nat.strong_induction_on generalizing text with
  | _ n ih =>
    rcases breaks_or_word p text with hall | ⟨breaks, word, rest, rfl, hbreaks, hne, hword, hrest⟩
    · rw [words_eq_nil hall, List.filter_eq_nil_iff.mpr fun c hc => by simp [hall c hc]]
      rfl
    · have hgone : breaks.filter (¬ p ·) = [] :=
        List.filter_eq_nil_iff.mpr fun c hc => by simp [hbreaks c hc]
      have hkept : word.filter (¬ p ·) = word :=
        List.filter_eq_self.mpr fun c hc => by simp [hword c hc]
      have hpos := List.length_pos_iff.mpr hne
      simp only [List.length_append] at hn
      rw [words_breaks_word hbreaks hne hword hrest, List.flatten_cons,
        ih rest.length (by omega) rest rfl, List.filter_append, List.filter_append, hgone, hkept,
        List.nil_append]

/-- Stripped of its breaks, a text begins with its first word. -/
theorem head?_dropWhile_eq (text : List α) :
    (text.dropWhile p).head? = (words p text).head?.bind List.head? := by
  rcases breaks_or_word p text with hall | ⟨breaks, word, rest, rfl, hbreaks, hne, hword, hrest⟩
  · rw [words_eq_nil hall, List.dropWhile_eq_nil_iff.mpr hall]
    rfl
  · rw [words_breaks_word hbreaks hne hword hrest, List.dropWhile_append_of_pos hbreaks]
    obtain ⟨c, word, rfl⟩ := List.exists_cons_of_ne_nil hne
    have hc := hword c List.mem_cons_self
    simp [hc]

/-- What does not depend on how words are separated depends on the words alone. -/
theorem eq_of_words_eq {β : Type*} {f : List α → β} {a b : List α}
    (hbreaks : ∀ {breaks}, (∀ c ∈ breaks, p c = true) → ∀ rest, f (breaks ++ rest) = f rest)
    (hword : ∀ {word rest rest'}, (∀ c ∈ word, p c = false) → (∀ c ∈ rest.head?, p c = true) →
      (∀ c ∈ rest'.head?, p c = true) → (rest.dropWhile p).head? = (rest'.dropWhile p).head? →
      f rest = f rest' → f (word ++ rest) = f (word ++ rest'))
    (h : words p a = words p b) : f a = f b := by
  generalize hws : words p a = ws at h
  induction ws generalizing a b with
  | nil =>
    have hnil : ∀ {text}, words p text = [] → f text = f [] := by
      intro text htext
      rcases breaks_or_word p text with hall | ⟨_, _, _, rfl, hall, hne, hw, hrest⟩
      · simpa using hbreaks hall []
      · rw [words_breaks_word hall hne hw hrest] at htext
        cases htext
    rw [hnil hws, hnil h.symm]
  | cons w ws ih =>
    have hsplit : ∀ {text}, words p text = w :: ws → ∃ rest, f text = f (w ++ rest) ∧
        (∀ c ∈ w, p c = false) ∧ (∀ c ∈ rest.head?, p c = true) ∧ words p rest = ws := by
      intro text htext
      rcases breaks_or_word p text with hall | ⟨_, _, rest, rfl, hall, hne, hw, hrest⟩
      · rw [words_eq_nil hall] at htext
        cases htext
      · rw [words_breaks_word hall hne hw hrest, List.cons.injEq] at htext
        obtain ⟨rfl, rfl⟩ := htext
        exact ⟨rest, hbreaks hall _, hw, hrest, rfl⟩
    obtain ⟨rest, hf, hw, hrest, hwords⟩ := hsplit hws
    obtain ⟨rest', hf', -, hrest', hwords'⟩ := hsplit h.symm
    rw [hf, hf']
    refine hword hw hrest hrest' ?_ (ih hwords hwords'.symm)
    rw [head?_dropWhile_eq, head?_dropWhile_eq, hwords, hwords']

/-! ### Words joined by a break -/

section Joined

variable {c : α} (hc : p c = true)
include hc

theorem words_intercalate {ws : List (List α)} (h : ∀ w ∈ ws, w ≠ [] ∧ ∀ d ∈ w, p d = false) :
    words p ([c].intercalate ws) = ws := by
  induction ws with
  | nil => exact words_nil p
  | cons w rest ih =>
    obtain ⟨hne, hw⟩ := h w List.mem_cons_self
    cases rest with
    | nil =>
      rw [List.intercalate_singleton, words_of_no_break hne hw]
    | cons v more =>
      rw [List.intercalate_cons_cons, List.append_assoc, List.singleton_append,
        words_append_break hc, words_of_no_break hne hw,
        ih fun u hu => h u (List.mem_cons_of_mem _ hu), List.singleton_append]

/-- A piece without breaks stands on one side of a break. -/
theorem infix_append_break {w : List α} (hw : ∀ d ∈ w, p d = false) {a b : List α} :
    w <:+: a ++ c :: b ↔ w <:+: a ∨ w <:+: b := by
  have hnot : c ∉ w := fun hmem => by
    rw [hw c hmem] at hc
    cases hc
  constructor
  · rintro ⟨s, t, h⟩
    rw [List.append_assoc] at h
    rcases List.append_eq_append_iff.mp h with ⟨x, rfl, hx⟩ | ⟨x, rfl, hx⟩
    · rcases List.append_eq_append_iff.mp hx with ⟨y, rfl, -⟩ | ⟨y, rfl, hy⟩
      · exact .inl ⟨s, y, by rw [List.append_assoc]⟩
      · cases y with
        | nil => exact .inl ⟨s, [], by simp⟩
        | cons d y =>
          rw [List.cons_append, List.cons.injEq] at hy
          obtain ⟨rfl, -⟩ := hy
          exact absurd (List.mem_append_right x List.mem_cons_self) hnot
    · cases x with
      | nil =>
        cases w with
        | nil => exact .inl List.nil_infix
        | cons d w =>
          rw [List.nil_append, List.cons_append, List.cons.injEq] at hx
          obtain ⟨rfl, -⟩ := hx
          exact absurd List.mem_cons_self hnot
      | cons d x =>
        rw [List.cons_append, List.cons.injEq] at hx
        exact .inr ⟨x, t, by rw [hx.2, List.append_assoc]⟩
  · rintro (h | h)
    · exact h.trans (List.prefix_append _ _).isInfix
    · exact h.trans ⟨a ++ [c], [], by simp⟩

/-- A piece without breaks stands in one of the words. -/
theorem infix_intercalate {w : List α} (hne : w ≠ []) (hw : ∀ d ∈ w, p d = false)
    {ws : List (List α)} : w <:+: [c].intercalate ws ↔ ∃ v ∈ ws, w <:+: v := by
  induction ws with
  | nil => simp [hne]
  | cons v rest ih =>
    cases rest with
    | nil => simp
    | cons u more =>
      rw [List.intercalate_cons_cons, List.append_assoc, List.singleton_append,
        infix_append_break hc hw, ih]
      simp only [List.mem_cons, exists_eq_or_imp]

end Joined

/-! ### Longest fronts -/

section Spans

variable {α : Type} {p : α → Bool}

/-- What is taken from the front of a text ends where it is followed by something else. -/
theorem span_append {back : List α} (hback : ∀ c ∈ back.head?, p c = false) (front : List α) :
    (front ++ back).takeWhile p = front.takeWhile p ∧
      (front ++ back).dropWhile p = front.dropWhile p ++ back := by
  induction front with
  | nil =>
    rcases back with - | ⟨c, back⟩
    · exact ⟨rfl, rfl⟩
    · simp [hback c rfl]
  | cons c front ih => cases hc : p c <;> simp [hc, ih]

/-- The front is found where the next element is of another kind. -/
theorem span_front {front back : List α} (hfront : ∀ c ∈ front, p c = true)
    (hback : ∀ c ∈ back.head?, p c = false) :
    (front ++ back).takeWhile p = front ∧ (front ++ back).dropWhile p = back := by
  obtain ⟨htake, hdrop⟩ := span_append hback front
  rw [htake, hdrop, List.takeWhile_eq_self_iff.mpr hfront, List.dropWhile_eq_nil_iff.mpr hfront]
  exact ⟨rfl, rfl⟩

/-- A front that ends within a text is not changed by what follows the text. -/
theorem span_of_stops {front : List α} (h : front.dropWhile p ≠ []) (back : List α) :
    (front ++ back).takeWhile p = front.takeWhile p ∧
      (front ++ back).dropWhile p = front.dropWhile p ++ back := by
  have hlength : (front.takeWhile p).length ≠ front.length := by
    have hsplit := congrArg List.length (List.takeWhile_append_dropWhile (p := p) (l := front))
    have hpos := List.length_pos_iff.mpr h
    simp only [List.length_append] at hsplit
    omega
  rw [List.takeWhile_append, List.dropWhile_append, if_neg hlength, if_neg (by simpa using h)]
  exact ⟨rfl, rfl⟩

/-- A text that ends in an element of another kind has some of it behind its front. -/
theorem dropWhile_ne_nil {text : List α} (hne : text ≠ [])
    (hlast : ∀ c ∈ text.getLast?, p c = false) : text.dropWhile p ≠ [] := by
  intro hnil
  have hall := List.dropWhile_eq_nil_iff.mp hnil _ (List.getLast_mem hne)
  rw [hlast _ (List.getLast?_eq_some_getLast hne)] at hall
  cases hall

end Spans

end Schemes
