import BisakerjaScraper.Backend.RelationText
import BisakerjaScraper.Schemes.Regex
import BisakerjaScraper.Schemes.Rewrites

/-! Plain texts.

    A text is plain without markup and visual noise. Once its tags are replaced, a text encloses
    nothing in brackets, and neither splitting it nor rewriting what stands around the brackets
    brings a tag back. -/

namespace Bisakerja
open Schemes

/-! ### Replacing -/

section Replacing

variable {old new : List Char} {text : List Char}

/-- Skipped characters are not replaced. -/
theorem replaceFrom_skip (old new : List Char) (skip : ℕ) (text : List Char) :
    replaceFrom old new skip text = replaceFrom old new 0 (text.drop skip) := by
  induction text generalizing skip with
  | nil => cases skip <;> rfl
  | cons c text ih =>
    cases skip with
    | zero => rfl
    | succ skip => exact ih skip

/-- Where the text begins with what is replaced, the replacement stands. -/
theorem replaceFrom_append (hold : old ≠ []) (text : List Char) :
    replaceFrom old new 0 (old ++ text) = new ++ replaceFrom old new 0 text := by
  obtain ⟨c, rest, rfl⟩ := List.exists_cons_of_ne_nil hold
  have hstarts : (c :: rest).isPrefixOf (c :: rest ++ text) = true := by
    simp
  rw [List.cons_append] at hstarts ⊢
  rw [replaceFrom, if_pos hstarts, replaceFrom_skip]
  simp

/-- Replacing rewrites a text. -/
theorem Rewrites.replaceFrom {fixed : List Char} {fresh : Char → Prop} (hne : old ≠ [])
    (hold : ∀ c ∈ old, c ∉ fixed) (hnew : ∀ c ∈ new, fresh c) (text : List Char) :
    Rewrites fixed fresh text (replaceFrom old new 0 text) := by
  induction hn : text.length using Nat.strong_induction_on generalizing text with
  | _ n ih =>
    cases text with
    | nil => exact .nil
    | cons c rest =>
      by_cases hstarts : old.isPrefixOf (c :: rest) = true
      · obtain ⟨behind, hbehind⟩ := List.isPrefixOf_iff_prefix.mp hstarts
        rw [← hbehind, replaceFrom_append hne]
        have hpos := List.length_pos_iff.mpr hne
        have hlength := congrArg List.length hbehind
        rw [List.length_append, hn] at hlength
        exact (ih behind.length (by omega) behind rfl).swap hne hold fun d hd => .inr (hnew d hd)
      · rw [Bisakerja.replaceFrom, if_neg hstarts]
        exact (ih rest.length (by simp [← hn]) rest rfl).keep c

theorem mem_replaceFrom {skip : ℕ} {c : Char} (h : c ∈ replaceFrom old new skip text) :
    c ∈ text ∨ c ∈ new := by
  induction text generalizing skip with
  | nil => cases skip <;> exact .inl h
  | cons d text ih =>
    cases skip with
    | succ skip => exact (ih h).imp_left (List.mem_cons_of_mem d)
    | zero =>
      rw [replaceFrom] at h
      split at h
      · rcases List.mem_append.mp h with h | h
        · exact .inr h
        · exact (ih h).imp_left (List.mem_cons_of_mem d)
      · rcases List.mem_cons.mp h with rfl | h
        · exact .inl List.mem_cons_self
        · exact (ih h).imp_left (List.mem_cons_of_mem d)

/-- Replacing what is not kept by what is not kept does not see what trails. -/
theorem trimmed_replaceFrom {kept : Char → Bool} (hold : ∀ c ∈ old, kept c = false)
    (hnew : ∀ c ∈ new, kept c = false) (skip : ℕ) {tail : List Char}
    (htail : ∀ c ∈ tail, kept c = false) (text : List Char) :
    trimmed kept (replaceFrom old new skip (text ++ tail))
      = trimmed kept (replaceFrom old new skip text) := by
  have hnone : ∀ {skip : ℕ} {text : List Char}, (∀ c ∈ text, kept c = false) →
      trimmed kept (replaceFrom old new skip text) = [] := by
    intro skip text htext
    refine trimmed_eq_nil_iff.mpr fun c hc => ?_
    exact (mem_replaceFrom hc).elim (htext c) (hnew c)
  induction text generalizing skip with
  | nil =>
    have hempty : ∀ c ∈ ([] : List Char), kept c = false := nofun
    rw [List.nil_append, hnone htail, hnone hempty]
  | cons c text ih =>
    rw [List.cons_append]
    cases skip with
    | succ skip => exact ih skip
    | zero =>
      rw [replaceFrom, replaceFrom]
      by_cases hshort : old.isPrefixOf (c :: text) = true
      · have hlong : old.isPrefixOf (c :: (text ++ tail)) = true := by
          have hstarts := List.isPrefixOf_iff_prefix.mp hshort
          exact List.isPrefixOf_iff_prefix.mpr (hstarts.trans ⟨tail, rfl⟩)
        rw [if_pos hshort, if_pos hlong]
        exact trimmed_append_congr new (ih _)
      · rw [if_neg hshort]
        split
        · next hlong =>
          -- what is replaced goes on behind the text, which has nothing that is kept
          have hstarts : old <+: c :: text ++ tail := List.isPrefixOf_iff_prefix.mp hlong
          have hover : c :: text <+: old := by
            rcases List.prefix_or_prefix_of_prefix hstarts ⟨tail, rfl⟩ with hfront | hover
            · exact absurd (List.isPrefixOf_iff_prefix.mpr hfront) hshort
            · exact hover
          have hall : ∀ d ∈ c :: text, kept d = false := fun d hd => hold d (hover.subset hd)
          obtain ⟨hc, htext⟩ := List.forall_mem_cons.mp hall
          have hrest : trimmed kept (c :: replaceFrom old new 0 text) = [] := by
            refine trimmed_eq_nil_iff.mpr (List.forall_mem_cons.mpr ⟨hc, ?_⟩)
            exact trimmed_eq_nil_iff.mp (hnone htext)
          rw [hrest]
          refine trimmed_eq_nil_iff.mpr fun d hd => ?_
          rcases List.mem_append.mp hd with hd | hd
          · exact hnew d hd
          · refine (mem_replaceFrom hd).elim (fun hmem => ?_) (hnew d)
            exact (List.mem_append.mp hmem).elim (htext d) (htail d)
        · exact trimmed_append_congr [c] (ih 0)

end Replacing

/-! ### Joining words -/

/-- Characters behind the last word go on with it. -/
theorem spaced_concat_append (ws : List (List Char)) (word tail : List Char) :
    spaced (ws ++ [word ++ tail]) = spaced (ws ++ [word]) ++ tail := by
  induction ws with
  | nil => rfl
  | cons first ws ih =>
    cases ws with
    | nil => simp [spaced]
    | cons next ws =>
      simp only [List.cons_append, spaced] at ih ⊢
      rw [ih]
      simp

/-- A text ends in a word, which may be empty. -/
theorem exists_last_word {α : Type} (p : α → Bool) (text : List α) : ∃ front word,
    text = front ++ word ∧ (∀ c ∈ front.getLast?, p c = true) ∧ ∀ c ∈ word, p c = false := by
  induction text using List.reverseRecOn with
  | nil => exact ⟨[], [], rfl, nofun, nofun⟩
  | append_singleton text c ih =>
    by_cases hc : p c = true
    · exact ⟨text ++ [c], [], by simp, by simpa using hc, nofun⟩
    · obtain ⟨front, word, rfl, hfront, hword⟩ := ih
      refine ⟨front, word ++ [c], List.append_assoc _ _ _, hfront, fun d hd => ?_⟩
      rcases List.mem_append.mp hd with hd | hd
      · exact hword d hd
      · obtain rfl := List.mem_singleton.mp hd
        simpa using hc

/-- Joining words does not see what trails. -/
theorem trimmed_joinWords {kept : Char → Bool} (hspace : kept ' ' = false) {tail : List Char}
    (htail : ∀ c ∈ tail, kept c = false) (text : List Char) :
    trimmed kept (joinWords (text ++ tail)) = trimmed kept (joinWords text) := by
  induction tail generalizing text with
  | nil => rw [List.append_nil]
  | cons c tail ih =>
    obtain ⟨hc, htail⟩ := List.forall_mem_cons.mp htail
    rw [List.append_cons, ih htail]
    unfold joinWords
    by_cases hbreak : isSpace c = true
    · rw [words_append_break hbreak, words_nil, List.append_nil]
    · -- the character goes on with the word at the end, or is a word
      have hnone : ∀ d ∈ [c], kept d = false := by simpa using hc
      obtain ⟨front, word, rfl, hfront, hword⟩ := exists_last_word isSpace text
      have hlonger : ∀ d ∈ word ++ [c], isSpace d = false := by
        intro d hd
        rcases List.mem_append.mp hd with hd | hd
        · exact hword d hd
        · obtain rfl := List.mem_singleton.mp hd
          simpa using hbreak
      rw [List.append_assoc, words_append_of_getLast hfront, words_append_of_getLast hfront,
        words_of_no_break (by simp) hlonger]
      rcases eq_or_ne word [] with rfl | hne
      · rw [words_nil, List.append_nil, List.nil_append]
        rcases eq_or_ne (words isSpace front) [] with hnil | hsome
        · rw [hnil]
          exact trimmed_append_of_none hnone []
        · rw [spaced_append hsome (List.cons_ne_nil _ _)]
          exact trimmed_append_of_none (by simpa [spaced] using ⟨hspace, hc⟩) _
      · rw [words_of_no_break hne hword, spaced_concat_append]
        exact trimmed_append_of_none hnone _

theorem joinWords_eq_nil_iff {text : List Char} :
    joinWords text = [] ↔ ∀ c ∈ text, isSpace c = true := by
  unfold joinWords
  rw [← words_eq_nil_iff]
  constructor
  · intro hnil
    by_contra hne
    exact spaced_ne_nil hne (fun word hword => of_mem_words hword) hnil
  · intro hnone
    rw [hnone]
    rfl

/-- Joined words begin with a word. -/
theorem head?_joinWords (text : List Char) : ∀ c ∈ (joinWords text).head?, isSpace c = false := by
  unfold joinWords
  cases hwords : words isSpace text with
  | nil => nofun
  | cons word more =>
    obtain ⟨hne, hword⟩ := of_mem_words (hwords ▸ List.mem_cons_self : word ∈ words isSpace text)
    rw [head?_spaced hne]
    exact fun c hc => hword c (List.mem_of_mem_head? hc)

/-- So does what `normalize_text` returns. -/
theorem head?_normalizeText (value : String) :
    ∀ c ∈ (normalizeText value).toList.head?, isSpace c = false := by
  rw [toList_normalizeText]
  exact head?_joinWords value.toList

/-- Joining words rewrites a text whose fixed characters are no whitespace. -/
theorem Rewrites.joinWords {fixed : List Char} {fresh : Char → Prop}
    (hfixed : ∀ c ∈ fixed, isSpace c = false) (hspace : fresh ' ') (text : List Char) :
    Rewrites fixed fresh text (joinWords text) := by
  have hbreaks : ∀ {breaks : List Char}, (∀ c ∈ breaks, isSpace c = true) →
      Rewrites fixed fresh breaks [] := by
    intro breaks hall
    refine Rewrites.dropped fun c hc hmem => ?_
    simpa [hfixed c hmem] using hall c hc
  unfold Bisakerja.joinWords
  induction hn : text.length using Nat.strong_induction_on generalizing text with
  | _ n ih =>
    rcases breaks_or_word isSpace text with hall | ⟨breaks, word, rest, rfl, hall, hne, hword, hrest⟩
    · rw [words_eq_nil hall]
      exact hbreaks hall
    · rw [words_breaks_word hall hne hword hrest]
      refine (hbreaks hall).append ?_
      cases rest with
      | nil =>
        rw [words_nil, List.append_nil]
        exact Rewrites.refl word
      | cons c rest =>
        have hc : isSpace c = true := hrest c rfl
        rw [words_cons_break hc]
        simp only [List.length_append, List.length_cons] at hn
        have hmore := ih rest.length (by omega) rest rfl
        cases hwords : words isSpace rest with
        | nil =>
          rw [hwords] at hmore
          have hgone : Rewrites fixed fresh (c :: rest) [] :=
            hbreaks (List.forall_mem_cons.mpr ⟨hc, words_eq_nil_iff.mp hwords⟩)
          simpa [spaced] using (Rewrites.refl word).append hgone
        | cons next more =>
          rw [hwords] at hmore
          have hcnot : ∀ d ∈ [c], d ∉ fixed := by
            intro d hd hmem
            obtain rfl := List.mem_singleton.mp hd
            simp [hfixed d hmem] at hc
          have hnew : ∀ d ∈ [' '], d ∈ [c] ∨ fresh d := by
            simpa using .inr hspace
          exact (Rewrites.refl word).append (hmore.swap (List.cons_ne_nil c []) hcnot hnew)

/-! ### Texts without markup -/

/-- A text with a tag encloses something. -/
theorem encloses_of_hasHtmlTag {text : List Char} (h : hasHtmlTag text = true) :
    Encloses '<' '>' text := by
  induction text with
  | nil => cases h
  | cons c rest ih =>
    simp only [hasHtmlTag, Bool.or_eq_true, Bool.and_eq_true, decide_eq_true_eq,
      Bool.not_eq_true'] at h
    rcases h with ⟨⟨rfl, hinside⟩, hbehind⟩ | h
    · have hclosing : '>' ∈ rest := by
        simpa using hbehind
      obtain ⟨inside, back, rfl, hnot⟩ := List.eq_append_cons_of_mem hclosing
      refine ⟨[], inside, back, rfl, hnot, ?_⟩
      rintro rfl
      simp at hinside
    · exact (ih h).of_piece (List.suffix_cons c rest).isInfix

/-- A tag is matched at its opening, and nowhere else. -/
theorem htmlTagPattern_matchAt_ne_none_iff {before : Option Char} {text : List Char} :
    htmlTagPattern.matchAt before text ≠ none ↔
      ∃ inside back, text = '<' :: (inside ++ '>' :: back) ∧ inside ≠ [] ∧ '>' ∉ inside := by
  have hblind : htmlTagPattern.Blind := by
    simp [htmlTagPattern, sequence, nothing, Regex.Blind]
  have hspells : ∀ word, htmlTagPattern.Spells word ↔
      ∃ inside, word = '<' :: (inside ++ ['>']) ∧ inside ≠ [] ∧ '>' ∉ inside := by
    intro word
    constructor
    · rintro ⟨_, _, rfl, ⟨c, hc, rfl⟩, _, _, rfl, ⟨d, hd, rfl⟩, inside, _, rfl, hinside, _, _, rfl,
        ⟨e, he, rfl⟩, rfl, -⟩
      have hc : c = '<' := by simpa using hc
      have hd : d ≠ '>' := by simpa using hd
      have he : e = '>' := by simpa using he
      subst hc he
      refine ⟨d :: inside, by simp, List.cons_ne_nil d inside, fun hmem => ?_⟩
      rcases List.mem_cons.mp hmem with rfl | hmem
      · exact hd rfl
      · simpa using hinside '>' hmem
    · rintro ⟨inside, rfl, hne, hnot⟩
      obtain ⟨d, inside, rfl⟩ := List.exists_cons_of_ne_nil hne
      obtain ⟨hd, hmore⟩ := not_or.mp (List.mem_cons.not.mp hnot)
      refine ⟨['<'], _, rfl, ⟨'<', rfl, rfl⟩, [d], _, rfl, ⟨d, by simpa using Ne.symm hd, rfl⟩,
        inside, _, rfl, fun e he => ?_, ['>'], [], rfl, ⟨'>', rfl, rfl⟩, rfl, fun _ _ => rfl⟩
      have hne : e ≠ '>' := fun heq => hmore (heq ▸ he)
      simpa using hne
  rw [Regex.matchAt_ne_none_iff_spells hblind rfl]
  constructor
  · rintro ⟨_, rest, rfl, hword⟩
    obtain ⟨inside, rfl, hne, hnot⟩ := (hspells _).mp hword
    exact ⟨inside, rest, by simp, hne, hnot⟩
  · rintro ⟨inside, back, rfl, hne, hnot⟩
    exact ⟨_, back, by simp, (hspells _).mpr ⟨inside, rfl, hne, hnot⟩⟩

/-- Once its tags are replaced by spaces, a text encloses nothing. -/
theorem not_encloses_sub (text : List Char) :
    ¬ Encloses '<' '>' (htmlTagPattern.sub (fun _ => [' ']) text) := by
  -- what is left also has no closing of its own, and begins with one where the text does
  refine (htmlTagPattern.scan_induction (motive := fun text chunks =>
    ¬ Encloses '<' '>' (chunks.flatMap (Chunk.replaced fun _ => [' '])) ∧
      ('>' ∈ chunks.flatMap (Chunk.replaced fun _ => [' ']) → '>' ∈ text) ∧
      (text.head? = some '>' →
        (chunks.flatMap (Chunk.replaced fun _ => [' '])).head? = some '>'))
    ⟨?_, nofun, nofun⟩ (fun before c rest chunks hnone ih => ?_)
    (fun before text taken groups chunks hsome ih => ?_) none text).1
  · rintro ⟨front, _, _, h, -⟩
    simp at h
  · obtain ⟨hnot, hclosing, hhead⟩ := ih
    rw [List.flatMap_cons]
    generalize chunks.flatMap (Chunk.replaced fun _ => [' ']) = left at hnot hclosing hhead ⊢
    change ¬ Encloses '<' '>' (c :: left) ∧ ('>' ∈ c :: left → _) ∧ (_ → some c = some '>')
    refine ⟨?_, fun hmem => ?_, id⟩
    · rintro ⟨front, inside, back, heq, hinside, hne⟩
      cases front with
      | nil =>
        obtain ⟨rfl, hleft⟩ := List.cons.inj heq
        refine htmlTagPattern_matchAt_ne_none_iff.mpr ?_ hnone
        obtain ⟨inside', back', rfl, hnot'⟩ :=
          List.eq_append_cons_of_mem (hclosing (by simp [hleft]))
        refine ⟨inside', back', rfl, ?_, hnot'⟩
        rintro rfl
        obtain ⟨d, inside, rfl⟩ := List.exists_cons_of_ne_nil hne
        have hd := hhead rfl
        rw [hleft, List.cons_append, List.head?_cons, Option.some.injEq] at hd
        simp [hd] at hinside
      | cons d front => exact hnot ⟨front, inside, back, (List.cons.inj heq).2, hinside, hne⟩
    · rcases List.mem_cons.mp hmem with rfl | hmem
      · exact List.mem_cons_self
      · exact List.mem_cons_of_mem c (hclosing hmem)
  · obtain ⟨hnot, hclosing, -⟩ := ih
    rw [List.flatMap_cons]
    generalize chunks.flatMap (Chunk.replaced fun _ => [' ']) = left at hnot hclosing ⊢
    change ¬ Encloses '<' '>' (' ' :: left) ∧ ('>' ∈ ' ' :: left → _) ∧ _
    refine ⟨?_, fun hmem => ?_, fun hhead => ?_⟩
    · rintro ⟨front, inside, back, heq, hinside, hne⟩
      cases front with
      | nil => simp at heq
      | cons d front => exact hnot ⟨front, inside, back, (List.cons.inj heq).2, hinside, hne⟩
    · rcases List.mem_cons.mp hmem with heq | hmem
      · cases heq
      · exact List.drop_subset _ _ (hclosing hmem)
    · have hmatch : htmlTagPattern.matchAt before text ≠ none := by
        rw [hsome]
        exact Option.some_ne_none _
      obtain ⟨inside, back, rfl, -⟩ := htmlTagPattern_matchAt_ne_none_iff.mp hmatch
      cases hhead

/-! ### Plain texts -/

/-- A text without markup and without visual noise. -/
structure IsPlain (text : List Char) : Prop where
  tags : ¬ Encloses '<' '>' text
  visible : ∀ c ∈ text, visibleChars c = [c]

/-- The characters that replacements write. -/
def IsFresh (c : Char) : Prop := visibleChars c = [c] ∧ c ∉ ['<', '>']

instance (c : Char) : Decidable (IsFresh c) := inferInstanceAs (Decidable (_ ∧ _))

theorem visibleChars_of_mem {c d : Char} (h : d ∈ visibleChars c) : visibleChars d = [d] := by
  unfold visibleChars at h
  split at h
  · rw [List.mem_singleton.mp h]
    decide
  · next hpicture =>
    split at h
    · cases h
    · next hinvisible =>
      split at h
      · rw [List.mem_singleton.mp h]
        decide
      · next hmark =>
        obtain rfl := List.mem_singleton.mp h
        rw [visibleChars, if_neg hpicture, if_neg hinvisible, if_neg hmark]

theorem stripVisualNoise_of_visible {text : List Char} (h : ∀ c ∈ text, visibleChars c = [c]) :
    stripVisualNoise text = text := by
  induction text with
  | nil => rfl
  | cons c text ih =>
    obtain ⟨hc, htext⟩ := List.forall_mem_cons.mp h
    unfold stripVisualNoise at ih ⊢
    rw [List.flatMap_cons, hc, ih htext, List.singleton_append]

theorem infix_strip (value : String) : (strip value).toList <:+: value.toList := by
  unfold strip
  rw [String.toList_ofList]
  exact (List.rdropWhile_prefix isSpace _).isInfix.trans (List.dropWhile_suffix isSpace).isInfix

namespace IsPlain

variable {a b : List Char}

theorem nil : IsPlain [] := ⟨fun ⟨_, _, _, h, _⟩ => by simp at h, nofun⟩

theorem piece (h : IsPlain a) (hpiece : b <:+: a) : IsPlain b :=
  ⟨fun htag => h.tags (htag.of_piece hpiece), fun c hc => h.visible c (hpiece.subset hc)⟩

/-- Rewriting around the brackets keeps a text plain. -/
theorem rewrites (h : IsPlain a) (hrewrites : Rewrites ['<', '>'] IsFresh a b) : IsPlain b where
  tags htag := h.tags (hrewrites.encloses (fun _ => And.right) (by simp) (by simp) htag)
  visible c hc := (hrewrites.mem hc).elim (h.visible c) And.left

theorem hasHtmlTag (h : IsPlain a) : hasHtmlTag a = false := by
  by_contra htag
  exact h.tags (encloses_of_hasHtmlTag (by simpa using htag))

theorem joinWords (h : IsPlain a) : IsPlain (joinWords a) :=
  h.rewrites (Rewrites.joinWords (by decide) (by decide) a)

theorem replaceChars (h : IsPlain a) (old new : String) (hne : old.toList ≠ [])
    (hold : ∀ c ∈ old.toList, c ∉ ['<', '>']) (hnew : ∀ c ∈ new.toList, IsFresh c) :
    IsPlain (replaceChars old new a) :=
  h.rewrites (Rewrites.replaceFrom hne hold hnew a)

theorem strip {value : String} (h : IsPlain value.toList) : IsPlain (strip value).toList :=
  h.piece (infix_strip value)

theorem blockChars (h : IsPlain a) : IsPlain (RelationText.blockChars a) :=
  ((h.replaceChars "•" ". " (by decide) (by decide) (by decide)).replaceChars " - " ". " (by decide)
    (by decide) (by decide)).joinWords

theorem sub (h : IsPlain a) {re : TextPattern} (hre : re.avoids ['<', '>'] = true)
    {replacement : List (List Char) → List Char}
    (hnew : ∀ groups, ∀ c ∈ replacement groups, (∃ group ∈ groups, c ∈ group) ∨ IsFresh c) :
    IsPlain (re.sub replacement a) := h.rewrites (Rewrites.sub hre hnew a)

/-- A text is plain once its noise is stripped and its tags are replaced. -/
theorem sub_stripVisualNoise (text : List Char) :
    IsPlain (htmlTagPattern.sub (fun _ => [' ']) (stripVisualNoise text)) where
  tags := not_encloses_sub _
  visible c hc := by
    have hrewrites : Rewrites [] IsFresh (stripVisualNoise text)
        (htmlTagPattern.sub (fun _ => [' ']) (stripVisualNoise text)) :=
      Rewrites.sub rfl (fun _ d hd => .inr (by rw [List.mem_singleton.mp hd]; decide)) _
    rcases hrewrites.mem hc with hmem | hfresh
    · obtain ⟨d, -, hd⟩ := List.mem_flatMap.mp hmem
      exact visibleChars_of_mem hd
    · exact hfresh.1

end IsPlain

end Bisakerja
