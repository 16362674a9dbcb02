import Mathlib.Data.List.DropRight
import Mathlib.Data.List.Infix

/-! Patterns that backtrack.

    A pattern tells, at a place of a text, where its matches end, those first that a backtracking
    matcher tries first: the left of two choices, the longest of a repetition. A scan goes through a
    text from match to match; replacing, splitting and collecting all read its chunks. -/

namespace Schemes

universe u
variable {α : Type u}

/-- A pattern. A look tests the elements before and behind a place, and takes none. -/
inductive Regex (α : Type u) where
  | look (p : Option α → Option α → Bool)
  | one (p : α → Bool)
  | many (p : α → Bool)
  | seq (first second : Regex α)
  | alt (left right : Regex α)
  | group (inner : Regex α)

/-- A place in a text, with what the groups have taken on the way. -/
structure Cursor (α : Type u) where
  before : Option α
  rest : List α
  groups : List (List α) := []

/-- The places behind as many elements as there are, then behind one less, and so on. -/
def manyEnds (p : α → Bool) (groups : List (List α)) : Option α → List α → List (Cursor α)
  | before, [] => [{ before, rest := [], groups }]
  | before, c :: rest =>
    (if p c then manyEnds p groups (some c) rest else []) ++ [{ before, rest := c :: rest, groups }]

namespace Regex

/-- Where the matches of a pattern end. -/
def ends : Regex α → Cursor α → List (Cursor α)
  | look p, place => if p place.before place.rest.head? then [place] else []
  | one p, place =>
    match place.rest with
    | [] => []
    | c :: rest => if p c then [{ place with before := some c, rest }] else []
  | many p, place => manyEnds p place.groups place.before place.rest
  | seq first second, place => (first.ends place).flatMap second.ends
  | alt left right, place => left.ends place ++ right.ends place
  | group inner, place => (inner.ends place).map fun behind =>
    { behind with
      groups := behind.groups ++ [place.rest.take (place.rest.length - behind.rest.length)] }

/-- The first match at a place that takes something: how much, and what its groups took. -/
def matchAt (re : Regex α) (before : Option α) (text : List α) : Option (ℕ × List (List α)) :=
  match (re.ends { before, rest := text }).head? with
  | some behind =>
    if behind.rest.length < text.length then
      some (text.length - behind.rest.length, behind.groups)
    else none
  | none => none

/-- The pattern matches the text as a whole. -/
def fullMatch (re : Regex α) (text : List α) : Bool :=
  (re.ends { before := none, rest := text }).any fun behind => behind.rest.isEmpty

end Regex

/-- A piece of a scanned text: one element between two matches, or a match with its groups. -/
inductive Chunk (α : Type u) where
  | plain (c : α)
  | found (text : List α) (groups : List (List α))

/-- What a piece was in the text. -/
def Chunk.text : Chunk α → List α
  | .plain c => [c]
  | .found text _ => text

/-- What a piece becomes when matches are replaced. -/
def Chunk.replaced (replacement : List (List α) → List α) : Chunk α → List α
  | .plain c => [c]
  | .found _ groups => replacement groups

namespace Regex

/-- The pieces of a text, once some elements have been skipped. -/
def scanFrom (re : Regex α) : ℕ → Option α → List α → List (Chunk α)
  | _, _, [] => []
  | skip + 1, _, c :: rest => scanFrom re skip (some c) rest
  | 0, before, c :: rest =>
    match re.matchAt before (c :: rest) with
    | some (taken, groups) =>
      .found ((c :: rest).take taken) groups :: scanFrom re (taken - 1) (some c) rest
    | none => .plain c :: scanFrom re 0 (some c) rest

/-- The pieces of a text. -/
def scan (re : Regex α) (text : List α) : List (Chunk α) := re.scanFrom 0 none text

/-- There is a match in the text. -/
def search (re : Regex α) (text : List α) : Bool :=
  (re.scan text).any fun chunk => match chunk with
    | .plain _ => false
    | .found _ _ => true

/-- The text with its matches replaced. -/
def sub (re : Regex α) (replacement : List (List α) → List α) (text : List α) : List α :=
  (re.scan text).flatMap (Chunk.replaced replacement)

/-- The texts of the matches. -/
def findAll (re : Regex α) (text : List α) : List (List α) :=
  (re.scan text).filterMap fun chunk => match chunk with
    | .plain _ => none
    | .found text _ => some text

end Regex

/-- The pieces between the matches, behind some plain elements. -/
def pieces : List α → List (Chunk α) → List (List α)
  | piece, [] => [piece]
  | piece, .plain c :: chunks => pieces (piece ++ [c]) chunks
  | piece, .found _ _ :: chunks => piece :: pieces [] chunks

/-- The pieces of a text between the matches. -/
def Regex.split (re : Regex α) (text : List α) : List (List α) := pieces [] (re.scan text)

/-! ### Where matches end -/

section Ends

variable {p : α → Bool} {place behind : Cursor α}

/-- No element of a list is taken by the pattern. -/
def Regex.avoids (bad : List α) : Regex α → Bool
  | .look _ => true
  | .one p => bad.all (!p ·)
  | .many p => bad.all (!p ·)
  | .seq first second => first.avoids bad && second.avoids bad
  | .alt left right => left.avoids bad && right.avoids bad
  | .group inner => inner.avoids bad

/-- What lies between a place and the end of a match there: none of it is avoided, and what the
    groups took is within. -/
structure Taken (bad : List α) (place behind : Cursor α) (taken : List α) : Prop where
  rest : place.rest = taken ++ behind.rest
  before : behind.before = taken.getLast?.or place.before
  avoided : ∀ c ∈ taken, c ∉ bad
  groups : ∀ group ∈ behind.groups, group ∈ place.groups ∨ group <:+: taken

variable {bad : List α}

theorem Taken.refl (place : Cursor α) : Taken bad place place [] :=
  ⟨rfl, by simp, nofun, fun _ => .inl⟩

theorem Taken.trans {place middle behind : Cursor α} {first second : List α}
    (h : Taken bad place middle first) (h' : Taken bad middle behind second) :
    Taken bad place behind (first ++ second) where
  rest := by rw [h.rest, h'.rest, List.append_assoc]
  before := by
    rw [h'.before, h.before, List.getLast?_append, ← Option.or_assoc]
  avoided c hc := (List.mem_append.mp hc).elim (h.avoided c) (h'.avoided c)
  groups group hgroup := by
    rcases h'.groups group hgroup with hold | hnew
    · exact (h.groups group hold).imp_right fun hwithin => hwithin.trans (List.infix_append' [] _ _)
    · exact .inr (hnew.trans (List.suffix_append _ _).isInfix)

/-- A repetition ends behind elements it takes. -/
theorem taken_of_mem_manyEnds (hp : bad.all (!p ·) = true) {groups : List (List α)}
    {before : Option α} {text : List α} (h : behind ∈ manyEnds p groups before text) :
    ∃ taken, Taken bad { before, rest := text, groups } behind taken ∧ ∀ c ∈ taken, p c = true := by
  induction text generalizing before with
  | nil =>
    obtain rfl := List.mem_singleton.mp h
    exact ⟨[], Taken.refl _, nofun⟩
  | cons c text ih =>
    rw [manyEnds] at h
    rcases List.mem_append.mp h with hmore | hhere
    · split at hmore
      · next hc =>
        obtain ⟨taken, htaken, hall⟩ := ih hmore
        have hbad : c ∉ bad := fun hmem => by simpa [hc] using List.all_eq_true.mp hp c hmem
        have hfirst : Taken bad { before, rest := c :: text, groups }
            { before := some c, rest := text, groups } [c] :=
          ⟨rfl, rfl, by simpa using hbad, fun _ => .inl⟩
        exact ⟨[c] ++ taken, hfirst.trans htaken, by simpa [hc] using hall⟩
      · cases hmore
    · obtain rfl := List.mem_singleton.mp hhere
      exact ⟨[], Taken.refl _, nofun⟩

/-- A match ends behind elements that are not avoided. -/
theorem Regex.taken_of_mem_ends {re : Regex α} (hre : re.avoids bad = true)
    (h : behind ∈ re.ends place) : ∃ taken, Taken bad place behind taken := by
  induction re generalizing place behind with
  | look p =>
    rw [Regex.ends] at h
    split at h
    · obtain rfl := List.mem_singleton.mp h
      exact ⟨[], Taken.refl _⟩
    · cases h
  | one p =>
    obtain ⟨before, text, groups⟩ := place
    cases text with
    | nil => cases h
    | cons c text =>
      simp only [Regex.ends] at h
      split at h
      · next hc =>
        obtain rfl := List.mem_singleton.mp h
        have hbad : c ∉ bad := fun hmem => by simpa [hc] using List.all_eq_true.mp hre c hmem
        exact ⟨[c], rfl, rfl, by simpa using hbad, fun _ => .inl⟩
      · cases h
  | many p =>
    obtain ⟨taken, htaken, -⟩ := taken_of_mem_manyEnds hre h
    exact ⟨taken, htaken⟩
  | seq first second ihFirst ihSecond =>
    obtain ⟨hfirst, hsecond⟩ := Bool.and_eq_true_iff.mp hre
    obtain ⟨middle, hmiddle, hbehind⟩ := List.mem_flatMap.mp h
    obtain ⟨front, hfront⟩ := ihFirst hfirst hmiddle
    obtain ⟨back, hback⟩ := ihSecond hsecond hbehind
    exact ⟨front ++ back, hfront.trans hback⟩
  | alt left right ihLeft ihRight =>
    obtain ⟨hleft, hright⟩ := Bool.and_eq_true_iff.mp hre
    exact (List.mem_append.mp h).elim (ihLeft hleft) (ihRight hright)
  | group inner ih =>
    obtain ⟨inside, hinside, rfl⟩ := List.mem_map.mp h
    obtain ⟨taken, htaken⟩ := ih hre hinside
    refine ⟨taken, htaken.rest, htaken.before, htaken.avoided, fun group hgroup => ?_⟩
    rcases List.mem_append.mp hgroup with hold | hnew
    · exact htaken.groups group hold
    · obtain rfl := List.mem_singleton.mp hnew
      rw [htaken.rest]
      simp

end Ends

/-! ### Chunks -/

section Scan

variable {re : Regex α} {bad : List α} {before : Option α} {text : List α}

/-- A match takes something, and no more than there is. -/
theorem Regex.matchAt_eq_some {taken : ℕ} {groups : List (List α)}
    (h : re.matchAt before text = some (taken, groups)) :
    0 < taken ∧ ∃ behind ∈ re.ends { before, rest := text },
      behind.groups = groups ∧ taken = text.length - behind.rest.length ∧
        behind.rest.length < text.length := by
  unfold Regex.matchAt at h
  split at h
  · next behind hhead =>
    split at h
    · next hlt =>
      cases h
      exact ⟨by omega, behind, List.mem_of_mem_head? hhead, rfl, rfl, hlt⟩
    · cases h
  · cases h

/-- Where nothing matches the scan goes on. -/
theorem Regex.scanFrom_of_none {c : α} {rest : List α} (h : re.matchAt before (c :: rest) = none) :
    re.scanFrom 0 before (c :: rest) = .plain c :: re.scanFrom 0 (some c) rest := by
  rw [Regex.scanFrom, h]

/-- Skipped elements are not scanned. -/
theorem Regex.scanFrom_skip (re : Regex α) (skip : ℕ) (before : Option α) (text : List α) :
    ∃ before', re.scanFrom skip before text = re.scanFrom 0 before' (text.drop skip) := by
  induction text generalizing skip before with
  | nil => exact ⟨before, by cases skip <;> rfl⟩
  | cons c rest ih =>
    cases skip with
    | zero => exact ⟨before, rfl⟩
    | succ skip => exact ih skip (some c)

/-- Behind a match the scan goes on. -/
theorem Regex.scanFrom_of_some {taken : ℕ} {groups : List (List α)}
    (h : re.matchAt before text = some (taken, groups)) : ∃ before',
      re.scanFrom 0 before text
        = .found (text.take taken) groups :: re.scanFrom 0 before' (text.drop taken) := by
  obtain ⟨hpos, behind, -, -, -, hlt⟩ := Regex.matchAt_eq_some h
  cases text with
  | nil => cases hlt
  | cons c rest =>
    obtain ⟨skip, rfl⟩ : ∃ skip, taken = skip + 1 := ⟨taken - 1, by omega⟩
    obtain ⟨before', hskip⟩ := re.scanFrom_skip skip (some c) rest
    refine ⟨before', ?_⟩
    rw [Regex.scanFrom, h]
    exact congrArg _ hskip

/-- A property of a scan holds when it holds of the empty text and goes on from the rest of a text,
    behind an element that begins no match or behind a match. -/
theorem Regex.scan_induction (re : Regex α) {motive : List α → List (Chunk α) → Prop}
    (nil : motive [] [])
    (plain : ∀ before c rest chunks, re.matchAt before (c :: rest) = none → motive rest chunks →
      motive (c :: rest) (.plain c :: chunks))
    (found : ∀ before text taken groups chunks, re.matchAt before text = some (taken, groups) →
      motive (text.drop taken) chunks → motive text (.found (text.take taken) groups :: chunks))
    (before : Option α) (text : List α) : motive text (re.scanFrom 0 before text) := by
  induction hn : text.length using Nat.strong_induction_on generalizing text before with
  | _ n ih =>
    cases text with
    | nil => exact nil
    | cons c rest =>
      cases hmatch : re.matchAt before (c :: rest) with
      | none =>
        rw [Regex.scanFrom_of_none hmatch]
        exact plain before c rest _ hmatch (ih rest.length (by simp [← hn]) (some c) rest rfl)
      | some result =>
        obtain ⟨taken, groups⟩ := result
        obtain ⟨hpos, -⟩ := Regex.matchAt_eq_some hmatch
        obtain ⟨before', hscan⟩ := Regex.scanFrom_of_some hmatch
        rw [hscan]
        refine found before _ taken groups _ hmatch (ih _ ?_ before' _ rfl)
        rw [← hn, List.length_drop, List.length_cons]
        omega

/-- The chunks of a text make it up. -/
theorem Regex.flatMap_text_scan (re : Regex α) (text : List α) :
    (re.scan text).flatMap Chunk.text = text := by
  refine re.scan_induction (motive := fun text chunks => chunks.flatMap Chunk.text = text) rfl
    (fun _ c rest chunks _ ih => ?_) (fun _ text taken groups chunks _ ih => ?_) none text
  · rw [List.flatMap_cons, ih]
    rfl
  · rw [List.flatMap_cons, ih]
    exact List.take_append_drop taken text

/-- A match that is found is not empty, has nothing that is avoided, and its groups are within. -/
theorem Regex.found_of_mem_scan (hre : re.avoids bad = true) {found : List α}
    {groups : List (List α)} (h : .found found groups ∈ re.scan text) :
    found ≠ [] ∧ (∀ c ∈ found, c ∉ bad) ∧ ∀ group ∈ groups, group <:+: found := by
  revert h
  refine re.scan_induction (motive := fun _ chunks => .found found groups ∈ chunks → found ≠ [] ∧
    (∀ c ∈ found, c ∉ bad) ∧ ∀ group ∈ groups, group <:+: found) nofun
    (fun _ c rest chunks _ ih hmem => ?_) (fun before text taken gs chunks hmatch ih hmem => ?_)
    none text
  · rcases List.mem_cons.mp hmem with heq | hmem
    · cases heq
    · exact ih hmem
  · rcases List.mem_cons.mp hmem with heq | hmem
    · obtain ⟨hpos, behind, hbehind, hgroups, htaken, hlt⟩ := Regex.matchAt_eq_some hmatch
      obtain ⟨eaten, heaten⟩ := Regex.taken_of_mem_ends hre hbehind
      have htext : text = eaten ++ behind.rest := heaten.rest
      have hfront : text.take taken = eaten := by
        rw [htaken, htext]
        simp
      rw [hfront] at heq
      cases heq
      refine ⟨?_, heaten.avoided, fun group hgroup => ?_⟩
      · rintro rfl
        simp [htext] at hlt
      · rw [← hgroups] at hgroup
        exact (heaten.groups group hgroup).resolve_left (List.not_mem_nil)
    · exact ih hmem

/-- The pieces of a split are pieces of the text. -/
theorem infix_of_mem_pieces {piece front : List α} {chunks : List (Chunk α)}
    (h : piece ∈ pieces front chunks) : piece <:+: front ++ chunks.flatMap Chunk.text := by
  induction chunks generalizing front with
  | nil =>
    obtain rfl := List.mem_singleton.mp h
    simp
  | cons chunk chunks ih =>
    cases chunk with
    | plain c => simpa [Chunk.text] using ih h
    | found found groups =>
      rcases List.mem_cons.mp h with rfl | h
      · exact (List.prefix_append _ _).isInfix
      · have hlater := ih h
        rw [List.nil_append] at hlater
        rw [List.flatMap_cons]
        exact hlater.trans ((List.suffix_append _ _).trans (List.suffix_append _ _)).isInfix

theorem Regex.infix_of_mem_split {piece : List α} (h : piece ∈ re.split text) : piece <:+: text := by
  have hwithin := infix_of_mem_pieces h
  rwa [List.nil_append, re.flatMap_text_scan] at hwithin

end Scan

/-! ### What a pattern spells -/

section Spells

variable {re : Regex α} {before : Option α} {text : List α}

/-- Every look of the pattern is the same everywhere. -/
def Regex.Blind : Regex α → Prop
  | .look p => (∀ before behind, p before behind = true) ∨ ∀ before behind, p before behind = false
  | .one _ => True
  | .many _ => True
  | .seq first second => first.Blind ∧ second.Blind
  | .alt left right => left.Blind ∧ right.Blind
  | .group inner => inner.Blind

/-- The texts of a pattern that looks nowhere. -/
def Regex.Spells : Regex α → List α → Prop
  | .look p, word => word = [] ∧ ∀ before behind, p before behind = true
  | .one p, word => ∃ c, p c = true ∧ word = [c]
  | .many p, word => ∀ c ∈ word, p c = true
  | .seq first second, word => ∃ front back, word = front ++ back ∧ first.Spells front ∧
      second.Spells back
  | .alt left right, word => left.Spells word ∨ right.Spells word
  | .group inner, word => inner.Spells word

theorem exists_manyEnds_iff {p : α → Bool} {groups : List (List α)} {rest : List α} :
    (∃ behind ∈ manyEnds p groups before text, behind.rest = rest) ↔
      ∃ word, text = word ++ rest ∧ ∀ c ∈ word, p c = true := by
  constructor
  · rintro ⟨behind, hbehind, rfl⟩
    have hnone : ([] : List α).all (!p ·) = true := rfl
    obtain ⟨taken, htaken, hall⟩ := taken_of_mem_manyEnds hnone hbehind
    exact ⟨taken, htaken.rest, hall⟩
  · rintro ⟨word, rfl, hall⟩
    induction word generalizing before with
    | nil => exact ⟨{ before, rest, groups }, by cases rest <;> simp [manyEnds], rfl⟩
    | cons c word ih =>
      obtain ⟨hc, hmore⟩ := List.forall_mem_cons.mp hall
      obtain ⟨behind, hbehind, hrest⟩ := @ih (some c) hmore
      refine ⟨behind, ?_, hrest⟩
      rw [List.cons_append, manyEnds, if_pos hc]
      exact List.mem_append_left _ hbehind

/-- A pattern that looks nowhere ends behind the texts it spells. -/
theorem Regex.exists_ends_iff (hblind : re.Blind) {place : Cursor α} {rest : List α} :
    (∃ behind ∈ re.ends place, behind.rest = rest) ↔
      ∃ word, place.rest = word ++ rest ∧ re.Spells word := by
  induction re generalizing place rest with
  | look p =>
    rcases hblind with htrue | hfalse
    · simp [Regex.ends, Regex.Spells, htrue]
    · have hnever : ¬ ∀ (before behind : Option α), p before behind = true := fun h => by
        simpa [hfalse] using h none none
      simp [Regex.ends, Regex.Spells, hfalse]
  | one p =>
    obtain ⟨before, text, groups⟩ := place
    cases text with
    | nil => simp [Regex.ends, Regex.Spells]
    | cons c text =>
      by_cases hc : p c = true <;> simp [Regex.ends, Regex.Spells, hc]
  | many p => exact exists_manyEnds_iff
  | seq first second ihFirst ihSecond =>
    simp only [Regex.ends, List.mem_flatMap, Regex.Spells]
    constructor
    · rintro ⟨behind, ⟨middle, hmiddle, hbehind⟩, rfl⟩
      obtain ⟨front, hfront, hspells⟩ := (ihFirst hblind.1).mp ⟨middle, hmiddle, rfl⟩
      obtain ⟨back, hback, hspells'⟩ := (ihSecond hblind.2).mp ⟨behind, hbehind, rfl⟩
      exact ⟨front ++ back, by rw [hfront, hback, List.append_assoc], front, back, rfl, hspells,
        hspells'⟩
    · rintro ⟨word, hword, front, back, rfl, hspells, hspells'⟩
      rw [List.append_assoc] at hword
      obtain ⟨middle, hmiddle, hrest⟩ := (ihFirst hblind.1).mpr ⟨front, hword, hspells⟩
      obtain ⟨behind, hbehind, hlast⟩ := (ihSecond hblind.2).mpr ⟨back, hrest, hspells'⟩
      exact ⟨behind, ⟨middle, hmiddle, hbehind⟩, hlast⟩
  | alt left right ihLeft ihRight =>
    have hleft : (∃ behind ∈ left.ends place, behind.rest = rest) ↔ _ := ihLeft hblind.1
    have hright : (∃ behind ∈ right.ends place, behind.rest = rest) ↔ _ := ihRight hblind.2
    simp only [Regex.ends, List.mem_append, Regex.Spells, or_and_right, and_or_left, exists_or,
      hleft, hright]
  | group inner ih =>
    have hinner : (∃ behind ∈ inner.ends place, behind.rest = rest) ↔ _ := ih hblind
    simpa [Regex.ends, Regex.Spells] using hinner

/-- With matches that take something, a place has a match as soon as one ends somewhere. -/
theorem Regex.matchAt_ne_none_iff
    (h : ∀ behind ∈ re.ends { before, rest := text }, behind.rest.length < text.length) :
    re.matchAt before text ≠ none ↔ ∃ behind, behind ∈ re.ends { before, rest := text } := by
  unfold Regex.matchAt
  cases hends : re.ends { before, rest := text } with
  | nil => simp
  | cons behind others =>
    have hlt := h behind (hends ▸ List.mem_cons_self)
    simp [hlt]

/-- The pattern takes something wherever it matches. -/
def Regex.takes : Regex α → Bool
  | .look _ => false
  | .one _ => true
  | .many _ => false
  | .seq first second => first.takes || second.takes
  | .alt left right => left.takes && right.takes
  | .group inner => inner.takes

theorem Regex.ne_nil_of_takes (htakes : re.takes = true) {word : List α} (h : re.Spells word) :
    word ≠ [] := by
  induction re generalizing word with
  | look p => cases htakes
  | one p =>
    obtain ⟨c, -, rfl⟩ := h
    exact List.cons_ne_nil c []
  | many p => cases htakes
  | seq first second ihFirst ihSecond =>
    obtain ⟨front, back, rfl, hfront, hback⟩ := h
    rcases Bool.or_eq_true_iff.mp htakes with hfirst | hsecond
    · exact List.append_ne_nil_of_left_ne_nil (ihFirst hfirst hfront) back
    · exact List.append_ne_nil_of_right_ne_nil front (ihSecond hsecond hback)
  | alt left right ihLeft ihRight =>
    obtain ⟨hleft, hright⟩ := Bool.and_eq_true_iff.mp htakes
    exact h.elim (ihLeft hleft) (ihRight hright)
  | group inner ih => exact ih htakes h

/-- A pattern that looks nowhere and takes something matches where a text of it begins. -/
theorem Regex.matchAt_ne_none_iff_spells (hblind : re.Blind) (htakes : re.takes = true) :
    re.matchAt before text ≠ none ↔ ∃ word rest, text = word ++ rest ∧ re.Spells word := by
  have hends : ∀ rest, (∃ behind ∈ re.ends { before, rest := text }, behind.rest = rest) ↔
      ∃ word, text = word ++ rest ∧ re.Spells word := fun _ => Regex.exists_ends_iff hblind
  rw [Regex.matchAt_ne_none_iff fun behind hbehind => ?_]
  · constructor
    · rintro ⟨behind, hbehind⟩
      obtain ⟨word, hword, hspells⟩ := (hends behind.rest).mp ⟨behind, hbehind, rfl⟩
      exact ⟨word, behind.rest, hword, hspells⟩
    · rintro ⟨word, rest, hword, hspells⟩
      obtain ⟨behind, hbehind, -⟩ := (hends rest).mpr ⟨word, hword, hspells⟩
      exact ⟨behind, hbehind⟩
  · obtain ⟨word, hword, hspells⟩ := (hends behind.rest).mp ⟨behind, hbehind, rfl⟩
    have hpos := List.length_pos_iff.mpr (Regex.ne_nil_of_takes htakes hspells)
    rw [hword, List.length_append]
    omega

/-- A search finds a match somewhere. -/
theorem Regex.search_iff : re.search text = true ↔
    ∃ front back, text = front ++ back ∧ re.matchAt front.getLast? back ≠ none := by
  have hfrom : ∀ before : Option α, ((re.scanFrom 0 before text).any fun chunk => match chunk with
      | .plain _ => false
      | .found _ _ => true) = true ↔
        ∃ front back, text = front ++ back ∧ re.matchAt (front.getLast?.or before) back ≠ none := by
    induction text with
    | nil =>
      intro before
      have hnone : ∀ before', re.matchAt before' [] = none := by
        intro before'
        unfold Regex.matchAt
        split <;> simp
      simp [Regex.scanFrom, hnone]
    | cons c rest ih =>
      intro before
      cases hmatch : re.matchAt before (c :: rest) with
      | none =>
        rw [Regex.scanFrom_of_none hmatch, List.any_cons, Bool.false_or, ih]
        constructor
        · rintro ⟨front, back, rfl, hfound⟩
          refine ⟨c :: front, back, rfl, ?_⟩
          rw [List.getLast?_cons]
          cases front <;> simpa using hfound
        · rintro ⟨front, back, hsplit, hfound⟩
          cases front with
          | nil =>
            obtain rfl : c :: rest = back := hsplit
            exact absurd hmatch (by simpa using hfound)
          | cons d front =>
            cases hsplit
            refine ⟨front, back, rfl, ?_⟩
            rw [List.getLast?_cons] at hfound
            cases front <;> simpa using hfound
      | some result =>
        obtain ⟨before', hscan⟩ := Regex.scanFrom_of_some hmatch
        rw [hscan]
        refine iff_of_true (by simp) ⟨[], c :: rest, rfl, ?_⟩
        simp [hmatch]
  simpa [Regex.search, Regex.scan] using hfrom none

end Spells

/-! ### Words -/

section Bounded

variable {isWord : α → Bool} {re : Regex α} {text rest : List α}

/-- A place with an element of a word on one side only. -/
def wordBoundary (isWord : α → Bool) (before behind : Option α) : Bool :=
  before.any isWord != behind.any isWord

/-- A pattern between two boundaries. -/
def Regex.bounded (isWord : α → Bool) (re : Regex α) : Regex α :=
  .seq (.look (wordBoundary isWord)) (.seq re (.look (wordBoundary isWord)))

theorem Regex.mem_ends_bounded {place behind : Cursor α} :
    behind ∈ (re.bounded isWord).ends place ↔
      wordBoundary isWord place.before place.rest.head? = true ∧ behind ∈ re.ends place ∧
        wordBoundary isWord behind.before behind.rest.head? = true := by
  simp only [Regex.bounded, Regex.ends]
  split
  · next hfirst =>
    simp only [List.flatMap_cons, List.flatMap_nil, List.append_nil, List.mem_flatMap]
    constructor
    · rintro ⟨middle, hmiddle, hbehind⟩
      split at hbehind
      · next hlast =>
        obtain rfl := List.mem_singleton.mp hbehind
        exact ⟨hfirst, hmiddle, hlast⟩
      · cases hbehind
    · rintro ⟨-, hbehind, hlast⟩
      exact ⟨behind, hbehind, by simp [hlast]⟩
  · next hfirst => simp [hfirst]

/-- A text of a pattern is found where it stands between two boundaries. -/
theorem Regex.search_bounded_iff (hblind : re.Blind) (htakes : re.takes = true) :
    (re.bounded isWord).search text = true ↔ ∃ front word back, text = front ++ (word ++ back) ∧
      re.Spells word ∧ wordBoundary isWord front.getLast? (word ++ back).head? = true ∧
        wordBoundary isWord word.getLast? back.head? = true := by
  have hnone : re.avoids [] = true := by
    clear hblind htakes
    induction re <;> simp_all [Regex.avoids]
  -- a match and the text it spells
  have hspelled : ∀ {place behind : Cursor α}, behind ∈ re.ends place → ∃ word,
      place.rest = word ++ behind.rest ∧ re.Spells word ∧ behind.before = word.getLast? := by
    intro place behind hbehind
    obtain ⟨word, hword, hspells⟩ := (Regex.exists_ends_iff hblind).mp ⟨behind, hbehind, rfl⟩
    obtain ⟨taken, htaken⟩ := Regex.taken_of_mem_ends hnone hbehind
    obtain rfl : taken = word := List.append_cancel_right (htaken.rest.symm.trans hword)
    refine ⟨taken, hword, hspells, ?_⟩
    rw [htaken.before, Option.or_of_isSome (by simpa using Regex.ne_nil_of_takes htakes hspells)]
  have hshorter : ∀ {before : Option α} {back : List α},
      ∀ behind ∈ (re.bounded isWord).ends { before, rest := back },
        behind.rest.length < back.length := by
    intro before back behind hbehind
    obtain ⟨word, hword, hspells, -⟩ := hspelled (Regex.mem_ends_bounded.mp hbehind).2.1
    have hpos := List.length_pos_iff.mpr (Regex.ne_nil_of_takes htakes hspells)
    change back = _ at hword
    rw [hword, List.length_append]
    omega
  rw [Regex.search_iff]
  constructor
  · rintro ⟨front, back, rfl, hmatch⟩
    obtain ⟨behind, hbehind⟩ := (Regex.matchAt_ne_none_iff hshorter).mp hmatch
    obtain ⟨hfirst, hinner, hlast⟩ := Regex.mem_ends_bounded.mp hbehind
    obtain ⟨word, hword, hspells, hbefore⟩ := hspelled hinner
    change back = _ at hword
    subst hword
    exact ⟨front, word, behind.rest, rfl, hspells, hfirst, hbefore ▸ hlast⟩
  · rintro ⟨front, word, back, rfl, hspells, hfirst, hlast⟩
    refine ⟨front, word ++ back, rfl, (Regex.matchAt_ne_none_iff hshorter).mpr ?_⟩
    let place : Cursor α := { before := front.getLast?, rest := word ++ back }
    have hplace : ∃ behind ∈ re.ends place, behind.rest = back :=
      (Regex.exists_ends_iff hblind).mpr ⟨word, rfl, hspells⟩
    obtain ⟨behind, hbehind, hrest⟩ := hplace
    obtain ⟨word', hword, hspells', hbefore⟩ := hspelled hbehind
    obtain rfl : word = word' := List.append_cancel_right (hword.trans (by rw [hrest]))
    refine ⟨behind, Regex.mem_ends_bounded.mpr ⟨hfirst, hbehind, ?_⟩⟩
    rw [hbefore, hrest]
    exact hlast

/-- What no word is in, behind a text, has no part in what is found. -/
theorem Regex.search_bounded_append (hblind : re.Blind) (htakes : re.takes = true)
    (hrest : ∀ c ∈ rest, isWord c = false) :
    (re.bounded isWord).search (text ++ rest) = (re.bounded isWord).search text := by
  have hhead : ∀ back : List α, (back ++ rest).head?.any isWord = back.head?.any isWord := by
    intro back
    cases back with
    | nil =>
      cases rest with
      | nil => rfl
      | cons c rest => simpa using hrest c List.mem_cons_self
    | cons c back => rfl
  rw [Bool.eq_iff_iff, Regex.search_bounded_iff hblind htakes, Regex.search_bounded_iff hblind htakes]
  constructor
  · rintro ⟨front, word, back, hsplit, hspells, hfirst, hlast⟩
    have hword := Regex.ne_nil_of_takes htakes hspells
    rw [← List.append_assoc] at hsplit
    obtain ⟨back', rfl, rfl⟩ : ∃ back', text = front ++ word ++ back' ∧ back = back' ++ rest := by
      rcases List.append_eq_append_iff.mp hsplit with ⟨excess, hexcess, hback⟩ | hwithin
      · rcases List.eq_nil_or_concat excess with rfl | ⟨excess, d, rfl⟩
        · exact ⟨[], by simpa using hexcess.symm, hback.symm⟩
        · -- a word that goes on behind the text ends without a boundary
          rw [List.concat_eq_append] at hexcess hback
          have hend : word.getLast? = some d := by
            have hlasts := congrArg List.getLast? hexcess
            rwa [List.getLast?_append_of_ne_nil _ hword, ← List.append_assoc,
              List.getLast?_concat] at hlasts
          have hd : isWord d = false := hrest d (by simp [hback])
          have hnot : back.head?.any isWord = false := by
            cases back with
            | nil => rfl
            | cons c back => exact hrest c (by simp [hback])
          simp [wordBoundary, hend, hd, hnot] at hlast
      · exact hwithin
    refine ⟨front, word, back', by rw [List.append_assoc], hspells, ?_, ?_⟩
    · obtain ⟨c, word, rfl⟩ := List.exists_cons_of_ne_nil hword
      exact hfirst
    · rw [wordBoundary, hhead] at hlast
      exact hlast
  · rintro ⟨front, word, back, rfl, hspells, hfirst, hlast⟩
    refine ⟨front, word, back ++ rest, by simp, hspells, ?_, ?_⟩
    · obtain ⟨c, word, rfl⟩ := List.exists_cons_of_ne_nil (Regex.ne_nil_of_takes htakes hspells)
      exact hfirst
    · rw [wordBoundary, hhead]
      exact hlast

theorem head?_append_any {c : α} (hc : isWord c = false) (back rest : List α) :
    (back ++ c :: rest).head?.any isWord = back.head?.any isWord := by
  cases back with
  | nil => simpa using hc
  | cons d back => rfl

theorem getLast?_append_any {c : α} (hc : isWord c = false) (rest front : List α) :
    (rest ++ c :: front).getLast?.any isWord = front.getLast?.any isWord := by
  rw [List.getLast?_append_of_ne_nil _ (List.cons_ne_nil c front), List.getLast?_cons]
  cases hlast : front.getLast? with
  | none => simpa using hc
  | some d => rfl

/-- Two texts side by side are searched one by one, where no text of the pattern lies across. -/
theorem Regex.search_bounded_join (hblind : re.Blind) (htakes : re.takes = true) {a b : List α}
    {c : α} (hc : isWord c = false)
    (hjoin : ∀ front back, re.Spells (front ++ c :: back) → front <:+ a → ¬ back <+: b) :
    (re.bounded isWord).search (a ++ c :: b)
      = ((re.bounded isWord).search a || (re.bounded isWord).search b) := by
  rw [Bool.eq_iff_iff, Bool.or_eq_true]
  simp only [Regex.search_bounded_iff hblind htakes]
  constructor
  · rintro ⟨front, word, back, hsplit, hspells, hfirst, hlast⟩
    have hword := Regex.ne_nil_of_takes htakes hspells
    rw [← List.append_assoc] at hsplit
    rcases List.append_eq_append_iff.mp hsplit with ⟨excess, hexcess, hback⟩ | ⟨behind, rfl, rfl⟩
    · cases excess with
      | nil =>
        -- the word ends where the first text does
        rw [List.append_nil] at hexcess
        rw [List.nil_append] at hback
        refine .inl ⟨front, word, [], by simpa using hexcess.symm, hspells, ?_, ?_⟩
        · rwa [List.append_nil, ← List.head?_append_of_ne_nil _ hword]
        · rw [← hback] at hlast
          simpa [wordBoundary, hc] using hlast
      | cons d excess =>
        obtain ⟨rfl, rfl⟩ := List.cons.inj hback
        rcases List.append_eq_append_iff.mp hexcess with ⟨inside, rfl, rfl⟩ | ⟨more, rfl, hmore⟩
        · exact absurd (List.prefix_append excess back)
            (hjoin inside excess hspells (List.suffix_append front inside))
        · cases more with
          | nil =>
            obtain rfl : c :: excess = word := hmore
            exact absurd (List.prefix_append excess back) (hjoin [] excess hspells (List.nil_suffix))
          | cons e more =>
            obtain ⟨rfl, rfl⟩ := List.cons.inj hmore
            refine .inr ⟨more, word, back, List.append_assoc more word back, hspells, ?_, hlast⟩
            rw [wordBoundary, getLast?_append_any hc] at hfirst
            exact hfirst
    · refine .inl ⟨front, word, behind, by rw [List.append_assoc], hspells, ?_, ?_⟩
      · obtain ⟨d, word, rfl⟩ := List.exists_cons_of_ne_nil hword
        exact hfirst
      · rw [wordBoundary, head?_append_any hc] at hlast
        exact hlast
  · rintro (⟨front, word, back, rfl, hspells, hfirst, hlast⟩ |
      ⟨front, word, back, rfl, hspells, hfirst, hlast⟩)
    · refine ⟨front, word, back ++ c :: b, by simp, hspells, ?_, ?_⟩
      · obtain ⟨d, word, rfl⟩ := List.exists_cons_of_ne_nil (Regex.ne_nil_of_takes htakes hspells)
        exact hfirst
      · rw [wordBoundary, head?_append_any hc]
        exact hlast
    · refine ⟨a ++ c :: front, word, back, by simp, hspells, ?_, hlast⟩
      rw [wordBoundary, getLast?_append_any hc]
      exact hfirst

end Bounded

/-! ### What trails

    Cut behind its last element of a kind, a text shows all that a search between boundaries of such
    elements can find. Two texts that are cut to the same one are searched alike. -/

section Trailing

variable {kept : α → Bool} {text tail a b : List α}

/-- A text up to its last kept element. -/
def trimmed (kept : α → Bool) (text : List α) : List α := text.rdropWhile (!kept ·)

theorem trimmed_eq_nil_iff : trimmed kept text = [] ↔ ∀ c ∈ text, kept c = false := by
  simp [trimmed, List.rdropWhile_eq_nil_iff]

/-- What is cut off has nothing that is kept. -/
theorem exists_eq_trimmed_append (kept : α → Bool) (text : List α) :
    ∃ tail, text = trimmed kept text ++ tail ∧ ∀ c ∈ tail, kept c = false := by
  refine ⟨text.rtakeWhile (!kept ·), List.rdropWhile_append_rtakeWhile.symm, fun c hc => ?_⟩
  simpa using List.mem_rtakeWhile_imp hc

/-- What has nothing that is kept is cut off. -/
theorem trimmed_append_of_none (htail : ∀ c ∈ tail, kept c = false) (text : List α) :
    trimmed kept (text ++ tail) = trimmed kept text := by
  induction tail using List.reverseRecOn with
  | nil => rw [List.append_nil]
  | append_singleton tail c ih =>
    have hc : (fun d => !kept d) c = true := by simp [htail c (by simp)]
    unfold trimmed at ih ⊢
    rw [← List.append_assoc, List.rdropWhile_concat_pos (fun d => !kept d) _ c hc]
    exact ih fun d hd => htail d (List.mem_append_left _ hd)

theorem trimmed_append_congr (front : List α) (h : trimmed kept a = trimmed kept b) :
    trimmed kept (front ++ a) = trimmed kept (front ++ b) := by
  obtain ⟨tail, ha, htail⟩ := exists_eq_trimmed_append kept a
  obtain ⟨tail', hb, htail'⟩ := exists_eq_trimmed_append kept b
  rw [ha, hb, ← List.append_assoc, ← List.append_assoc, trimmed_append_of_none htail,
    trimmed_append_of_none htail', h]

/-- What does not see the tail of a text does not see what is cut off. -/
theorem trimmed_congr {f : List α → List α}
    (hf : ∀ text tail, (∀ c ∈ tail, kept c = false) →
      trimmed kept (f (text ++ tail)) = trimmed kept (f text))
    (h : trimmed kept a = trimmed kept b) : trimmed kept (f a) = trimmed kept (f b) := by
  obtain ⟨tail, ha, htail⟩ := exists_eq_trimmed_append kept a
  obtain ⟨tail', hb, htail'⟩ := exists_eq_trimmed_append kept b
  rw [ha, hb, hf _ _ htail, hf _ _ htail', h]

/-- A search between boundaries sees only the text that is left. -/
theorem Regex.search_bounded_congr {re : Regex α} (hblind : re.Blind) (htakes : re.takes = true)
    (h : trimmed kept a = trimmed kept b) :
    (re.bounded kept).search a = (re.bounded kept).search b := by
  obtain ⟨tail, ha, htail⟩ := exists_eq_trimmed_append kept a
  obtain ⟨tail', hb, htail'⟩ := exists_eq_trimmed_append kept b
  rw [ha, hb, Regex.search_bounded_append hblind htakes htail,
    Regex.search_bounded_append hblind htakes htail', h]

end Trailing

end Schemes
