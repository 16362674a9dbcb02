import BisakerjaScraper.Jobs.DefaultsRaise
import BisakerjaScraper.Shared.DisplayCalls

/-! Whether the description of an accepted answer is display HTML.

    The answer's own description is sanitized, and the summary of a listing is escaped. What the
    quality guards take over from the evidence instead, or write from it, is stored as it is: it is
    escaped only if there is nothing in it to escape. -/

namespace Bisakerja
open Schemes

/-! ### Text that needs no escaping -/

/-- A text without `&`, `<` and `>`. -/
def isPlainText (s : String) : Bool := s.toList.all fun c => c ∉ ['&', '<', '>']

theorem isPlainText_append (a b : String) :
    isPlainText (a ++ b) = (isPlainText a && isPlainText b) := by
  simp [isPlainText, String.toList_append]

theorem isPlainText_joinText {sep : String} (hsep : isPlainText sep = true) (parts : List String) :
    isPlainText (joinText sep parts) = true ↔ ∀ part ∈ parts, isPlainText part = true := by
  induction parts with
  | nil => exact iff_of_true rfl (by simp)
  | cons part rest ih =>
    cases rest with
    | nil => simp [joinText]
    | cons next rest =>
      rw [joinText, isPlainText_append, isPlainText_append, hsep, List.forall_mem_cons, ← ih]
      · simp
      · exact List.cons_ne_nil _ _

/-- A token is written as no less than it shows, and as more unless it is a character that needs no
    escaping. -/
theorem chars_length (token : DisplayToken) :
    token.chars.length ≤ token.render.length ∧
      (token.render.length = token.chars.length → ∀ c ∈ token.chars, c ∉ ['&', '<', '>']) := by
  rcases token with tag | tag | - | c
  · exact ⟨by simp [DisplayToken.chars], fun _ => by simp [DisplayToken.chars]⟩
  · exact ⟨by simp [DisplayToken.chars], fun _ => by simp [DisplayToken.chars]⟩
  · exact ⟨by simp [DisplayToken.chars], fun _ => by simp [DisplayToken.chars]⟩
  · rcases escapeChar_cases c with rfl | rfl | rfl | ⟨hplain, heq⟩
    · exact ⟨by decide, fun h => absurd h (by decide)⟩
    · exact ⟨by decide, fun h => absurd h (by decide)⟩
    · exact ⟨by decide, fun h => absurd h (by decide)⟩
    · refine ⟨by simp [DisplayToken.chars, DisplayToken.render, heq], fun _ d hd => ?_⟩
      rw [List.mem_singleton.mp hd]
      exact hplain

theorem charsOf_length (tokens : List DisplayToken) :
    (charsOf tokens).length ≤ (renderTokens tokens).length ∧
      ((renderTokens tokens).length = (charsOf tokens).length →
        ∀ c ∈ charsOf tokens, c ∉ ['&', '<', '>']) := by
  induction tokens with
  | nil => exact ⟨le_rfl, fun _ => by simp [charsOf]⟩
  | cons token tokens ih =>
    obtain ⟨hle, hplain⟩ := chars_length token
    have hrender : renderTokens (token :: tokens) = token.render ++ renderTokens tokens := rfl
    have hchars : charsOf (token :: tokens) = token.chars ++ charsOf tokens := rfl
    rw [hrender, hchars, List.length_append, List.length_append]
    refine ⟨by omega, fun heq => ?_⟩
    rw [List.forall_mem_append]
    exact ⟨hplain (by omega), ih.2 (by omega)⟩

theorem escape_of_isPlainText {s : String} (h : isPlainText s = true) :
    escape s.toList = s.toList := by
  have hone : ∀ c ∈ s.toList, escapeChar c = [c] := by
    intro c hc
    have hplain : c ∉ ['&', '<', '>'] := by simpa using List.all_eq_true.mp h c hc
    rcases escapeChar_cases c with rfl | rfl | rfl | ⟨-, heq⟩
    · exact absurd (by decide) hplain
    · exact absurd (by decide) hplain
    · exact absurd (by decide) hplain
    · exact heq
  unfold escape
  rw [List.flatMap_congr hone]
  exact List.flatMap_singleton' _

/-- Display HTML that shows a text. -/
def Shows (html shown : String) : Prop :=
  ∃ tokens, WellNested tokens ∧ html = String.ofList (renderTokens tokens) ∧
    charsOf tokens = shown.toList

/-- A text is display HTML that shows it exactly where there is nothing in it to escape. -/
theorem shows_self_iff (s : String) : Shows s s ↔ isPlainText s = true := by
  constructor
  · rintro ⟨tokens, -, hrender, hchars⟩
    have hsame : renderTokens tokens = charsOf tokens := by
      rw [hchars, hrender, String.toList_ofList]
    have hplain := (charsOf_length tokens).2 (congrArg List.length hsame)
    rw [hchars] at hplain
    simpa [isPlainText] using hplain
  · intro hplain
    refine ⟨textTokens s.toList, wellNested_text _, ?_, ?_⟩
    · rw [renderTokens_textTokens, escape_of_isPlainText hplain, String.ofList_toList]
    · exact charsOf_textTokens s.toList

theorem Shows.isDisplayHtml {html shown : String} (h : Shows html shown) : IsDisplayHtml html := by
  obtain ⟨tokens, hnested, rfl, -⟩ := h
  exact isDisplayHtml_render hnested

/-! ### What the quality guards take over -/

/-- What a sentence about a job is written from, behind its title and its company. -/
def Evidence.pieces (evidence : Evidence) : List String :=
  if orText evidence.requirements "" ≠ "" then [orText evidence.requirements ""]
  else evidence.skills.take 8

theorem orText_some {s : String} (h : s ≠ "") (other : String) : orText (some s) other = s := by
  unfold orText
  split
  · next heq => exact absurd (Option.some.inj heq) h
  · next heq => exact (Option.some.inj heq).symm
  · next heq => cases heq

theorem isPlainText_orText {other : String} (hother : isPlainText other = true)
    (value : Option String) :
    isPlainText (orText value other) = isPlainText (orText value "") := by
  rcases value with - | value
  · exact hother
  · by_cases hempty : value = ""
    · subst hempty
      exact hother
    · rw [orText_some hempty, orText_some hempty]

/-- A sentence around a title and a company has nothing to escape but what they have. -/
theorem isPlainText_firstSentence {before between after other : String}
    (hbefore : isPlainText before = true) (hbetween : isPlainText between = true)
    (hafter : isPlainText after = true) (hother : isPlainText other = true) (title : String)
    (company : Option String) :
    isPlainText (before ++ title ++ between ++ orText company other ++ after) = true ↔
      isPlainText title = true ∧ isPlainText (orText company "") = true := by
  simp only [isPlainText_append, hbefore, hbetween, hafter, isPlainText_orText hother,
    Bool.true_and, Bool.and_true, Bool.and_eq_true]

/-- Nor has what follows the first sentence, but for the requirements or the skills. -/
theorem isPlainText_nextSentence {includes required : String} (hincludes : isPlainText includes = true)
    (hrequired : isPlainText required = true) (first : String) (evidence : Evidence) :
    isPlainText (if orText evidence.requirements "" ≠ "" then
        first ++ includes ++ orText evidence.requirements ""
      else if evidence.skills ≠ [] then
        first ++ required ++ joinText ", " (evidence.skills.take 8) ++ "."
      else first) = true ↔
      isPlainText first = true ∧ ∀ piece ∈ evidence.pieces, isPlainText piece = true := by
  unfold Evidence.pieces
  by_cases hrequirements : orText evidence.requirements "" ≠ ""
  · rw [if_pos hrequirements, if_pos hrequirements, List.forall_mem_singleton]
    simp only [isPlainText_append, hincludes, Bool.and_true, Bool.and_eq_true]
  · rw [if_neg hrequirements, if_neg hrequirements]
    by_cases hskills : evidence.skills ≠ []
    · have hcomma : isPlainText ", " = true := by decide
      have hend : isPlainText "." = true := by decide
      rw [if_pos hskills, ← isPlainText_joinText hcomma]
      simp only [isPlainText_append, hrequired, hend, Bool.and_true, Bool.and_eq_true]
    · rw [if_neg hskills, not_ne_iff.mp hskills]
      simp

/-- A sentence has nothing to escape where what it is written from has nothing. -/
theorem isPlainText_evidenceSentences (title : String) (company : Option String)
    (evidence : Evidence) (language : OutputLanguage) :
    isPlainText (NormalizationText.evidenceSentences title company evidence language) = true ↔
      isPlainText title = true ∧ isPlainText (orText company "") = true ∧
        ∀ piece ∈ evidence.pieces, isPlainText piece = true := by
  rw [← and_assoc]
  cases language with
  | english =>
    refine (isPlainText_nextSentence (by decide +kernel) (by decide +kernel) _ evidence).trans ?_
    rw [isPlainText_firstSentence (by decide) (by decide) (by decide +kernel) (by decide +kernel)]
  | indonesian =>
    refine (isPlainText_nextSentence (by decide +kernel) (by decide +kernel) _ evidence).trans ?_
    rw [isPlainText_firstSentence (by decide) (by decide) (by decide +kernel) (by decide +kernel)]

namespace NormalizationText

variable (text : NormalizationText)

/-- The text `_build_description_from_evidence` makes of what is read. -/
def generated (input : AINormalizationPromptInput) (job : CanonicalJobSchema) : Option String :=
  (text.rawEvidence input).toOption.bind fun evidence =>
    (text.descriptionFromEvidence job evidence input.outputLanguage).toOption.join

/-- The text the quality guards put in the place of a description without text. -/
def takenOver (input : AINormalizationPromptInput) (job : CanonicalJobSchema) : Option String :=
  if text.found (text.listed input job) = none then text.generated input job else none

/-- What a text the guards take over is made of: the description of the evidence, or else the title,
    the company, and the requirements or the first skills. -/
def takenPieces (input : AINormalizationPromptInput) (job : CanonicalJobSchema) : List String :=
  if text.found (text.listed input job) = none then
    match (text.rawEvidence input).toOption with
    | none => []
    | some evidence =>
      if orText evidence.description "" ≠ "" then [orText evidence.description ""]
      else
        match text.found (some job.title) with
        | none => []
        | some title =>
          title :: orText (text.found (some job.company.name)) "" :: evidence.pieces
  else []

/-- The description of an accepted answer is display HTML, and shows the text it was taken over
    from. -/
structure SafeDescription (input : AINormalizationPromptInput) (job completed : CanonicalJobSchema) :
    Prop where
  display : ∀ html ∈ completed.description, IsDisplayHtml html
  shows : ∀ shown ∈ text.takenOver input job, ∃ html ∈ completed.description, Shows html shown

/-- Nothing that is taken over needs to be escaped. -/
def PlainPieces (input : AINormalizationPromptInput) (job : CanonicalJobSchema) : Prop :=
  ∀ piece ∈ text.takenPieces input job, isPlainText piece = true

variable {text}

theorem evidenceSentences_ne_empty (title : String) (company : Option String) (evidence : Evidence)
    (language : OutputLanguage) : evidenceSentences title company evidence language ≠ "" := by
  unfold evidenceSentences
  cases language <;> dsimp only <;> split_ifs <;> simp [String.append_eq_empty_iff]

/-- A generated text: the description of the evidence, or the sentences about a job. -/
theorem descriptionFromEvidence_ok {job : CanonicalJobSchema} {evidence : Evidence}
    {language : OutputLanguage} {generated : Option String}
    (h : text.descriptionFromEvidence job evidence language = .ok generated) :
    (orText evidence.description "" ≠ "" ∧ generated = evidence.description) ∨
      orText evidence.description "" = "" ∧
        generated = (text.found (some job.title)).map fun title =>
          evidenceSentences title (text.found (some job.company.name)) evidence language := by
  unfold descriptionFromEvidence at h
  by_cases hdescription : orText evidence.description "" ≠ ""
  · simp only [if_pos hdescription] at h
    exact .inl ⟨hdescription, (Except.ok.inj h).symm⟩
  · simp only [if_neg hdescription, ok_bind_iff] at h
    obtain ⟨title, htitle, company, hcompany, hlast⟩ := h
    rw [show text.found (some job.title.1) = title from found_of_ok htitle,
      show text.found (some job.company.name.1) = company from found_of_ok hcompany]
    exact .inr ⟨not_not.mp hdescription, (Except.ok.inj hlast).symm⟩

theorem eq_some_of_orText {value : Option String} (h : orText value "" ≠ "") :
    value = some (orText value "") := by
  rcases value with - | value
  · exact absurd rfl h
  · by_cases hempty : value = ""
    · subst hempty
      exact absurd rfl h
    · rw [orText_some hempty]

/-- What is generated is plain where its pieces are. -/
theorem isPlainText_generated {job : CanonicalJobSchema} {evidence : Evidence}
    {language : OutputLanguage} {generated : Option String}
    (h : text.descriptionFromEvidence job evidence language = .ok generated) :
    (∀ shown ∈ generated, shown ≠ "") ∧
      ((∀ shown ∈ generated, isPlainText shown = true) ↔
        ∀ piece ∈ (if orText evidence.description "" ≠ "" then [orText evidence.description ""]
          else match text.found (some job.title) with
            | none => []
            | some title => title :: orText (text.found (some job.company.name)) "" ::
              evidence.pieces), isPlainText piece = true) := by
  rcases descriptionFromEvidence_ok h with ⟨hdescription, rfl⟩ | ⟨hdescription, rfl⟩
  · have hsome := eq_some_of_orText hdescription
    have hshown : ∀ shown ∈ evidence.description, orText evidence.description "" = shown :=
      fun shown hmem => Option.some.inj (hsome.symm.trans hmem)
    rw [if_pos hdescription, List.forall_mem_singleton]
    exact ⟨fun shown hmem => hshown shown hmem ▸ hdescription,
      fun h => h _ hsome, fun h shown hmem => hshown shown hmem ▸ h⟩
  · rw [if_neg (not_not.mpr hdescription)]
    cases text.found (some job.title.1) with
    | none => exact ⟨by simp, by simp⟩
    | some title =>
      refine ⟨?_, ?_⟩
      · rintro shown ⟨⟩
        exact evidenceSentences_ne_empty _ _ _ _
      · simp [isPlainText_evidenceSentences]

theorem generated_of_ok {input : AINormalizationPromptInput} {job : CanonicalJobSchema}
    {evidence : Evidence} {generated : Option String}
    (hevidence : text.rawEvidence input = .ok evidence)
    (h : text.descriptionFromEvidence job evidence input.outputLanguage = .ok generated) :
    text.generated input job = generated := by
  unfold NormalizationText.generated
  rw [hevidence]
  change (text.descriptionFromEvidence job evidence input.outputLanguage).toOption.join = generated
  rw [h]
  rfl

/-- The description of an answer that got its defaults: what was taken over, or else what was
    listed. And what was taken over is plain where its pieces are. -/
theorem completed_description {input : AINormalizationPromptInput}
    {job completed : CanonicalJobSchema} (h : text.applyDefaults input job = .ok completed) :
    completed.description = (text.takenOver input job).or (text.listed input job) ∧
      ((∀ shown ∈ text.takenOver input job, isPlainText shown = true) ↔
        text.PlainPieces input job) := by
  obtain ⟨filled, hfilled, hguarded⟩ := ok_bind_iff.mp h
  obtain ⟨hdescription, -, htitle, hcompany⟩ := fillDefaults_ok hfilled
  unfold applyQualityGuards at hguarded
  simp only [ok_bind_iff] at hguarded
  obtain ⟨descriptionText, hread, _, -, evidence, hevidence, description, hguard, hlast⟩ := hguarded
  have hsame : completed.description = description := by
    cases hlast
    split <;> rfl
  rw [hsame]
  rw [hdescription] at hread
  unfold takenOver PlainPieces takenPieces
  rw [found_of_ok hread, hevidence]
  cases descriptionText with
  | some found =>
    cases hguard
    exact ⟨hdescription, by simp⟩
  | none =>
    obtain ⟨generated, hgenerated, hlast⟩ := ok_bind_iff.mp hguard
    have hjob : text.descriptionFromEvidence job evidence input.outputLanguage = .ok generated := by
      rw [← hgenerated]
      unfold descriptionFromEvidence
      rw [htitle, hcompany]
    obtain ⟨hne, hplain⟩ := isPlainText_generated hjob
    rw [if_pos rfl, if_pos rfl, generated_of_ok hevidence hjob]
    refine ⟨?_, hplain⟩
    rw [← Except.ok.inj hlast, hdescription]
    rcases generated with - | shown
    · rfl
    · rw [orText_some (hne shown rfl), if_pos (hne shown rfl)]
      rfl

end NormalizationText

namespace NormalizerText

variable {text : NormalizerText}

/-- The description of an answer is display HTML until the quality guards look at it. -/
theorem listed_isDisplayHtml {input : AINormalizationPromptInput} {job : CanonicalJobSchema} :
    ∀ html ∈ text.normalization.listed input job, IsDisplayHtml html := by
  have halphabet : Alphabet := ⟨fun _ => false, fun _ _ => rfl⟩
  have hdisplays : ∀ {html : String} {shown : List Char}, DisplaysAs halphabet html shown →
      IsDisplayHtml html := by
    rintro html shown ⟨tokens, hnested, rfl, -⟩
    exact isDisplayHtml_render hnested
  unfold NormalizationText.listed
  rw [normalization_textToDisplayHtml, normalization_ensureDisplayHtml]
  split
  · intro html hhtml
    rcases textToDisplayHtml_spec halphabet (text.normalization.sourceLimitedSummary job.title
      (some job.company.name) (text.normalization.place job.location).display
      input.sourcePlatform.value input.outputLanguage) with ⟨-, hnone⟩ | ⟨html', hsome, hspec⟩
    · rw [hnone] at hhtml
      cases hhtml
    · rw [hsome] at hhtml
      cases hhtml
      exact hdisplays hspec
  · intro html hhtml
    obtain ⟨value, -, hvalue⟩ := Option.bind_eq_some_iff.mp hhtml
    rcases ensureDisplayHtml_spec halphabet text.parser value with ⟨hnone, -⟩ | ⟨html', hsome, hspec⟩
    · rw [hnone] at hvalue
      cases hvalue
    · rw [hsome] at hvalue
      cases hvalue
      exact hdisplays hspec

theorem safeDescription_of_ok {input : AINormalizationPromptInput}
    {job completed : CanonicalJobSchema}
    (h : text.normalization.applyDefaults input job = .ok completed) :
    text.normalization.SafeDescription input job completed ↔
      text.normalization.PlainPieces input job := by
  obtain ⟨hdescription, hplain⟩ := NormalizationText.completed_description h
  rw [← hplain]
  constructor
  · intro hsafe shown hshown
    obtain ⟨html, hhtml, hshows⟩ := hsafe.shows shown hshown
    rw [hdescription, Option.mem_def.mp hshown, Option.some_or] at hhtml
    cases hhtml
    exact (shows_self_iff _).mp hshows
  · intro hall
    cases htaken : text.normalization.takenOver input job with
    | none =>
      refine ⟨fun html hhtml => ?_, fun shown hshown => by rw [htaken] at hshown; cases hshown⟩
      rw [hdescription, htaken, Option.none_or] at hhtml
      exact listed_isDisplayHtml html hhtml
    | some shown =>
      have hshows := (shows_self_iff shown).mpr (hall shown htaken)
      rw [htaken, Option.some_or] at hdescription
      refine ⟨fun html hhtml => ?_, fun shown' hshown' => ⟨shown, hdescription, ?_⟩⟩
      · rw [hdescription] at hhtml
        cases hhtml
        exact hshows.isDisplayHtml
      · rw [htaken] at hshown'
        cases hshown'
        exact hshows

/-- What a batch answer is to keep to, entry by entry. -/
def SafeDescriptions (text : NormalizerText) (input : AINormalizationBatchPromptInput)
    (answer : AINormalizationBatchOutput) (validated : List AINormalizationBatchItemResult) : Prop :=
  List.Forall₂ (fun entry result => ∀ job ∈ entry.2.normalizedJob, ∀ completed ∈ result.normalizedJob,
    text.normalization.SafeDescription (input.promptFor entry.1) job completed)
    (input.items.zip answer.1) validated

theorem safeDescription_of_completeItem {input : AINormalizationBatchPromptInput}
    {item : AINormalizationBatchPromptItem} {result completed : AINormalizationBatchItemResult}
    (h : text.normalization.completeItem input item result = .ok completed) :
    (∀ job ∈ result.normalizedJob, ∀ normalized ∈ completed.normalizedJob,
      text.normalization.SafeDescription (input.promptFor item) job normalized) ↔
      ∀ job ∈ result.normalizedJob, text.normalization.PlainPieces (input.promptFor item) job := by
  cases hjob : result.normalizedJob with
  | none => simp
  | some job =>
    have hidentity := (NormalizationText.completeItem_ok h).identity
    rw [hjob] at hidentity
    obtain ⟨normalized, hnormalized, -⟩ := Option.map_eq_some_iff.mp hidentity
    obtain ⟨output, houtput, hcompleted⟩ := NormalizationText.completeItem_job h hnormalized
    rw [hjob] at houtput
    cases houtput
    have hsafe := safeDescription_of_ok (NormalizationText.applyDefaults_of_completeJob hcompleted)
    rw [hnormalized]
    simpa using hsafe

/-- Where a relation decides a property of each pair, it decides the property of all pairs. -/
theorem forall₂_iff_of_forall₂ {α β : Type} {R P : α → β → Prop} {Q : α → Prop} {xs : List α}
    {ys : List β} (h : List.Forall₂ R xs ys) (hiff : ∀ x y, R x y → (P x y ↔ Q x)) :
    List.Forall₂ P xs ys ↔ ∀ x ∈ xs, Q x := by
  induction h with
  | nil => simp
  | cons hxy _ ih => rw [List.forall₂_cons, List.forall_mem_cons, hiff _ _ hxy, ih]

/-- One by one or in a batch, the descriptions of accepted answers are display HTML that shows what
    was taken over exactly where nothing that was taken over needs to be escaped. -/
theorem safeDescription_iff (text : NormalizerText) :
    (∀ (input : AINormalizationPromptInput) (job completed : CanonicalJobSchema),
      text.normalization.validateAiNormalizationOutput (some job) input = .ok completed →
        (text.normalization.SafeDescription input job completed ↔
          text.normalization.PlainPieces input job)) ∧
      ∀ (input : AINormalizationBatchPromptInput) (answer : AINormalizationBatchOutput)
        (validated : List AINormalizationBatchItemResult),
        text.normalization.validateAiNormalizationBatchOutput (some answer) input = .ok validated →
          (text.SafeDescriptions input answer validated ↔
            ∀ entry ∈ input.items.zip answer.1, ∀ job ∈ entry.2.normalizedJob,
              text.normalization.PlainPieces (input.promptFor entry.1) job) := by
  refine ⟨fun input job completed h => ?_, fun input answer validated h => ?_⟩
  · exact safeDescription_of_ok (NormalizationText.applyDefaults_of_completeJob h)
  · obtain ⟨answer', hanswer, -, -, hcompleted⟩ :=
      NormalizationText.validateAiNormalizationBatchOutput_ok h
    cases hanswer
    exact forall₂_iff_of_forall₂ (NormalizationText.completeItems_entries _ _ _ hcompleted)
      fun entry result hentry => safeDescription_of_completeItem hentry

end NormalizerText

/-- A Glints detail with a description. -/
def detailOf (description : String) : AINormalizationPromptInput where
  sourcePlatform := .glints
  endpointType := .detail
  rawPayloadSubset := [("payload", .dict [("description", .str description)])]

/-- An answer without a description is accepted for a detail whose texts have no tags. -/
theorem accepted_detailOf {description : String}
    (hfilled : (asciiNormalizerText.normalization.filledTexts (detailOf description) goAnswer).all
      (fun s => !hasHtmlTag s.toList) = true)
    (hguarded : (asciiNormalizerText.normalization.guardedTexts (detailOf description)
      (asciiNormalizerText.listedJob (detailOf description) goAnswer)).all
        (fun s => !hasHtmlTag s.toList) = true) :
    ∃ completed, asciiNormalizerText.normalization.applyDefaults (detailOf description) goAnswer
      = .ok completed := by
  have hread : ∀ {texts : List String}, texts.all (fun s => !hasHtmlTag s.toList) = true →
      ∀ s ∈ texts, asciiNormalizerText.TextRead s := by
    intro texts hall s hs htag
    simpa [htag] using List.all_eq_true.mp hall s hs
  refine (NormalizerText.goodWhen_applyDefaults _ _).ok ⟨?_, hread hfilled, hread hguarded, ?_⟩
  · intro label hlabel
    cases hlabel
  · intro hunknown
    cases hunknown

/-- The same as an item of a batch. -/
def detailItem (description : String) : AINormalizationBatchPromptItem where
  itemId := "1"
  sourcePlatform := .glints
  endpointType := .detail
  rawPayloadSubset := (detailOf description).rawPayloadSubset

/-- A batch of one detail. -/
def batchOf (description : String) : AINormalizationBatchPromptInput where
  items := [detailItem description]

/-- The batch answer with one answer. -/
def goBatchAnswer : AINormalizationBatchOutput :=
  ⟨[{ itemId := ⟨"1", one_ne_empty⟩, normalizedJob := some goAnswer, jobOrError := rfl }], by decide⟩

theorem safeDescription_iff_backend :
    (∃ completed, asciiNormalizerText.normalization.validateAiNormalizationOutput (some goAnswer)
        (detailOf "Backend lead") = .ok completed ∧
      (asciiNormalizerText.normalization.SafeDescription (detailOf "Backend lead") goAnswer
          completed ↔
        asciiNormalizerText.normalization.PlainPieces (detailOf "Backend lead") goAnswer)) ∧
      ∃ validated, asciiNormalizerText.normalization.validateAiNormalizationBatchOutput
          (some goBatchAnswer) (batchOf "Backend lead") = .ok validated ∧
        (asciiNormalizerText.SafeDescriptions (batchOf "Backend lead") goBatchAnswer validated ↔
          ∀ entry ∈ (batchOf "Backend lead").items.zip goBatchAnswer.1,
            ∀ job ∈ entry.2.normalizedJob, asciiNormalizerText.normalization.PlainPieces
              ((batchOf "Backend lead").promptFor entry.1) job) := by
  obtain ⟨completed, hcompleted⟩ : ∃ completed, asciiNormalizerText.normalization.applyDefaults
      (detailOf "Backend lead") goAnswer = .ok completed :=
    accepted_detailOf (by decide +kernel) (by decide +kernel)
  have hsingle := NormalizerText.completeJob_of_applyDefaults hcompleted
  refine ⟨⟨completed, hsingle, (NormalizerText.safeDescription_iff _).1 _ _ _ hsingle⟩, ?_⟩
  obtain ⟨validated, hvalidated⟩ : ∃ validated,
      asciiNormalizerText.normalization.validateAiNormalizationBatchOutput (some goBatchAnswer)
        (batchOf "Backend lead") = .ok validated := by
    unfold NormalizationText.validateAiNormalizationBatchOutput
    obtain ⟨first, hfirst⟩ : ∃ first, asciiNormalizerText.normalization.completeItem
        (batchOf "Backend lead") (detailItem "Backend lead") (goBatchAnswer.1.head goBatchAnswer.2)
          = .ok first :=
      NormalizationText.exists_completeItem rfl hsingle
    exact ⟨[first], (if_neg (by decide)).trans (ok_bind_iff.mpr ⟨first, hfirst, rfl⟩)⟩
  exact ⟨validated, hvalidated, (NormalizerText.safeDescription_iff _).2 _ _ _ hvalidated⟩

/-- An ampersand in the description of a detail is stored as it is. -/
theorem evidence_stored_unescaped :
    ∃ completed, asciiNormalizerText.normalization.validateAiNormalizationOutput (some goAnswer)
        (detailOf "R&D lead") = .ok completed ∧ completed.description = some "R&D lead" ∧
      ¬ IsDisplayHtml "R&D lead" ∧
      ¬ asciiNormalizerText.normalization.SafeDescription (detailOf "R&D lead") goAnswer
        completed := by
  obtain ⟨completed, hcompleted⟩ : ∃ completed, asciiNormalizerText.normalization.applyDefaults
      (detailOf "R&D lead") goAnswer = .ok completed :=
    accepted_detailOf (by decide +kernel) (by decide +kernel)
  have hdescription : completed.description = some "R&D lead" := by
    rw [(NormalizationText.completed_description hcompleted).1]
    decide +kernel
  have hnot : ¬ IsDisplayHtml "R&D lead" := by
    intro h
    obtain ⟨c, hc, hprefix⟩ := h.escaped ['R'] "D lead".toList (by decide)
    have hnone : ∀ c ∈ ['&', '<', '>'], (escapeChar c).isPrefixOf "&D lead".toList = false :=
      forall_mem_of_all (by decide)
    rw [← List.isPrefixOf_iff_prefix] at hprefix
    exact Bool.false_ne_true ((hnone c hc).symm.trans hprefix)
  exact ⟨completed, NormalizerText.completeJob_of_applyDefaults hcompleted, hdescription, hnot,
    fun hsafe => hnot (hsafe.display _ hdescription)⟩

end Bisakerja
