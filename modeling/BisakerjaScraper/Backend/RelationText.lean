import BisakerjaScraper.Backend.PayloadPatterns
import BisakerjaScraper.Backend.Payloads
import BisakerjaScraper.Shared.DisplayHtml
import BisakerjaScraper.Shared.Text

/-! The texts of requirements and skills.

    A requirement text is cut into items, a skill text into names; what says nothing is left out.
    The casing of Unicode and the text of an HTML document are parameters. -/

namespace Bisakerja
open Schemes

/-! ### Lists of texts -/

/-- `LOW_SIGNAL_REQUIREMENT_PHRASES`. -/
def lowSignalRequirementPhrases : List String :=
  ["mempunyai kesempatan jenjang karir", "kesempatan jenjang karir",
    "the most integrated agrochemical company", "career growth opportunities"]

/-- `LOW_SIGNAL_REQUIREMENT_SUBSTRINGS`. -/
def lowSignalRequirementSubstrings : List String :=
  ["perusahaan ini adalah", "menghasilkan produk berkualitas",
    "telah terdaftar di komisi pestisida", "sertifikasi iso 9001",
    "integrated agrochemical company", "lingkungan kerja yang dinamis", "kesempatan berkembang",
    "peluang pengembangan karir", "berorientasi pada kepuasan pelanggan"]

/-- `LOW_SIGNAL_SKILL_VALUES`. -/
def lowSignalSkillValues : List String :=
  ["keterampilan", "kemampuan", "keahlian", "soft skill", "soft skills", "hard skill",
    "hard skills"]

/-! ### Characters -/

/-- `strip_visual_noise`, character by character. -/
def visibleChars (c : Char) : List Char :=
  if (0x2600 ≤ c.toNat ∧ c.toNat ≤ 0x27BF) ∨ (0x1F300 ≤ c.toNat ∧ c.toNat ≤ 0x1FAFF) then [' ']
  else if (0x200B ≤ c.toNat ∧ c.toNat ≤ 0x200F) ∨ c.toNat ∈ [0x2060, 0xFE0E, 0xFE0F] then []
  else if c = '▪' ∨ c = '◦' then [' ']
  else [c]

/-- `strip_visual_noise`. -/
def stripVisualNoise (text : List Char) : List Char := text.flatMap visibleChars

/-- `" ".join(text.split())`. -/
def joinWords (text : List Char) : List Char := spaced (words isSpace text)

/-- `s.replace(old, new)` on characters. -/
def replaceChars (old new : String) (text : List Char) : List Char :=
  replaceFrom old.toList new.toList 0 text

/-- `s.strip(" .")`. -/
def stripDots (text : String) : String :=
  let isMark (c : Char) : Bool := c = ' ' || c = '.'
  String.ofList ((text.toList.dropWhile isMark).rdropWhile isMark)

/-- `s.rstrip(".")`. -/
def rstripDots (text : String) : String := String.ofList (text.toList.rdropWhile (· = '.'))

/-- `[A-Za-z0-9+#.]`. -/
def isMarkedChar (c : Char) : Bool := c.isAlphanum || c = '+' || c = '#' || c = '.'

/-- What the texts of requirements and skills rest on: the word characters and the casing of
    Unicode, and the text of an HTML document. Folding leaves no text blank, and a bullet is no
    character of a word. -/
structure RelationText where
  alphabet : Alphabet
  lower : String → String
  casefold : String → String
  treeText : String → String
  casefold_blank : ∀ s, strip (casefold s) = "" → strip s = ""
  isAlnum_bullet : alphabet.isAlnum '•' = false

namespace RelationText

variable (text : RelationText)

/-! ### Blocks of text -/

/-- `html_to_text`. -/
def htmlToText (html : String) : Option String :=
  if strip html = "" then none else cleanText (text.treeText html)

/-- The characters of a text without its markup. -/
def sourceChars (value : String) : List Char :=
  if hasHtmlTag value.toList then ((text.htmlToText value).getD value).toList else value.toList

/-- The last steps of `normalize_text_block`. -/
def blockChars (cleaned : List Char) : List Char :=
  joinWords (replaceChars " - " ". " (replaceChars "•" ". " cleaned))

/-- `normalize_text_block`. -/
def normalizeTextBlock : Option String → Option String
  | none => none
  | some value =>
    let cleaned := joinWords (stripVisualNoise (text.sourceChars value))
    if cleaned = [] then none else some (String.ofList (blockChars cleaned))

/-- The loop of `dedupe_strings`. -/
def dedupeStringsFrom (seen : List String) : List String → List String
  | [] => []
  | value :: values =>
    let key := text.casefold value
    if key ∈ seen then dedupeStringsFrom seen values
    else value :: dedupeStringsFrom (key :: seen) values

/-- `dedupe_strings`. -/
def dedupeStrings (values : List String) : List String := text.dedupeStringsFrom [] values

/-! ### Requirements -/

/-- `is_noisy_requirement`. -/
def isNoisyRequirement (value : String) : Bool :=
  match text.normalizeTextBlock (some value) with
  | none => true
  | some block => text.alphabet.requirementNoisePattern.search block.toList

/-- `is_low_signal_requirement`. -/
def isLowSignalRequirement (value : String) : Bool :=
  match text.normalizeTextBlock (some value) with
  | none => true
  | some normalized =>
    let lowered := stripDots (text.casefold normalized)
    if lowered ∈ lowSignalRequirementPhrases then true
    else if lowSignalRequirementSubstrings.any (isInfix · lowered) then true
    else if ["kesempatan ", "lingkungan ", "budaya kerja "].any
      (·.toList.isPrefixOf lowered.toList) then true
    else if (["yang dinamis", "yang baik"].any (endsWith lowered ·)) &&
      (words isSpace lowered.toList).length ≤ 6 then true
    else if 2 < (words (!isMarkedChar ·) value.toList).length then false
    else !text.alphabet.techSkillPattern.fullMatch (strip value).toList

/-- `normalize_requirement_language`. -/
def normalizeRequirementLanguage (value : String) : String :=
  let normalized := text.alphabet.requirementReplacements.foldl
    (fun value replacement => replacement.1.sub (Piece.expand replacement.2) value) value.toList
  normalizeText (String.ofList normalized)

/-- One candidate of `split_requirement_text`. -/
def requirementItem (candidate : List Char) : Option String :=
  let value := text.normalizeRequirementLanguage
    ((text.normalizeTextBlock (some (String.ofList candidate))).getD "")
  if value = "" || text.isLowSignalRequirement value || text.isNoisyRequirement value then none
  else some (rstripDots value)

/-- The candidates of a part: a long part with commas is cut at them. -/
def requirementCandidates (part : List Char) : List (List Char) :=
  if 2 ≤ part.count ',' ∧ 120 ≤ part.length then
    (part.splitOn ',').map fun fragment => (strip (String.ofList fragment)).toList
  else [part]

/-- The parts of a requirement text. -/
def requirementParts (value : String) : List (List Char) :=
  let cleaned := htmlTagPattern.sub (fun _ => [' ']) (stripVisualNoise value.toList)
  let cleaned := replaceChars " - " "\n" (replaceChars "•" "\n" cleaned)
  requirementSplitPattern.split (text.alphabet.requirementHeadingPattern.sub (fun _ => ['\n']) cleaned)

/-- `split_requirement_text`. -/
def splitRequirementText (value : String) : List String :=
  text.dedupeStrings
    (((text.requirementParts value).flatMap requirementCandidates).filterMap text.requirementItem)

/-- `classify_requirement_type`. -/
def classifyRequirementType (value : String) : PrismaRequirementType :=
  if text.alphabet.techSkillPattern.search value.toList then .skill
  else if text.alphabet.skillRequirementPattern.search value.toList then .skill
  else if text.alphabet.educationRequirementPattern.search value.toList then .education
  else if text.alphabet.experienceRequirementPattern.search value.toList then .experience
  else if text.alphabet.responsibilityRequirementPattern.search value.toList then .responsibility
  else .other

/-! ### Skills -/

/-- `is_low_signal_skill`. -/
def isLowSignalSkill (value : String) : Bool :=
  let lowered := stripDots (text.casefold value)
  lowered ∈ lowSignalSkillValues ||
    (["keterampilan ", "kemampuan ", "keahlian "].any (·.toList.isPrefixOf lowered.toList) &&
      lowered.length < 24)

/-- `derive_tech_skills_from_texts`. -/
def deriveTechSkillsFromTexts (texts : List String) : List String :=
  text.dedupeStrings <| texts.flatMap fun value =>
    match text.normalizeTextBlock (some value) with
    | none => []
    | some normalized =>
      (text.alphabet.techSkillPattern.findAll normalized.toList).filterMap fun found =>
        techSkillCanonicalMap.lookup (text.casefold (strip (String.ofList found)))

/-- `split_skill_candidates`. -/
def splitSkillCandidates (value : String) : List String :=
  match text.normalizeTextBlock (some value) with
  | none => []
  | some normalized =>
    if [",", "/", ";", "|", "&", " and ", " + "].any (isInfix · normalized) then
      let pieces := ((text.alphabet.skillSplitPattern.split normalized.toList).map fun piece =>
        strip (String.ofList piece)).filter (· ≠ "")
      if pieces.isEmpty then [normalized] else pieces
    else [normalized]

/-- `is_placeholder_text`. -/
def isPlaceholderText (value : String) : Bool := text.lower (strip value) ∈ placeholderValues

/-- One candidate of `sanitize_skill_values`. -/
def skillName (candidate : String) : Option String :=
  (text.normalizeTextBlock (some candidate)).filter fun name =>
    !text.isPlaceholderText name &&
      !invalidSkillPattern.fullMatch (strip (text.casefold name)).toList &&
      !text.isLowSignalSkill name && 2 ≤ name.length && name.length ≤ 80

/-- `sanitize_skill_values`. -/
def sanitizeSkillValues (values : List Json) : List String :=
  text.dedupeStrings <| values.flatMap fun value =>
    match value with
    | .str raw =>
      (text.splitSkillCandidates raw).filterMap text.skillName ++
        text.deriveTechSkillsFromTexts [raw]
    | _ => []

/-- `derive_fallback_skills`, of the texts that are not empty. -/
def deriveFallbackSkills (texts : List String) : List String :=
  let tech := text.deriveTechSkillsFromTexts texts
  if !tech.isEmpty then tech.take 8
  else
    let joined := strip (joinText " " texts)
    if joined = "" then ["Effective Communication"]
    else
      match text.alphabet.roleBasedSkillFallbacks.find? fun entry =>
        entry.1.search joined.toList with
      | some entry => [entry.2]
      | none => ["Effective Communication"]

/-- The payload builder with these texts. -/
def payloadText (rest : PayloadText) : PayloadText :=
  { rest with
    lower := text.lower
    casefold := text.casefold
    normalizeTextBlock := text.normalizeTextBlock
    splitRequirementText := text.splitRequirementText
    classifyRequirementType := text.classifyRequirementType
    isNoisyRequirement := text.isNoisyRequirement
    isLowSignalRequirement := text.isLowSignalRequirement
    isLowSignalSkill := text.isLowSignalSkill
    sanitizeSkillValues := text.sanitizeSkillValues
    deriveFallbackSkills := text.deriveFallbackSkills }

end RelationText

end Bisakerja
