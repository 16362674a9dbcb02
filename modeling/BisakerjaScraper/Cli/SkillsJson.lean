import BisakerjaScraper.Cli.DatasetHashes
import BisakerjaScraper.Schemes.Gaps
import BisakerjaScraper.Shared.Text

/-! The skills of a job in the model dataset.

    The aggregates keep the names, the slugs and the categories of the skills in three lists, each
    without its gaps. The skills are put together again by index, so a gap in one column moves what
    is behind it to the skill before. -/

namespace Bisakerja
open Schemes

/-- An item of `skills_from_aggregates`. -/
structure SkillItem where
  skillName : String
  skillSlug : String
  skillCategory : String
  skillConfidence : DbValue := .none

/-- An entry of `skills_json`. -/
@[ext]
structure SkillObject where
  name : String
  slug : String
  category : String
  confidence : Option PyFloat

namespace DatasetText

variable (text : DatasetText)

/-- The item a requirement stands in for. -/
def skillOfRequirement (row : DbRow) : Option SkillItem :=
  if text.enumOf row "requirement_type" = "SKILL" then
    let value := text.textOf row "requirement_value"
    if value ≠ "" then
      some { skillName := value, skillSlug := replaceChar (text.lower value) ' ' '-'
             skillCategory := "" }
    else none
  else none

/-- `skills_from_aggregates`. -/
def skillsFromAggregates (requirementsRows : List DbRow)
    (skillNames skillSlugs skillCategories : List String) : List SkillItem :=
  let maxLen := max (max skillNames.length skillSlugs.length) skillCategories.length
  let skills := (List.range maxLen).map fun index =>
    { skillName := skillNames.getD index "", skillSlug := skillSlugs.getD index ""
      skillCategory := skillCategories.getD index "" : SkillItem }
  if skills.isEmpty then (requirementsRows.take 5).filterMap text.skillOfRequirement else skills

/-- `skills_json` of `build_model_row`. -/
def skillsJson (aggregates : Aggregates) : List SkillObject :=
  (text.skillsFromAggregates aggregates.requirementsRows aggregates.skillNames aggregates.skillSlugs
    aggregates.skillCategories).map fun item =>
      { name := text.safeText (.text item.skillName), slug := text.safeText (.text item.skillSlug)
        category := text.safeText (.text item.skillCategory)
        confidence := text.toOptionalFloat item.skillConfidence }

/-- What a skill row says. -/
def skillObject (row : DbRow) : SkillObject where
  name := text.textOf row "skill_name"
  slug := text.textOf row "skill_slug"
  category := text.textOf row "skill_category"
  confidence := text.toOptionalFloat (row.get "skill_confidence")

end DatasetText

/-- Some value is there. -/
def SkillObject.hasValue (skill : SkillObject) : Bool :=
  skill.name ≠ "" || skill.slug ≠ "" || skill.category ≠ "" || skill.confidence.isSome

namespace DatasetText

variable (text : DatasetText)

/-- The skills of the rows that have a value. -/
def skillsOf (skills : List DbRow) : List SkillObject :=
  (skills.map text.skillObject).filter SkillObject.hasValue

/-- `skills_json` has the skills of the rows, each as its row has it, in their order. -/
def ExportsSkills (base : DbRow) (requirements skills : List DbRow) (signal : SignalRow)
    (staleAfterHours : ℤ) (now : Timestamp) : Prop :=
  text.skillsJson (text.buildAggregates base requirements skills signal staleAfterHours now)
    = text.skillsOf skills

/-- The columns of the skills read by index give the rows. -/
structure SkillsAligned (requirements skills : List DbRow) : Prop where
  unrated : ∀ row ∈ skills, text.toOptionalFloat (row.get "skill_confidence") = none
  lowered : ∀ row ∈ skills, text.textOf row "skill_slug" ≠ "" →
    strip (text.lower (text.textOf row "skill_slug")) = text.textOf row "skill_slug"
  names : GapsLast "" ((text.skillsOf skills).map SkillObject.name)
  slugs : GapsLast "" ((text.skillsOf skills).map SkillObject.slug)
  categories : GapsLast "" ((text.skillsOf skills).map SkillObject.category)
  skillRequirements : text.skillsOf skills = [] →
    ∀ row ∈ (text.sortedRequirements requirements).take 5,
      text.enumOf row "requirement_type" = "SKILL" → text.textOf row "requirement_value" = ""

/-! ### The columns -/

theorem safeText_text (s : String) : text.safeText (.text s) = strip s := rfl

theorem strip_textOf (row : DbRow) (column : String) :
    strip (text.textOf row column) = text.textOf row column := by
  unfold textOf safeText
  split
  · rfl
  · exact strip_strip _

/-- Rows without any value do not count in a column. -/
theorem nonEmpty_column (f : SkillObject → String)
    (hf : ∀ skill, SkillObject.hasValue skill = false → f skill = "") (skills : List DbRow) :
    nonEmpty (skills.map fun row => f (text.skillObject row))
      = values "" ((text.skillsOf skills).map f) := by
  induction skills with
  | nil => rfl
  | cons row rest ih =>
    rw [List.map_cons]
    cases hvalue : (text.skillObject row).hasValue with
    | true =>
      have hskills : text.skillsOf (row :: rest) = text.skillObject row :: text.skillsOf rest := by
        simp [skillsOf, hvalue]
      rw [hskills]
      unfold nonEmpty values at ih ⊢
      rw [List.map_cons, List.filter_cons, List.filter_cons, ih]
    | false =>
      have hskills : text.skillsOf (row :: rest) = text.skillsOf rest := by
        simp [skillsOf, hvalue]
      rw [hskills, ← ih]
      simp [nonEmpty, hf _ hvalue]

theorem getD_map_strip (column : List String) (i : ℕ) :
    strip (column.getD i "") = (column.map strip).getD i "" := by
  have hempty : strip "" = "" := rfl
  conv_rhs => rw [← hempty]
  exact (List.getD_map _ _ strip).symm

/-- The columns of some skills read by index. -/
def byIndex (skills : List SkillObject) (count : ℕ) : List SkillObject :=
  (List.range count).map fun index =>
    { name := strip ((values "" (skills.map SkillObject.name)).getD index "")
      slug := strip (((values "" (skills.map SkillObject.slug)).map text.lower).getD index "")
      category := strip ((values "" (skills.map SkillObject.category)).getD index "")
      confidence := none }

/-- The longest column. -/
def longest (skills : List SkillObject) : ℕ :=
  max (max (values "" (skills.map SkillObject.name)).length
    (values "" (skills.map SkillObject.slug)).length)
    (values "" (skills.map SkillObject.category)).length

theorem longest_le (skills : List SkillObject) : longest skills ≤ skills.length := by
  have hle := fun f : SkillObject → String => length_values_le "" (skills.map f)
  simp only [List.length_map] at hle
  exact max_le (max_le (hle _) (hle _)) (hle _)

section ByIndex

variable {skills : List SkillObject}

/-- An unrated skill with a value is in one of the columns. -/
theorem value_of_unrated {skill : SkillObject} (hvalue : skill.hasValue = true)
    (hunrated : skill.confidence = none) :
    skill.name ≠ "" ∨ skill.slug ≠ "" ∨ skill.category ≠ "" := by
  simpa [SkillObject.hasValue, hunrated, or_assoc] using hvalue

/-- A skill with a text makes a column long. -/
theorem longest_ne_zero {skill : SkillObject} (hmem : skill ∈ skills)
    (hvalue : skill.name ≠ "" ∨ skill.slug ≠ "" ∨ skill.category ≠ "") : longest skills ≠ 0 := by
  have hpos : ∀ f : SkillObject → String, f skill ≠ "" →
      0 < (values "" (skills.map f)).length := fun f hne =>
    List.length_pos_of_mem (mem_values.mpr ⟨List.mem_map_of_mem hmem, hne⟩)
  unfold longest
  rcases hvalue with h | h | h
  · have hname := hpos SkillObject.name h
    omega
  · have hslug := hpos SkillObject.slug h
    omega
  · have hcategory := hpos SkillObject.category h
    omega

/-- A column read by index gives the field `f` exactly when `g` keeps its values and no gap moves
    one. -/
theorem column_iff (f : SkillObject → String) (g : String → String) :
    (∀ (i : ℕ) (hi : i < skills.length),
        ((values "" (skills.map f)).map g).getD i "" = f skills[i]) ↔
      (∀ skill ∈ skills, f skill ≠ "" → g (f skill) = f skill) ∧ GapsLast "" (skills.map f) := by
  have hcolumn : (∀ (i : ℕ) (hi : i < (skills.map f).length),
      ((values "" (skills.map f)).map g).getD i "" = (skills.map f)[i]) ↔ _ :=
    getD_map_values_iff g (skills.map f)
  simpa only [List.length_map, List.getElem_map, List.forall_mem_map] using hcolumn

/-- A column that has the last value is as long as the skills. -/
theorem length_le_of_last {column : List String} {f : SkillObject → String} {last : ℕ}
    (hlast : last + 1 = skills.length) (hread : column.getD last "" = f skills[last])
    (hvalue : f skills[last] ≠ "") : skills.length ≤ column.length := by
  by_contra hlt
  rw [List.getD_eq_default _ _ (by omega)] at hread
  exact hvalue hread.symm

theorem byIndex_length_eq_iff :
    text.byIndex skills skills.length = skills ↔
      (∀ skill ∈ skills, skill.confidence = none) ∧
      (∀ (i : ℕ) (hi : i < skills.length),
        ((values "" (skills.map SkillObject.name)).map strip).getD i "" = skills[i].name) ∧
      (∀ (i : ℕ) (hi : i < skills.length),
        ((values "" (skills.map SkillObject.slug)).map (strip ∘ text.lower)).getD i ""
          = skills[i].slug) ∧
      ∀ (i : ℕ) (hi : i < skills.length),
        ((values "" (skills.map SkillObject.category)).map strip).getD i ""
          = skills[i].category := by
  have hunrated : (∀ skill ∈ skills, skill.confidence = none) ↔
      ∀ (i : ℕ) (hi : i < skills.length), none = skills[i].confidence := by
    simp only [List.forall_mem_iff_getElem, eq_comm]
  rw [byIndex, map_range_eq_iff, hunrated, ← forall_and, ← forall_and, ← forall_and]
  refine forall_congr' fun i => ?_
  rw [← forall_and, ← forall_and, ← forall_and]
  refine forall_congr' fun hi => ?_
  rw [SkillObject.ext_iff, ← List.map_map]
  simp only [getD_map_strip]
  tauto

/-- Read by index, the columns give the skills exactly when no gap moves a value. -/
theorem byIndex_longest_eq_iff (hvalue : ∀ skill ∈ skills, skill.hasValue = true)
    (hname : ∀ skill ∈ skills, strip skill.name = skill.name)
    (hcategory : ∀ skill ∈ skills, strip skill.category = skill.category) :
    text.byIndex skills (longest skills) = skills ↔
      (∀ skill ∈ skills, skill.confidence = none) ∧
      (∀ skill ∈ skills, skill.slug ≠ "" → strip (text.lower skill.slug) = skill.slug) ∧
      GapsLast "" (skills.map SkillObject.name) ∧ GapsLast "" (skills.map SkillObject.slug) ∧
      GapsLast "" (skills.map SkillObject.category) := by
  have hall : text.byIndex skills skills.length = skills ↔
      (∀ skill ∈ skills, skill.confidence = none) ∧
      (∀ skill ∈ skills, skill.slug ≠ "" → strip (text.lower skill.slug) = skill.slug) ∧
      GapsLast "" (skills.map SkillObject.name) ∧ GapsLast "" (skills.map SkillObject.slug) ∧
      GapsLast "" (skills.map SkillObject.category) := by
    have hnamed : ∀ skill ∈ skills, skill.name ≠ "" → strip skill.name = skill.name :=
      fun skill hskill _ => hname skill hskill
    have hplaced : ∀ skill ∈ skills, skill.category ≠ "" → strip skill.category = skill.category :=
      fun skill hskill _ => hcategory skill hskill
    rw [byIndex_length_eq_iff, column_iff, column_iff, column_iff]
    simp only [Function.comp_apply]
    tauto
  rw [← hall]
  have hlength : text.byIndex skills skills.length = skills → longest skills = skills.length := by
    intro heq
    obtain ⟨hunrated, hnames, hslugs, hcategories⟩ := text.byIndex_length_eq_iff.mp heq
    refine le_antisymm (longest_le skills) ?_
    obtain hempty | ⟨last, hlast⟩ : skills.length = 0 ∨ ∃ last, last + 1 = skills.length := by
      cases h : skills.length with
      | zero => exact .inl rfl
      | succ last => exact .inr ⟨last, rfl⟩
    · omega
    have hmem : skills[last] ∈ skills := List.getElem_mem _
    unfold longest
    rcases value_of_unrated (hvalue _ hmem) (hunrated _ hmem) with h | h | h
    · have hlong := length_le_of_last hlast (hnames last (by omega)) h
      rw [List.length_map] at hlong
      omega
    · have hlong := length_le_of_last hlast (hslugs last (by omega)) h
      rw [List.length_map] at hlong
      omega
    · have hlong := length_le_of_last hlast (hcategories last (by omega)) h
      rw [List.length_map] at hlong
      omega
  constructor
  · intro heq
    have hcount : longest skills = skills.length := by
      have hlen := congrArg List.length heq
      simpa [byIndex] using hlen
    rwa [hcount] at heq
  · intro heq
    rwa [hlength heq]

end ByIndex

/-! ### The export -/

theorem of_mem_skillsOf {skills : List DbRow} {skill : SkillObject}
    (h : skill ∈ text.skillsOf skills) :
    skill.hasValue = true ∧ strip skill.name = skill.name ∧
      strip skill.category = skill.category := by
  obtain ⟨hmem, hvalue⟩ := List.mem_filter.mp h
  obtain ⟨row, -, rfl⟩ := List.mem_map.mp hmem
  exact ⟨hvalue, text.strip_textOf row _, text.strip_textOf row _⟩

/-- The rows are unrated when the skills are. -/
theorem unrated_iff (skills : List DbRow) :
    (∀ skill ∈ text.skillsOf skills, skill.confidence = none) ↔
      ∀ row ∈ skills, text.toOptionalFloat (row.get "skill_confidence") = none := by
  constructor
  · intro h row hrow
    by_contra hne
    have hvalue : (text.skillObject row).hasValue = true := by
      simp [SkillObject.hasValue, skillObject, Option.isSome_iff_ne_none, hne]
    exact hne (h _ (List.mem_filter.mpr ⟨List.mem_map_of_mem hrow, hvalue⟩))
  · intro h skill hskill
    obtain ⟨row, hrow, rfl⟩ := List.mem_map.mp (List.mem_filter.mp hskill).1
    exact h row hrow

theorem lowered_iff (skills : List DbRow) :
    (∀ skill ∈ text.skillsOf skills, skill.slug ≠ "" →
        strip (text.lower skill.slug) = skill.slug) ↔
      ∀ row ∈ skills, text.textOf row "skill_slug" ≠ "" →
        strip (text.lower (text.textOf row "skill_slug")) = text.textOf row "skill_slug" := by
  constructor
  · intro h row hrow hne
    have hvalue : (text.skillObject row).hasValue = true := by
      simp [SkillObject.hasValue, skillObject, hne]
    have hmem : text.skillObject row ∈ text.skillsOf skills :=
      List.mem_filter.mpr ⟨List.mem_map_of_mem hrow, hvalue⟩
    exact h (text.skillObject row) hmem hne
  · intro h skill hskill
    obtain ⟨row, hrow, rfl⟩ := List.mem_map.mp (List.mem_filter.mp hskill).1
    exact h row hrow

section Aggregates

variable (base : DbRow) (requirements skills : List DbRow) (signal : SignalRow)
  (staleAfterHours : ℤ) (now : Timestamp)

theorem skillNames_buildAggregates :
    (text.buildAggregates base requirements skills signal staleAfterHours now).skillNames
      = values "" ((text.skillsOf skills).map SkillObject.name) := by
  have hnames : (text.buildAggregates base requirements skills signal staleAfterHours
      now).skillNames = nonEmpty (skills.map fun row => (text.skillObject row).name) := rfl
  rw [hnames]
  refine text.nonEmpty_column SkillObject.name (fun skill hvalue => ?_) skills
  simp only [SkillObject.hasValue, Bool.or_eq_false_iff, decide_eq_false_iff_not, not_not] at hvalue
  exact hvalue.1.1.1

theorem skillSlugs_buildAggregates :
    (text.buildAggregates base requirements skills signal staleAfterHours now).skillSlugs
      = (values "" ((text.skillsOf skills).map SkillObject.slug)).map text.lower := by
  have hslugs : (text.buildAggregates base requirements skills signal staleAfterHours
      now).skillSlugs
        = (nonEmpty (skills.map fun row => (text.skillObject row).slug)).map text.lower := rfl
  rw [hslugs, text.nonEmpty_column SkillObject.slug fun skill hvalue => ?_]
  simp only [SkillObject.hasValue, Bool.or_eq_false_iff, decide_eq_false_iff_not, not_not] at hvalue
  exact hvalue.1.1.2

theorem skillCategories_buildAggregates :
    (text.buildAggregates base requirements skills signal staleAfterHours now).skillCategories
      = values "" ((text.skillsOf skills).map SkillObject.category) := by
  have hcategories : (text.buildAggregates base requirements skills signal staleAfterHours
      now).skillCategories
        = nonEmpty (skills.map fun row => (text.skillObject row).category) := rfl
  rw [hcategories]
  refine text.nonEmpty_column SkillObject.category (fun skill hvalue => ?_) skills
  simp only [SkillObject.hasValue, Bool.or_eq_false_iff, decide_eq_false_iff_not, not_not] at hvalue
  exact hvalue.1.2

end Aggregates

/-- The skills that requirements stand in for. -/
theorem map_skillOfRequirement_eq_nil_iff (rows : List DbRow) :
    rows.filterMap text.skillOfRequirement = [] ↔
      ∀ row ∈ rows, text.enumOf row "requirement_type" = "SKILL" →
        text.textOf row "requirement_value" = "" := by
  rw [List.filterMap_eq_nil_iff]
  refine forall₂_congr fun row _ => ?_
  unfold skillOfRequirement
  dsimp only
  split
  · next htype => simp [htype]
  · next htype => simp [htype]

theorem unrated_of_mem_requirements {rows : List DbRow} {item : SkillItem}
    (h : item ∈ rows.filterMap text.skillOfRequirement) : item.skillConfidence = .none := by
  obtain ⟨row, -, hitem⟩ := List.mem_filterMap.mp h
  unfold skillOfRequirement at hitem
  dsimp only at hitem
  split at hitem
  · split at hitem
    · cases hitem
      rfl
    · cases hitem
  · cases hitem

/-- `skills_json` reads the columns by index, or falls back on requirements. -/
theorem skillsJson_buildAggregates (base : DbRow) (requirements skills : List DbRow)
    (signal : SignalRow) (staleAfterHours : ℤ) (now : Timestamp) :
    text.skillsJson (text.buildAggregates base requirements skills signal staleAfterHours now)
      = if longest (text.skillsOf skills) = 0 then
          (((text.sortedRequirements requirements).take 5).filterMap text.skillOfRequirement).map
            fun item =>
              { name := strip item.skillName, slug := strip item.skillSlug
                category := strip item.skillCategory
                confidence := text.toOptionalFloat item.skillConfidence }
        else text.byIndex (text.skillsOf skills) (longest (text.skillsOf skills)) := by
  have hrows : (text.buildAggregates base requirements skills signal staleAfterHours
      now).requirementsRows = text.sortedRequirements requirements := rfl
  have hcount : longest (text.skillsOf skills)
      = max (max (values "" ((text.skillsOf skills).map SkillObject.name)).length
        ((values "" ((text.skillsOf skills).map SkillObject.slug)).map text.lower).length)
        (values "" ((text.skillsOf skills).map SkillObject.category)).length := by
    rw [longest, List.length_map]
  unfold skillsJson skillsFromAggregates
  rw [hrows, skillNames_buildAggregates, skillSlugs_buildAggregates,
    skillCategories_buildAggregates]
  dsimp only
  rw [← hcount]
  by_cases hzero : longest (text.skillsOf skills) = 0
  · rw [if_pos hzero, hzero]
    rfl
  · rw [if_neg hzero, if_neg (by simpa using hzero), List.map_map]
    rfl

/-- BUG: a gap in one column moves what is behind it. The skills are exported exactly when no gap
    stands before a value, no skill is rated, the slugs are in lower case, and no requirement stands
    in for skills. -/
theorem exportsSkills_iff (base : DbRow) (requirements skills : List DbRow) (signal : SignalRow)
    (staleAfterHours : ℤ) (now : Timestamp) :
    text.ExportsSkills base requirements skills signal staleAfterHours now ↔
      text.SkillsAligned requirements skills := by
  have hrow := fun skill (hskill : skill ∈ text.skillsOf skills) => text.of_mem_skillsOf hskill
  have hindex := text.byIndex_longest_eq_iff (fun skill hskill => (hrow skill hskill).1)
    (fun skill hskill => (hrow skill hskill).2.1) (fun skill hskill => (hrow skill hskill).2.2)
  rw [unrated_iff, lowered_iff] at hindex
  unfold ExportsSkills
  rw [skillsJson_buildAggregates]
  by_cases hempty : text.skillsOf skills = []
  · -- no row has a value: the columns are empty, and the requirements are all there is
    have hnone : longest (text.skillsOf skills) = 0 := by rw [hempty]; rfl
    rw [if_pos hnone, hempty, List.map_eq_nil_iff, map_skillOfRequirement_eq_nil_iff]
    rw [hempty] at hindex
    obtain ⟨hunrated, hlowered, hgaps⟩ := hindex.mp rfl
    constructor
    · intro h
      exact ⟨hunrated, hlowered, hempty ▸ hgaps.1, hempty ▸ hgaps.2.1, hempty ▸ hgaps.2.2,
        fun _ => h⟩
    · intro h
      exact h.skillRequirements hempty
  · have haligned : text.SkillsAligned requirements skills ↔
        text.byIndex (text.skillsOf skills) (longest (text.skillsOf skills))
          = text.skillsOf skills := by
      rw [hindex]
      constructor
      · intro h
        exact ⟨h.unrated, h.lowered, h.names, h.slugs, h.categories⟩
      · rintro ⟨hunrated, hlowered, hnames, hslugs, hcategories⟩
        exact ⟨hunrated, hlowered, hnames, hslugs, hcategories, fun h => absurd h hempty⟩
    rw [haligned]
    by_cases hzero : longest (text.skillsOf skills) = 0
    · -- the rows have ratings only, which are exported nowhere
      rw [if_pos hzero]
      refine iff_of_false (fun h => ?_) fun h => ?_
      · obtain ⟨skill, hskill⟩ := List.exists_mem_of_ne_nil _ hempty
        have hunrated : skill.confidence = none := by
          rw [← h] at hskill
          obtain ⟨item, hitem, rfl⟩ := List.mem_map.mp hskill
          dsimp only
          rw [text.unrated_of_mem_requirements hitem]
          rfl
        exact longest_ne_zero hskill
          (value_of_unrated (text.of_mem_skillsOf hskill).1 hunrated) hzero
      · rw [hzero] at h
        exact hempty h.symm
    · rw [if_neg hzero]

end DatasetText

/-! ### A skill without a name -/

/-- A skill row without a name, and one with a name. -/
def gapInNames : List DbRow :=
  [[("skill_slug", .text "python"), ("skill_category", .text "language")],
    [("skill_name", .text "Docker"), ("skill_slug", .text "docker"),
      ("skill_category", .text "tool")]]

/-- The name of the second skill stands at the slug of the first. -/
theorem name_moved_to_other_slug :
    (DatasetExport.plainDatasetText.skillsJson (DatasetExport.plainDatasetText.buildAggregates [] []
        gapInNames { jobId := "j" } 24 0)).map (fun skill => (skill.name, skill.slug))
          = [("Docker", "python"), ("", "docker")] ∧
      ¬ DatasetExport.plainDatasetText.ExportsSkills [] [] gapInNames { jobId := "j" } 24 0 := by
  have hmoved : (DatasetExport.plainDatasetText.skillsJson
      (DatasetExport.plainDatasetText.buildAggregates [] [] gapInNames { jobId := "j" } 24 0)).map
        (fun skill => (skill.name, skill.slug)) = [("Docker", "python"), ("", "docker")] := by
    decide +kernel
  refine ⟨hmoved, fun h => ?_⟩
  rw [DatasetText.ExportsSkills] at h
  rw [h] at hmoved
  revert hmoved
  decide +kernel

end Bisakerja
