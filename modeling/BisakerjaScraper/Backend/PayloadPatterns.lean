import BisakerjaScraper.Python.Decimal
import BisakerjaScraper.Python.Patterns
import BisakerjaScraper.Schemes.Regex

/-! The patterns of the payload builder.

    Each is the pattern of the source under its name, written with the parts below. All of them but
    the two that only have punctuation are compiled with `re.IGNORECASE`. -/

namespace Bisakerja
open Schemes

/-! ### Parts -/

/-- A pattern of characters. -/
abbrev TextPattern := Regex Char

/-- The empty pattern. -/
def nothing : TextPattern := .look fun _ _ => true

/-- One pattern after the other. -/
def sequence : List TextPattern → TextPattern
  | [] => nothing
  | re :: rest => .seq re (sequence rest)

/-- `a|b|c`. -/
def choice : List TextPattern → TextPattern
  | [] => .look fun _ _ => false
  | [re] => re
  | re :: rest => .alt re (choice rest)

/-- `(?:a)?`. -/
def optional (re : TextPattern) : TextPattern := .alt re nothing

/-- Letters in any case. They are written in lower case. -/
def letters (text : String) : TextPattern :=
  sequence (text.toList.map fun letter => .one (foldLetter · = letter))

/-- `a`, and `b` if it follows. -/
def withSuffix (stem suffix : String) : TextPattern :=
  sequence [letters stem, optional (letters suffix)]

/-- One of some words. -/
def anyOf (texts : List String) : TextPattern := choice (texts.map letters)

/-- `\s*`. -/
def anySpaces : TextPattern := .many isSpace

/-- `\s+`. -/
def someSpaces : TextPattern := .seq (.one isSpace) (.many isSpace)

/-- `(\d+)`. -/
def someDigits : TextPattern := .group (.seq (.one isDecimalDigit) (.many isDecimalDigit))

/-- `a{n,n + more}`. -/
def repeated (p : Char → Bool) : ℕ → ℕ → TextPattern
  | n + 1, more => .seq (.one p) (repeated p n more)
  | 0, more + 1 => optional (.seq (.one p) (repeated p 0 more))
  | 0, 0 => nothing

/-- What stands in a replacement: a text, or what a group took. -/
inductive Piece where
  | text (s : String)
  | group (n : ℕ)

/-- A replacement, its groups filled in. -/
def Piece.expand (pieces : List Piece) (groups : List (List Char)) : List Char :=
  pieces.flatMap fun piece => match piece with
    | .text s => s.toList
    | .group n => groups.getD (n - 1) []

/-! ### Patterns without words -/

/-- `REQUIREMENT_SPLIT_PATTERN`: `\n+|(?:^|\s)[\-*]\s+|(?<=[.;:])\s+|(?<=\.)\s+`. -/
def requirementSplitPattern : TextPattern :=
  choice [
    .seq (.one (· = '\n')) (.many (· = '\n')),
    sequence [.alt (.look fun before _ => before.isNone) (.one isSpace),
      .one (fun c => c = '-' || c = '*'), someSpaces],
    .seq (.look fun before _ => before.any fun c => c = '.' || c = ';' || c = ':') someSpaces,
    .seq (.look fun before _ => before.any (· = '.')) someSpaces]

/-- `<[^>]+>`. -/
def htmlTagPattern : TextPattern :=
  sequence [.one (· = '<'), .one (· ≠ '>'), .many (· ≠ '>'), .one (· = '>')]

/-- `INVALID_SKILL_PATTERN`: `^[a-z]{2,24}_[0-9]{2,}$`. -/
def invalidSkillPattern : TextPattern :=
  sequence [repeated isLetter 2 22, .one (· = '_'), .one Char.isDigit, .one Char.isDigit,
    .many Char.isDigit]

namespace Alphabet

variable (alphabet : Alphabet)

/-- `\b`. -/
def boundary : TextPattern := .look (wordBoundary alphabet.isWord)

/-- `\b(a|b|c)\b`. -/
def bounded (re : TextPattern) : TextPattern := re.bounded alphabet.isWord

/-! ### Requirements -/

/-- `REQUIREMENT_NOISE_PATTERN`. -/
def requirementNoisePattern : TextPattern :=
  alphabet.bounded <| choice [letters "thr", letters "tunjangan", letters "benefit",
    withSuffix "benefit" "s", letters "fasilitas", letters "bonus", letters "cuti", letters "bpjs",
    letters "gaji pokok", letters "kompensasi", letters "asuransi", letters "uang makan",
    withSuffix "transport" "asi"]

/-- `EXPERIENCE_REQUIREMENT_PATTERN`. -/
def experienceRequirementPattern : TextPattern :=
  alphabet.bounded <| choice [letters "minimal", withSuffix "min" ".", letters "minimum",
    letters "pengalaman", letters "experience", letters "tahun", letters "years",
    letters "fresh graduate", letters "freshgrad", letters "junior", letters "senior",
    letters "lead"]

/-- `EDUCATION_REQUIREMENT_PATTERN`. -/
def educationRequirementPattern : TextPattern :=
  alphabet.bounded <| anyOf ["s1", "s2", "s3", "d3", "d4", "sarjana", "lulusan", "degree",
    "bachelor", "master", "computer science", "ilmu komputer", "teknik informatika", "pendidikan"]

/-- `RESPONSIBILITY_REQUIREMENT_PATTERN`. -/
def responsibilityRequirementPattern : TextPattern :=
  alphabet.bounded <| anyOf ["bertanggung jawab", "mengembangkan", "mengelola", "membangun",
    "melakukan", "membuat", "memelihara", "berkoordinasi", "menjaga", "mengoptimalkan", "menyusun",
    "responsible for", "developing", "managing", "building", "performing", "creating",
    "maintaining", "coordinating", "optimizing", "drafting"]

/-- `SKILL_REQUIREMENT_PATTERN`. -/
def skillRequirementPattern : TextPattern :=
  alphabet.bounded <| choice [letters "menguasai", letters "mahir", letters "proficient",
    letters "familiar", letters "keahlian", letters "kompetensi",
    sequence [letters "kemampuan", someSpaces,
      anyOf ["teknis", "analitis", "komunikasi", "problem solving"]]]

/-- The headings of `split_requirement_text`. -/
def requirementHeadingPattern : TextPattern :=
  sequence [alphabet.boundary, choice [letters "kualifikasi", letters "persyaratan",
    withSuffix "requirement" "s", withSuffix "qualification" "s",
    letters "tugas dan tanggung jawab"], anySpaces, .one (· = ':')]

/-- `\ba\b` with the words it is replaced by. -/
def wordReplacement (word replacement : String) : TextPattern × List Piece :=
  (alphabet.bounded (letters word), [.text replacement])

/-- `\ba\s*:\s*` with the heading it is replaced by. -/
def headingReplacement (heading : TextPattern) (replacement : String) : TextPattern × List Piece :=
  (sequence [alphabet.boundary, heading, anySpaces, .one (· = ':'), anySpaces], [.text replacement])

/-- `\ba\s+(\d+)\s+years\b` and what it is replaced by. -/
def yearsReplacement (front : String) (years : TextPattern) (replacement : String) :
    TextPattern × List Piece :=
  (alphabet.bounded (sequence [letters front, someSpaces, someDigits, someSpaces, years]),
    [.text (replacement ++ " "), .group 1, .text " years"])

/-- `\b(\d+)\s*-\s*(\d+)\s+years\b` and what it is replaced by. -/
def rangeReplacement (years : TextPattern) : TextPattern × List Piece :=
  (alphabet.bounded (sequence [someDigits, anySpaces, .one (· = '-'), anySpaces, someDigits,
    someSpaces, years]), [.group 1, .text "-", .group 2, .text " years"])

/-- `REQUIREMENT_REPLACEMENTS`. -/
def requirementReplacements : List (TextPattern × List Piece) := [
  alphabet.wordReplacement "gelar sarjana" "bachelor's degree",
  alphabet.wordReplacement "sarjana" "bachelor's degree",
  alphabet.wordReplacement "diploma" "diploma",
  alphabet.wordReplacement "minimum of" "minimum",
  alphabet.wordReplacement "minimal" "minimum",
  alphabet.wordReplacement "preferably" "preferred",
  alphabet.wordReplacement "lebih disukai" "preferred",
  alphabet.wordReplacement "strong interest" "strong interest",
  alphabet.wordReplacement "minat kuat" "strong interest",
  (alphabet.bounded (withSuffix "strong communication skill" "s"),
    [.text "strong communication skills"]),
  alphabet.wordReplacement "latar belakang di" "background in",
  alphabet.wordReplacement "bidang terkait" "related field",
  (alphabet.bounded (withSuffix "fresh graduate" "s"), [.text "fresh graduates"]),
  alphabet.wordReplacement "lulusan baru" "fresh graduates",
  (alphabet.bounded (withSuffix "candidate" "s"), [.text "candidates"]),
  alphabet.wordReplacement "kandidat" "candidates",
  (alphabet.bounded (sequence [withSuffix "year" "s", letters " of experience"]),
    [.text "years of experience"]),
  alphabet.wordReplacement "tahun pengalaman" "years of experience",
  alphabet.wordReplacement "experience in" "experience in",
  alphabet.wordReplacement "pengalaman dalam" "experience in",
  alphabet.wordReplacement "pengalaman" "experience",
  alphabet.wordReplacement "menguasai" "proficient in",
  alphabet.wordReplacement "mahir" "proficient in",
  alphabet.wordReplacement "mampu" "able to",
  alphabet.wordReplacement "bertanggung jawab" "responsible for",
  alphabet.wordReplacement "pendidikan" "education",
  alphabet.wordReplacement "mengembangkan" "developing",
  alphabet.wordReplacement "mengelola" "managing",
  alphabet.wordReplacement "membangun" "building",
  alphabet.wordReplacement "melakukan" "performing",
  alphabet.wordReplacement "membuat" "creating",
  alphabet.wordReplacement "memelihara" "maintaining",
  alphabet.wordReplacement "berkoordinasi" "coordinating",
  alphabet.wordReplacement "menjaga" "maintaining",
  alphabet.wordReplacement "mengoptimalkan" "optimizing",
  alphabet.wordReplacement "menyusun" "drafting",
  alphabet.headingReplacement (letters "experience") "Experience: ",
  alphabet.headingReplacement (letters "kategori") "Category: ",
  alphabet.headingReplacement (letters "category") "Category: ",
  alphabet.headingReplacement (letters "keahlian") "Skills: ",
  alphabet.headingReplacement (withSuffix "skill" "s") "Skills: ",
  alphabet.yearsReplacement "minimal" (letters "tahun") "minimum",
  alphabet.yearsReplacement "minimum" (withSuffix "year" "s") "minimum",
  alphabet.yearsReplacement "hingga" (letters "tahun") "up to",
  alphabet.yearsReplacement "up to" (withSuffix "year" "s") "up to",
  alphabet.rangeReplacement (letters "tahun"),
  alphabet.rangeReplacement (withSuffix "year" "s"),
  alphabet.wordReplacement "tahun" "years",
  alphabet.wordReplacement "dan" "and",
  alphabet.wordReplacement "dengan" "with",
  alphabet.wordReplacement "untuk" "for",
  alphabet.wordReplacement "yang" "that"]

/-! ### Skills -/

/-- `TECH_SKILL_PATTERN`. -/
def techSkillPattern : TextPattern :=
  alphabet.bounded <| choice [letters "python", withSuffix "java" "script", letters "typescript",
    withSuffix "go" "lang", letters "php", letters "ruby", letters "kotlin", letters "swift",
    letters "rust", letters "c++", letters "c#", letters "sql", withSuffix "postgres" "ql",
    letters "mysql", letters "mariadb", letters "mongodb", letters "redis", letters "oracle",
    letters "docker", letters "kubernetes", letters "terraform", letters "ansible", letters "linux",
    letters "git", withSuffix "node" ".js", withSuffix "react" ".js", withSuffix "vue" ".js",
    letters "angular", withSuffix "next" ".js", withSuffix "nuxt" ".js", letters "laravel",
    letters "django", letters "flask", letters "fastapi", withSuffix "spring" " boot",
    withSuffix "express" ".js", letters "aws", letters "gcp", letters "azure",
    sequence [withSuffix "rest" "ful", anySpaces, letters "api"], letters "graphql",
    letters "ci/cd", withSuffix "microservice" "s"]

/-- `SKILL_SPLIT_PATTERN`. -/
def skillSplitPattern : TextPattern :=
  .alt (sequence [anySpaces, choice [letters ",", letters "/", letters ";", letters "|",
      alphabet.bounded (letters "and"), letters "&"], anySpaces])
    (sequence [someSpaces, letters "+", someSpaces])

/-- `ROLE_BASED_SKILL_FALLBACKS`. -/
def roleBasedSkillFallbacks : List (TextPattern × String) := [
  (alphabet.bounded (anyOf ["engineer", "developer", "programmer", "software", "backend",
    "frontend", "full stack"]), "Programming"),
  (alphabet.bounded (anyOf ["sales", "business development", "account executive",
    "telemarketing"]), "Negotiation"),
  (alphabet.bounded (anyOf ["marketing", "brand", "content", "social media", "seo", "sem"]),
    "Digital Marketing"),
  (alphabet.bounded (anyOf ["customer service", "customer support", "helpdesk", "call center"]),
    "Customer Service"),
  (alphabet.bounded (anyOf ["finance", "accounting", "akuntan", "tax", "auditor"]),
    "Financial Analysis"),
  (alphabet.bounded (anyOf ["hr", "recruiter", "talent acquisition", "people"]),
    "Interpersonal Communication"),
  (alphabet.bounded (anyOf ["operation", "logistic", "warehouse", "supply chain"]),
    "Operations Management"),
  (alphabet.bounded (anyOf ["product manager", "product owner", "project manager"]),
    "Project Management")]

end Alphabet

/-- `TECH_SKILL_CANONICAL_MAP`. -/
def techSkillCanonicalMap : List (String × String) := [
  ("python", "Python"), ("java", "Java"), ("javascript", "JavaScript"),
  ("typescript", "TypeScript"), ("go", "Go"), ("golang", "Go"), ("php", "PHP"), ("ruby", "Ruby"),
  ("kotlin", "Kotlin"), ("swift", "Swift"), ("rust", "Rust"), ("c++", "C++"), ("c#", "C#"),
  ("sql", "SQL"), ("postgres", "PostgreSQL"), ("postgresql", "PostgreSQL"), ("mysql", "MySQL"),
  ("mariadb", "MariaDB"), ("mongodb", "MongoDB"), ("redis", "Redis"), ("oracle", "Oracle"),
  ("docker", "Docker"), ("kubernetes", "Kubernetes"), ("terraform", "Terraform"),
  ("ansible", "Ansible"), ("linux", "Linux"), ("git", "Git"), ("node", "Node.js"),
  ("node.js", "Node.js"), ("react", "React"), ("react.js", "React"), ("vue", "Vue"),
  ("vue.js", "Vue"), ("angular", "Angular"), ("next", "Next.js"), ("next.js", "Next.js"),
  ("nuxt", "Nuxt.js"), ("nuxt.js", "Nuxt.js"), ("laravel", "Laravel"), ("django", "Django"),
  ("flask", "Flask"), ("fastapi", "FastAPI"), ("spring", "Spring"), ("spring boot", "Spring Boot"),
  ("express", "Express.js"), ("express.js", "Express.js"), ("aws", "AWS"), ("gcp", "GCP"),
  ("azure", "Azure"), ("rest api", "REST API"), ("restful api", "REST API"),
  ("graphql", "GraphQL"), ("ci/cd", "CI/CD"), ("microservice", "Microservices"),
  ("microservices", "Microservices")]

end Bisakerja
