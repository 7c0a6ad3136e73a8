import FixLoop.Library.Strings

namespace FixLoop
namespace EditLock

open Library

/-!
# Paths of the repository

Paths are texts, read as POSIX paths.  What becomes of letters beyond ASCII
under `lower` and `casefold` is not decided here.
-/

abbrev Text := List Char

class Lettering where
  lower : Text -> Text
  casefold : Text -> Text

/-- Only the letters of ASCII have two cases. -/
@[reducible] def asciiLettering : Lettering where
  lower := fun text => text.map Char.toLower
  casefold := fun text => text.map Char.toLower

variable [Lettering]

open Lettering

def slashed (path : Text) : Text := path.map fun char => if char = '\\' then '/' else char

def strip (text : Text) : Text :=
  ((text.dropWhile Strings.isSpace).reverse.dropWhile Strings.isSpace).reverse

def startsWith (start text : Text) : Bool := start.isPrefixOf text

/-- One of the words is the text. -/
def oneOf (words : List String) (text : Text) : Bool := words.any fun word => decide (word.toList = text)

/-- `PurePosixPath(text).parts` without the root. -/
def parts (text : Text) : List Text :=
  (text.splitOn '/').filter fun part => !oneOf ["", "."] part

def joined (parts : List Text) : Text := List.intercalate ['/'] parts

/-- `Path(text).name`. -/
def name (text : Text) : Text := (parts text).getLast?.getD []

/-- `Path(text).suffix`. -/
def suffix (text : Text) : Text :=
  let rest := ((name text).reverse.takeWhile fun char => char != '.').reverse
  if rest = [] ∨ (name text).length ≤ rest.length + 1 then [] else '.' :: rest

/-- `fnmatch.fnmatch(text, pattern)` for patterns whose only wildcard is the
star. -/
def fnmatch : Text -> Text -> Bool
  | [], text => text.isEmpty
  | '*' :: pattern, text => text.tails.any (fnmatch pattern)
  | char :: pattern, text =>
    match text with
    | [] => false
    | other :: rest => char == other && fnmatch pattern rest

example : fnmatch "docker-compose*.yml".toList "docker-compose.dev.yml".toList = true := by decide +kernel

/-! ## Sensitive paths -/

def SENSITIVE_BASENAME_GLOBS : List String :=
  [".env", ".env.*", "*.pem", "*.key", "*.p12", "*.pfx", "id_rsa", "id_rsa.*", "id_ed25519",
    "id_ed25519.*", "credentials", "credentials.*", "credentials.json", "service-account*.json",
    "*.keystore", "secrets.yaml", "secrets.yml", "secrets.json"]

def SENSITIVE_PATH_SUBSTRINGS : List String :=
  ["/.ssh/", "\\.ssh\\", "/.aws/", "\\.aws\\", "/.gnupg/", "\\.gnupg\\"]

def PROTECTED_PATH_COMPONENTS : List String := [".git", ".agent"]

def SENSITIVE_PATH_GLOBS : List String :=
  [".git/config", ".gitmodules", ".npmrc", ".pypirc", ".docker/config.json", ".terraformrc",
    "*.tfvars", "*.tfvars.json", "kubeconfig", "*/kubeconfig", ".github/workflows/*",
    ".gitlab-ci.yml", ".circleci/config.yml", "azure-pipelines.yml", "Jenkinsfile",
    "docker-compose*.yml", "docker-compose*.yaml"]

/-- `text.lstrip("./")`. -/
def lstripDots (text : Text) : Text := text.dropWhile fun char => char == '.' || char == '/'

/-- `re.fullmatch(r"\.env(\..+)?", name, flags=re.I)`. -/
def isEnvFile : Text -> Bool
  | '.' :: first :: second :: third :: rest =>
    (first == 'e' || first == 'E') && (second == 'n' || second == 'N') && (third == 'v' || third == 'V') &&
      match rest with
      | [] => true
      | dot :: more => dot == '.' && !more.isEmpty && more.all fun char => char != '\n'
  | _ => false

def isSensitivePath (path : Text) : Bool :=
  let text := slashed path
  let normalized := lstripDots (lower text)
  !text.isEmpty &&
    (SENSITIVE_PATH_SUBSTRINGS.any (fun part =>
        Strings.includesChars (lower (slashed part.toList)) (lower text)) ||
      (parts text).any (fun part => oneOf PROTECTED_PATH_COMPONENTS (casefold part)) ||
      SENSITIVE_PATH_GLOBS.any (fun pattern =>
        fnmatch (lower pattern.toList) normalized || fnmatch (lstripDots (lower pattern.toList)) normalized ||
          fnmatch ('*' :: '/' :: lstripDots (lower pattern.toList)) normalized) ||
      SENSITIVE_BASENAME_GLOBS.any (fun pattern =>
        fnmatch pattern.toList (name text) || fnmatch (lower pattern.toList) (lower (name text))) ||
      isEnvFile (name text))

def EXTENSIONS : List String :=
  [".py", ".js", ".jsx", ".mjs", ".cjs", ".ts", ".tsx", ".java", ".go", ".rs", ".rb", ".php"]

def editableSource (path : Text) : Bool := oneOf EXTENSIONS (lower (suffix path))

def isTestPath (path : Text) : Bool :=
  let text := lower (slashed path)
  Strings.includesChars "/tests/".toList ('/' :: text) || startsWith "tests/".toList text ||
    startsWith "test_".toList text || "_test.py".toList.isSuffixOf text ||
    "/conftest.py".toList.isSuffixOf text

/-! ## Normal forms -/

/-- The parts that remain, unless one of them leads out of the repository. -/
def inside : List Text -> Option (List Text)
  | [] => some []
  | part :: rest =>
    if oneOf ["", "."] part then inside rest
    else if oneOf [".."] part then none
    else (inside rest).map fun kept => part :: kept

/-- `resolved` is the path relative to the root that an absolute path
resolves to, if there is one. -/
def normalizeRepoRel (resolved : Text -> Option Text) (path : Text) : Text :=
  let raw := strip (slashed path)
  if raw = [] then []
  else if startsWith ['/'] raw then ((resolved raw).map slashed).getD []
  else ((inside (raw.splitOn '/')).map joined).getD []

def RESERVED : List String :=
  ["con", "prn", "aux", "nul", "com1", "com2", "com3", "com4", "com5", "com6", "com7", "com8", "com9",
    "lpt1", "lpt2", "lpt3", "lpt4", "lpt5", "lpt6", "lpt7", "lpt8", "lpt9"]

def PROTECTED : List String := [".git", ".agent", ".aws", ".ssh", ".gnupg"]

def forbiddenPart (part : Text) : Bool :=
  oneOf ["", ".", ".."] part ||
    part.any (fun char => char ∈ [':', '*', '?', '"', '<', '>', '|'] || char.toNat < 32) ||
    [".", " "].any (fun ending => ending.toList.isSuffixOf part) ||
    oneOf RESERVED (casefold (part.takeWhile fun char => char != '.'))

def protectedPart (part : Text) : Bool :=
  oneOf PROTECTED (casefold part) || startsWith ".fixloop-s0-private-".toList (casefold part) ||
    startsWith ".fixloop-private-".toList (casefold part) || isSensitivePath part

/-- The relative path of a sandbox workspace; nothing, where it is refused. -/
def relativePath (raw : Text) : Option Text :=
  if raw = [] ∨ 4096 < raw.length ∨ raw.any (fun char => char == '\x00') then none
  else if startsWith ['/'] (slashed raw) ∨ ((slashed raw).splitOn '/').any forbiddenPart then none
  else if isSensitivePath (slashed raw) ∨ (parts (slashed raw)).any protectedPart then none
  else some (joined (parts (slashed raw)))

/-- A path that is accepted keeps its components. -/
theorem relativePath_slashed {path accepted : Text} (valid : relativePath path = some accepted) :
    accepted = slashed path := by
  unfold relativePath at valid
  split at valid
  · cases valid
  · split at valid
    · cases valid
    · next plain =>
        split at valid
        · cases valid
        · rw [not_or] at plain
          have kept : parts (slashed path) = (slashed path).splitOn '/' := by
            refine List.filter_eq_self.mpr fun part member => ?_
            have allowed : forbiddenPart part = false := by
              by_contra forbidden
              exact plain.2 (List.any_eq_true.mpr ⟨part, member, eq_true_of_ne_false forbidden⟩)
            simp only [forbiddenPart, oneOf, List.any_cons, List.any_nil, Bool.or_eq_false_iff] at allowed
            simp only [oneOf, List.any_cons, List.any_nil, allowed.1.1.1.1, allowed.1.1.1.2.1, Bool.or_false, Bool.not_false]
          rw [kept, joined] at valid
          exact (Option.some.inj valid).symm.trans (List.intercalate_splitOn _)

omit [Lettering] in
theorem slashed_eq_self {path : Text} : slashed path = path <-> '\\' ∉ path := by
  rw [slashed]
  induction path with
  | nil => exact ⟨fun _ => List.not_mem_nil, fun _ => rfl⟩
  | cons char rest ih =>
    rw [List.map_cons, List.cons.injEq, ih, List.mem_cons, not_or]
    refine and_congr_left fun _ => ?_
    by_cases here : char = '\\'
    · rw [if_pos here, here]
      exact ⟨fun same => absurd same (by decide), fun apart => absurd rfl apart⟩
    · rw [if_neg here]
      exact ⟨fun _ same => here same.symm, fun _ => rfl⟩

/-- The host takes a path as it is exactly where it has no backslash. -/
theorem relativePath_same {path : Text} (valid : relativePath path ≠ none) :
    relativePath path = some path <-> '\\' ∉ path := by
  rcases Option.ne_none_iff_exists'.mp valid with ⟨accepted, same⟩
  rw [same, Option.some.injEq, relativePath_slashed same, slashed_eq_self]

theorem relativePath_empty : relativePath ([] : Text) = none := if_pos (.inl rfl)

end EditLock
end FixLoop
