import HoneypotAudit.Analysis.Run
import HoneypotAudit.Settings.EnvironmentFile
import HoneypotAudit.Text.LowerCase
import HoneypotAudit.Validation

/-!
# Settings

The settings of the program come from three sources, of which the first that names a setting counts:
values that are given directly, the environment, and an environment file.  In the environment and in
the file the names have a mark in front and may be in any case.

What the environment says beside the settings does not matter.  Values that are given directly and
lines of the file have to name a setting.
-/

namespace HoneypotAudit

open HoneypotAudit.Validation HoneypotAudit.Text

/-- The settings of the program. -/
structure Settings where
  appName : String := "honeyprobe"
  environment : String := "development"
  logLevel : String := "INFO"
  /-- The compiler version, if it is not taken from the source. -/
  solcVersion : Option String := none
  solcFallback : String := "0.8.28"
  forgePath : String := "forge"
  projectDirectory : Option String := none
  testTimeout : Int := 600
  formatTimeout : Int := 30
  testFile : String := "test/test.sol"
  forkUrl : String := ""
  forkBlock : Option Int := none
  seedAmount : String := "1e20"
  skippedSeconds : Int := 31536000
  deriving Repr, DecidableEq, Inhabited

namespace Settings

/-! ## Names -/

/-- The names of the settings. -/
def names : List String :=
  ["app_name", "app_env", "log_level", "solc_version", "solc_fallback_version", "forge_path",
    "forge_project_dir", "forge_test_timeout", "forge_fmt_timeout", "forge_test_file", "fork_url",
    "fork_block", "seed_amount", "time_skip_seconds"]

/-- The mark in front of a name outside the program. -/
def mark : String := "honeyprobe_"

/-- The environments that the program knows. -/
def environments : List String := ["development", "staging", "production"]

/-! ## Reading -/

/-- The settings that values describe, or all that is wrong with them. -/
def ofMembers (ms : Json.Members) : Checked Settings :=
  let d : Settings := {}
  Checked.good Settings.mk
    |>.ap (defaulted text d.appName "" "app_name" ms)
    |>.ap (defaulted (choice environments) d.environment "" "app_env" ms)
    |>.ap (defaulted text d.logLevel "" "log_level" ms)
    |>.ap (defaulted (nullable text) d.solcVersion "" "solc_version" ms)
    |>.ap (defaulted text d.solcFallback "" "solc_fallback_version" ms)
    |>.ap (defaulted text d.forgePath "" "forge_path" ms)
    |>.ap (defaulted (nullable text) d.projectDirectory "" "forge_project_dir" ms)
    |>.ap (defaulted integer d.testTimeout "" "forge_test_timeout" ms)
    |>.ap (defaulted integer d.formatTimeout "" "forge_fmt_timeout" ms)
    |>.ap (defaulted text d.testFile "" "forge_test_file" ms)
    |>.ap (defaulted text d.forkUrl "" "fork_url" ms)
    |>.ap (defaulted (nullable integer) d.forkBlock "" "fork_block" ms)
    |>.ap (defaulted text d.seedAmount "" "seed_amount" ms)
    |>.ap (defaulted integer d.skippedSeconds "" "time_skip_seconds" ms)

/-- The members that name no setting. -/
def unknown (ms : Json.Members) : List Issue :=
  (ms.filter fun m => m.1 ∉ names).map fun m => ⟨m.1, .unknown⟩

/-- The settings that values describe, where every value has to name one. -/
def check (ms : Json.Members) : Except (List Issue) Settings :=
  let settings := ofMembers ms
  match unknown ms with
  | [] => settings.toExcept
  | issues => (Checked.ap (.bad issues : Checked (Settings → Settings)) settings).toExcept

/-! ## Sources -/

/-- Where settings come from. -/
structure Sources where
  given : Json.Members := []
  environment : List (String × String) := []
  file : EnvironmentFile.Document := {}
  deriving Repr

/-- Members by their names in lower case.  Of names that fall together the last one counts. -/
def inLowerCase (ms : Json.Members) : Json.Members :=
  Json.ofPairs (ms.map fun (name, v) => (lower name, v))

/-- The settings under their marked names in members with names in lower case.  A name without a
value sets nothing. -/
def marked (ms : Json.Members) : Json.Members :=
  names.filterMap fun name =>
    ((Json.find? (mark ++ name) ms).filter fun v => !v.isNull).map fun v => (name, v)

/-- The members of the environment, with names in lower case. -/
def Sources.environmentMembers (s : Sources) : Json.Members :=
  inLowerCase (s.environment.map fun (name, v) => (name, .str v))

/-- The members of the file, with names in lower case.  A key that is bound again keeps its place
and loses its value, before the cases of keys fall together. -/
def Sources.fileMembers (s : Sources) : Json.Members :=
  let bindings := EnvironmentFile.resolveAll s.environment [] s.file.bindings
  inLowerCase (Json.ofPairs (bindings.map fun (key, v) => (key, (v.map Json.str).getD .null)))

/-- The lines of a file that say something but name nothing. -/
def strangers (ms : Json.Members) : Json.Members :=
  ms.filter fun (key, v) =>
    v.isTrue && !(names.map (mark ++ ·)).contains key && !names.contains key

/-- Values that are given directly, by the names of settings.  The name in its own case goes before
the same name in other cases. -/
def givenMembers (ms : Json.Members) : Json.Members :=
  let (own, others) := ms.partition fun (name, _) => names.contains name
  let (cased, strange) := others.partition fun (name, _) => names.contains (lower name)
  Json.ofPairs (inLowerCase cased ++ own ++ strange)

/-- All values, each from the first source that names it. -/
def Sources.members (s : Sources) : Json.Members :=
  Json.ofPairs (strangers s.fileMembers ++ marked s.fileMembers ++ marked s.environmentMembers ++
    givenMembers s.given)

/-- The settings of some sources, or all that is wrong with them. -/
def load (s : Sources) : Except (List Issue) Settings :=
  check s.members

/-! ## Use -/

/-- How sources are made ready. -/
def preparing (s : Settings) : Analysis.Preparing where
  formatter := { forgePath := s.forgePath, timeout := s.formatTimeout }
  compiling := { version := { pinned := s.solcVersion, fallback := s.solcFallback } }
  amounts := { seed := s.seedAmount, skippedSeconds := s.skippedSeconds }

/-- How suites are run. -/
def execution (s : Settings) : Forge.Config :=
  { forgePath := s.forgePath
    projectDirectory := s.projectDirectory
    testFile := s.testFile
    testTimeout := some s.testTimeout }

/-- How contracts are analysed. -/
def analyzer (s : Settings) : Analysis.Analyzer where
  preparing := s.preparing
  execution := s.execution
  forkUrl := s.forkUrl
  forkBlock := s.forkBlock

/-! ## Shown settings -/

/-- A fork URL without what follows its scheme, which often is a secret. -/
def maskUrl (url : String) : String :=
  if url.isEmpty then url
  else String.ofList (beforeScheme url.toList) ++ "://****"
where
  /-- The text before `://`, or all of it. -/
  beforeScheme : List Char → List Char
    | [] => []
    | ':' :: '/' :: '/' :: _ => []
    | c :: cs => c :: beforeScheme cs

/-- The settings by name as JSON. -/
def members (s : Settings) : Json.Members :=
  [("app_name", .str s.appName), ("app_env", .str s.environment), ("log_level", .str s.logLevel),
    ("solc_version", (s.solcVersion.map Json.str).getD .null),
    ("solc_fallback_version", .str s.solcFallback), ("forge_path", .str s.forgePath),
    ("forge_project_dir", (s.projectDirectory.map Json.str).getD .null),
    ("forge_test_timeout", .int s.testTimeout), ("forge_fmt_timeout", .int s.formatTimeout),
    ("forge_test_file", .str s.testFile), ("fork_url", .str s.forkUrl),
    ("fork_block", (s.forkBlock.map Json.int).getD .null), ("seed_amount", .str s.seedAmount),
    ("time_skip_seconds", .int s.skippedSeconds)]

end Settings

end HoneypotAudit
