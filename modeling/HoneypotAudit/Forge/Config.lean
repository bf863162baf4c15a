import HoneypotAudit.Text.Digit

/-!
# Configuration of test runs

How the tool is called, where the project of a run is, and the command line of a run on forked
chain state.
-/

namespace HoneypotAudit.Forge

open HoneypotAudit.Text

/-- The configuration of test runs. -/
structure Config where
  forgePath : String := "forge"
  /-- The directory of the project; without one every project gets a temporary directory. -/
  projectDirectory : Option String := none
  /-- The file of the suites in the project. -/
  testFile : String := "test/test.sol"
  testTimeout : Option Int := some 600
  installTimeout : Int := 300
  /-- The variables that are set for test runs. -/
  environment : List (String × String) := [("RUST_LOG", "off")]
  deriving Repr, DecidableEq, Inhabited

/-- The directory of the project if it is fixed; an empty text fixes none. -/
def Config.fixedDirectory? (c : Config) : Option String :=
  c.projectDirectory.filter (!·.isEmpty)

/-- The block whose chain state is asked for. -/
inductive Block where
  | number (n : Int)
  /-- A block is asked for, but not which one. -/
  | unnamed
  deriving Repr, DecidableEq

/-- A block as a word.  One without a number is an empty list. -/
def Block.text : Block → String
  | .number n => String.ofList (signedDecimal n)
  | .unnamed => "[]"

/-- The words that select the chain state.  A block counts only together with a node. -/
def forkWords (url : String) (block : Option Block) : List String :=
  if url.isEmpty then []
  else ["--fork-url", url] ++
    match block with
    | some block => ["--fork-block-number", block.text]
    | none => []

/-- The words of a test run. -/
def Config.testWords (c : Config) (url : String) (block : Option Block) : List String :=
  [c.forgePath, "test", "--match-path", c.testFile, "--json"] ++ forkWords url block

/-- The words that fetch the library of the suites. -/
def Config.installWords (c : Config) : List String :=
  [c.forgePath, "install", "foundry-rs/forge-std", "--no-git"]

/-- The settings of a project. -/
def projectSettings : String :=
  "\n".intercalate [
    "[profile.default]",
    "src = \"src\"",
    "test = \"test\"",
    "out = \"out\"",
    "libs = [\"lib\"]",
    "remappings = [\"forge-std/=lib/forge-std/src/\"]",
    "auto_detect_solc = true",
    "",
    "[invariant]",
    "fail_on_revert = false"] ++ "\n"

end HoneypotAudit.Forge
