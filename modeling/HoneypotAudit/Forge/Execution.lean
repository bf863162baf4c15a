import HoneypotAudit.Breakdown
import HoneypotAudit.Forge.Config
import HoneypotAudit.Forge.Formatter
import HoneypotAudit.Number.Decimal

/-!
# Test runs

Suites run in a project: a directory with settings, the library that the suites need, and the file
that holds the suites.  A project is made when the first run needs it, in the configured directory
or in a new temporary one; `cleanUp` forgets it and removes a temporary one.

`run` writes the suites, runs the tests on forked chain state and reads the results.
-/

namespace HoneypotAudit.Forge

open HoneypotAudit.Text HoneypotAudit.Number

/-! ## Faults -/

/-- Why suites are not run to the end. -/
inductive ExecutionFault where
  | notFound (path : String)
  | installTimedOut
  | installFailed (output : Output)
  | testTimedOut (limit : Option Int)
  /-- The tests ran, but their report is refused. -/
  | refused (cause : ReportFault)
  deriving Repr, DecidableEq

/-- A time limit in a message. -/
def limitText : Option Int → String
  | some n => String.ofList (signedDecimal n)
  | none => "None"

/-- The failure that a fault amounts to. -/
def ExecutionFault.failure : ExecutionFault → Failure
  | .notFound path =>
    { kind := .execution, message := notFoundText path, code := .forgeUnavailable }
  | .installTimedOut =>
    { kind := .execution, message := "forge-std installation timed out", code := .timeout }
  | .installFailed output =>
    { kind := .execution, message := "forge-std installation failed", code := .forgeUnavailable
      status := some output.status, stderr := output.stderr }
  | .testTimedOut limit =>
    { kind := .execution, message := "forge test timed out after " ++ limitText limit ++ "s"
      code := .timeout }
  | .refused cause =>
    { kind := .execution, message := cause.message
      status := cause.output?.map (·.status)
      stderr := ((cause.output?.map (·.stderr)).getD "") }

/-- Why a step of an execution does not come to its end. -/
inductive Stop where
  | failed (cause : ExecutionFault)
  | broken (cause : Breakdown)
  deriving Repr, DecidableEq

/-- A step of an execution. -/
abbrev Step := Action Stop

/-- A step that deals with files only. -/
def Step.ofFiles {α : Type} (a : Action Files.Fault α) : Step α :=
  ExceptT.adapt (fun fault => .broken (.files fault)) a

/-- The name of the log. -/
def logger : String := "honeyprobe.fuzzer.forge_executor"

/-! ## Projects -/

/-- The directory of the project. -/
def projectDirectory : Step Files.Path := do
  match (← get).project.directory with
  | some p => pure p
  | none => throw (.broken .noProject)

/-- Fetches the library of the suites. -/
def install (c : Config) : Step Unit := do
  let directory ← projectDirectory
  let call : Call := {
    command := .install
    words := c.installWords
    timeout := some c.installTimeout
    directory := some directory.text }
  match ← Session.call call "" with
  | .missing => throw (.failed (.notFound c.forgePath))
  | .timedOut => throw (.failed .installTimedOut)
  | .finished output =>
    if output.status = 0 then pure () else throw (.failed (.installFailed output))

/-- Chooses the directory of a new project. -/
def chooseDirectory (c : Config) : StateM Session Files.Path := do
  let project : Project ← match c.fixedDirectory? with
    | some text => pure ⟨some (.ofText text), false⟩
    | none => pure ⟨some (← Session.makeTemporary), true⟩
  modify fun s => { s with project }
  pure (project.directory.getD {})

/-- The place of the sources of the library in a project. -/
def libraryPath : Files.Path := .relative ["lib", "forge-std", "src"]

/-- Makes a project. -/
def startProject (c : Config) : Step Files.Path := do
  let directory ← chooseDirectory c
  for name in ["src", "test", "lib"] do
    Step.ofFiles (Session.makeDirectories (directory.join (.relative [name])))
  Step.ofFiles
    (Session.writeText (directory.join (.relative ["foundry.toml"])) projectSettings.toList)
  let s ← get
  if !s.files.hasPath s.workingDirectory (directory.join libraryPath) then install c
  Session.log {
    logger := logger
    message := "Forge project initialized at " ++ directory.text }
  pure directory

/-- Writes the suites into their file. -/
def writeSuites (c : Config) (code : String) : Step Files.Path := do
  let path := (← projectDirectory).join (.ofText c.testFile)
  Step.ofFiles (Session.makeDirectories path.parent)
  Step.ofFiles (Session.writeText path code.toList)
  pure path

/-- Forgets the project, and removes its directory if it is a temporary one. -/
def cleanUp : StateM Session Unit := do
  let s ← get
  match s.project.directory with
  | some directory =>
    if s.project.isTemporary ∧ s.files.hasPath s.workingDirectory directory then
      modify fun s =>
        { s with files := s.files.removeBelow (directory.resolve s.workingDirectory) }
      Session.log {
        logger := logger
        level := Log.debug
        message := "Cleaned up forge project: " ++ directory.text }
  | none => pure ()
  modify fun s => { s with project := { s.project with directory := none } }

/-! ## Runs -/

/-- What is run: the suites of which scenarios, and on which chain state. -/
structure Request where
  code : String
  scenarios : List Scenario
  forkUrl : String := ""
  block : Option Block := none
  deriving Repr, DecidableEq

/-- Makes a project if there is none. -/
def ensureProject (c : Config) : Step Unit := do
  if (← get).project.directory.isNone then
    let _ ← startProject c

/-- Runs the tests and measures how many milliseconds they take. -/
def test (c : Config) (r : Request) : Step (Output × Binary64) := do
  let directory ← projectDirectory
  let call : Call := {
    command := .test
    words := c.testWords r.forkUrl r.block
    timeout := c.testTimeout
    directory := some directory.text
    environment := some c.environment }
  let start ← Session.readRunClock
  match ← Session.call call "" with
  | .missing => throw (.failed (.notFound c.forgePath))
  | .timedOut => throw (.failed (.testTimedOut c.testTimeout))
  | .finished output => do
    let finish ← Session.readRunClock
    pure (output, (finish - start) * .ofInt 1000)

/-- A time rounded to whole units. -/
def whole (time : Binary64) : Step Int :=
  match time.round? with
  | some n => pure n
  | none => throw (.broken (.duration (time = .nan)))

/-- Runs suites and reads a result for each of their scenarios. -/
def run (c : Config) (r : Request) : Step SuiteRun := do
  ensureProject c
  let _ ← writeSuites c r.code
  let (output, milliseconds) ← test c r
  let rounded ← whole milliseconds
  Session.log {
    logger := logger
    message := "forge test finished in " ++ fixed 0 milliseconds ++ "ms (exit " ++
      String.ofList (signedDecimal output.status) ++ ")"
    attributes := [("duration_ms", .int rounded),
      ("returncode", .int output.status)] }
  match SuiteRun.ofOutput (← get).rooms.reported output r.scenarios with
  | .ok run => pure { run with executionMilliseconds := milliseconds }
  | .error (.refused cause) => throw (.failed (.refused cause))
  | .error (.broken cause) => throw (.broken (.report cause))

end HoneypotAudit.Forge
