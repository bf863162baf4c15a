import HoneypotAudit.Analysis.Preparation
import HoneypotAudit.Forge.Execution
import HoneypotAudit.Report.Basic
import HoneypotAudit.Validation

/-!
# Analyses

`analyze` makes a contract ready, runs its suites on forked chain state, and reports a result for
every scenario that applies.  What is wrong with the source or with the run goes into the report;
only a breakdown leaves no report.
-/

namespace HoneypotAudit.Analysis

open HoneypotAudit.Number HoneypotAudit.Deployment

/-- How contracts are analysed. -/
structure Analyzer where
  preparing : Preparing := {}
  execution : Forge.Config := {}
  /-- The node whose state is used when a task names none. -/
  forkUrl : String := ""
  /-- The block that is used when a task names none. -/
  forkBlock : Option Int := none
  deriving Repr, DecidableEq

/-- What to analyse. -/
structure Task where
  source : String
  arguments : Blob := .none
  forkUrl : Option String := none
  block : Option Forge.Block := none
  /-- The transaction of the deployment, which the report repeats; nothing if it is asked for, but
  not which one. -/
  transaction : Option String := some ""
  deriving Repr, DecidableEq

/-- The node whose state an analysis uses. -/
def Analyzer.urlFor (a : Analyzer) (t : Task) : String :=
  match t.forkUrl with
  | some url => if url.isEmpty then a.forkUrl else url
  | none => a.forkUrl

/-- The block whose state an analysis uses. -/
def Analyzer.blockFor (a : Analyzer) (t : Task) : Option Forge.Block :=
  t.block <|> a.forkBlock.map .number

/-- The name of the log. -/
def logger : String := "honeyprobe.pipeline.orchestrator"

/-- A record of the analysis. -/
def note (level : Int) (message : String) (attributes : Json.Members) : StateM Session Unit :=
  Session.log { logger, level, message, attributes }

/-! ## Reports -/

/-- A block as JSON. -/
def blockJson : Option Forge.Block → Json
  | none => .null
  | some (.number n) => .int n
  | some .unnamed => .arr []

/-- The number of the block that a report names. -/
def reportedBlock : Option Forge.Block → Validation.Checked (Option Int)
  | none => .good none
  | some (.number n) => .good (some n)
  | some .unnamed => .wrong "block_number" .notInteger

/-- The transaction that a report names. -/
def reportedTransaction : Option String → Validation.Checked String
  | some transaction => .good transaction
  | none => .wrong "tx_hash" .notText

/-- What all reports of an analysis have in common, unless the task does not say what a report has
to name. -/
def Analyzer.blank (a : Analyzer) (t : Task) (seconds : Binary64) (status : ReportStatus) :
    Validation.Checked Report :=
  ((reportedBlock (a.blockFor t)).map fun block transaction =>
    { status, transaction, block, seconds }).ap (reportedTransaction t.transaction)

/-- A report about a contract that was made ready. -/
def withContract (p : Prepared) (r : Report) : Report :=
  { r with
    contractName := p.facts.name
    decodedArguments := p.decoded.arguments
    argumentError := (p.decoded.fault.map (·.message)).getD "" }

/-- What a report says beside the results of a run. -/
def runMetadata (p : Prepared) (run : Forge.SuiteRun) : Json.Members :=
  [("returncode", .int run.status),
    ("execution_time_ms", .int (run.executionMilliseconds.round?.getD 0)),
    ("suite_count", .int p.suites.length)]

/-- What a report says about a failed run. -/
def failureMetadata (f : Failure) : Json.Members :=
  [("returncode", (f.status.map Json.int).getD .null), ("error_code", .str f.code.text)]

/-! ## Runs -/

/-- Runs the suites of a contract, with log records that say what they are about. -/
def execute (a : Analyzer) (t : Task) (p : Prepared) :
    Action Breakdown (Except Forge.ExecutionFault Forge.SuiteRun) := do
  modify fun s => { s with subject := some (p.facts.name, t.transaction.getD "") }
  note Log.info ("Running " ++ toString p.suites.length ++ " suites for " ++ p.facts.name)
    [("fork_url", .str (a.urlFor t)), ("block_number", blockJson (a.blockFor t))]
  let outcome ← (Forge.run a.execution {
    code := p.code
    scenarios := p.scenarios
    forkUrl := a.urlFor t
    block := a.blockFor t }).run
  let result : Except Breakdown (Except Forge.ExecutionFault Forge.SuiteRun) ← match outcome with
    | .ok run => pure (.ok (.ok run))
    | .error (.broken b) => pure (.error b)
    | .error (.failed cause) => do
      note Log.error
        ("Execution failed for " ++ p.facts.name ++ ": " ++ cause.failure.message) []
      pure (.ok (.error cause))
  modify fun s => { s with subject := none }
  match result with
  | .ok r => pure r
  | .error b => throw b

/-- The verdicts of a report in words. -/
def verdictText (r : Report) : String :=
  ", ".intercalate (r.verdicts.map fun (s, v) => s.text ++ "=" ++ v.text)

/-- The seconds since a reading of the clock. -/
def elapsed (start : Binary64) : StateM Session Binary64 := do
  let now ← Session.readAnalysisClock
  pure (now - start)

/-- Starts a report. -/
def startReport (a : Analyzer) (t : Task) (start : Binary64) (status : ReportStatus) :
    Action Breakdown Report := do
  match (a.blank t (← elapsed start) status).toExcept with
  | .ok report => pure report
  | .error issues => throw (.unreportable issues)

/-- Runs the suites of a contract and reports what they say. -/
def test (a : Analyzer) (t : Task) (start : Binary64) (p : Prepared) : Action Breakdown Report := do
  match ← execute a t p with
  | .error cause =>
    pure {
      withContract p (← startReport a t start .executionFailed) with
      error := cause.failure.message
      metadata := failureMetadata cause.failure }
  | .ok run =>
    let report := {
      withContract p (← startReport a t start .tested) with
      results := run.results.map fun r => (r.scenario, r)
      metadata := runMetadata p run }
    note Log.info ("Tested " ++ p.facts.name ++ ": " ++ verdictText report)
      [("verdicts", .obj (report.verdicts.map fun (s, v) => (s.text, .str v.text)))]
    pure report

/-- Analyses a contract. -/
def analyze (a : Analyzer) (t : Task) : Action Breakdown Report := do
  let start ← Session.readAnalysisClock
  match ← (prepare a.preparing t.source t.arguments).run with
  | .error (.broken b) => throw b
  | .error (.rejected cause) =>
    note Log.warning ("Source rejected: " ++ cause.failure.message) []
    pure { (← startReport a t start .parseFailed) with error := cause.failure.message }
  | .ok p =>
    if p.facts.isApplicable then test a t start p
    else
      note Log.info (p.facts.name ++ " is neither a token nor ownable, nothing to test") []
      pure (withContract p (← startReport a t start .notApplicable))

end HoneypotAudit.Analysis
