import HoneypotAudit.Forge.Report

/-!
# Reports

The result of an analysis.  A contract is tested, or not: because there is nothing to test, because
its source is not read, or because the suites were not run to the end.
-/

namespace HoneypotAudit

open HoneypotAudit.Number HoneypotAudit.Forge

/-- How far an analysis got. -/
inductive ReportStatus where
  | tested
  | notApplicable
  | parseFailed
  | executionFailed
  deriving Repr, DecidableEq, Inhabited

/-- The name of a status in reports. -/
def ReportStatus.text : ReportStatus → String
  | .tested => "tested"
  | .notApplicable => "not_applicable"
  | .parseFailed => "parse_failed"
  | .executionFailed => "execution_failed"

/-- The status of a name. -/
def ReportStatus.ofText? (s : String) : Option ReportStatus :=
  [ReportStatus.tested, .notApplicable, .parseFailed, .executionFailed].find? (·.text = s)

/-- The result of an analysis. -/
structure Report where
  contractName : String := ""
  status : ReportStatus
  /-- The results by scenario, each scenario once. -/
  results : List (Scenario × ScenarioResult) := []
  decodedArguments : List String := []
  argumentError : String := ""
  error : String := ""
  transaction : String := ""
  block : Option Int := none
  seconds : Binary64 := .zero false
  metadata : Json.Members := []
  deriving Repr

namespace Report

/-- Whether the suites ran to the end. -/
def isTested (r : Report) : Bool :=
  r.status = .tested

/-- The scenarios that failed. -/
def failed (r : Report) : List Scenario :=
  (r.results.filter fun (_, result) => result.verdict = .fail).map (·.1)

/-- Whether the contract was tested, for at least one scenario, and none failed. -/
def isSafe (r : Report) : Bool :=
  r.isTested && !r.results.isEmpty && r.failed.isEmpty

/-- The verdicts by scenario. -/
def verdicts (r : Report) : List (Scenario × Verdict) :=
  r.results.map fun (s, result) => (s, result.verdict)

end Report

end HoneypotAudit
