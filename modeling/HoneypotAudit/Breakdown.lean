import HoneypotAudit.Deployment.Arguments
import HoneypotAudit.Files.Tree
import HoneypotAudit.Forge.Report
import HoneypotAudit.Solidity.Tree
import HoneypotAudit.Validation

/-!
# Breakdowns

A breakdown ends an analysis without a report: something came in a shape that no step provides for,
or the world did not let a step do its work.
-/

namespace HoneypotAudit

/-- What ends an analysis without a report. -/
inductive Breakdown where
  /-- A syntax tree is not read. -/
  | tree (cause : Solidity.Tree.Fault)
  /-- Raw arguments are not decoded to an end. -/
  | data (cause : Deployment.Stopped)
  /-- A compiler version is no version. -/
  | version (message : String)
  /-- An operation on files fails. -/
  | files (cause : Files.Fault)
  /-- The time that a test run took is not a finite number. -/
  | duration (isNan : Bool)
  /-- There is no project. -/
  | noProject
  /-- The facts about a source are wanted, but there is no way to find them. -/
  | noFacts
  /-- A test report has an unknown shape. -/
  | report (cause : Forge.ShapeFault)
  /-- The report cannot name what it has to name. -/
  | unreportable (issues : List Validation.Issue)
  deriving Repr, DecidableEq

/-- The wording of a shape fault of a test report. -/
def Forge.ShapeFault.message : Forge.ShapeFault → String
  | .oversized digits => (Text.Integer.Refusal.mk "" (.tooLong digits)).message
  | .noMembers => "a value of the report has no members"
  | .statusKind => "a status of the report is no text"
  | .reasonKind => "a reason of the report is no text"
  | .reasonGarbled => "a reason of the report, or the name of a suite, is garbled"
  | .tooDeep => "the report is nested too deep"

/-- The wording of a breakdown. -/
def Breakdown.message : Breakdown → String
  | .tree cause => cause.message
  | .data .oversized => "a length in the arguments is beyond all bounds"
  | .data .tooDeep => "an argument or its type is nested too deep"
  | .version message => message
  | .files cause => cause.message
  | .duration isNan => (Solidity.Tree.Fault.notFinite isNan).message
  | .noProject => "Project not initialized"
  | .noFacts => "inject_source requires a facts provider"
  | .report cause => cause.message
  | .unreportable issues => "report: " ++ Validation.messageOf issues

end HoneypotAudit
