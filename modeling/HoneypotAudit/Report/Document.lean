import HoneypotAudit.Json.Printer
import HoneypotAudit.Report.Basic
import HoneypotAudit.Validation

/-!
# Reports as documents

A report is a JSON document: `Report.toJson` and `Report.document` write it, and `Report.ofJson`
reads it.  A result that is read may be filed under another scenario than its own.
-/

namespace HoneypotAudit

open HoneypotAudit.Number HoneypotAudit.Forge HoneypotAudit.Validation

/-! ## Writing -/

/-- A result as JSON. -/
def Forge.ScenarioResult.toJson (r : ScenarioResult) : Json :=
  .obj [("scenario", .str r.scenario.text), ("verdict", .str r.verdict.text),
    ("suite", .str r.suite), ("reason", .str r.reason)]

/-- A report as JSON. -/
def Report.toJson (r : Report) : Json :=
  .obj [
    ("contract_name", .str r.contractName),
    ("status", .str r.status.text),
    ("results", .obj (r.results.map fun (s, result) => (s.text, result.toJson))),
    ("decoded_arguments", .arr (r.decodedArguments.map .str)),
    ("argument_decode_error", .str r.argumentError),
    ("error", .str r.error),
    ("tx_hash", .str r.transaction),
    ("block_number", (r.block.map Json.int).getD .null),
    ("duration_seconds", .float r.seconds),
    ("metadata", .obj r.metadata)]

/-- The document of a report. -/
def Report.document (r : Report) : String :=
  Json.indented r.toJson

/-- The depth from which on the values of metadata are not written. -/
def depthLimit : Nat := 255

/-- The metadata of a report are nested too deep. -/
inductive DepthFault where
  | tooDeep
  deriving Repr, DecidableEq

/-- The wording of the fault. -/
def DepthFault.message : DepthFault → String
  | .tooDeep => "Maximum serialization depth exceeded"

/-- The document of a report, if its metadata are not nested too deep. -/
def Report.write (r : Report) : Except DepthFault String :=
  if Json.depthOfMembers r.metadata < depthLimit then .ok r.document else .error .tooDeep

/-! ## Reading -/

/-- A result. -/
def readResult : Reader ScenarioResult := fun path v =>
  match v with
  | .obj ms =>
    Checked.good ScenarioResult.mk
      |>.ap (required (named Scenario.ofText?) path "scenario" ms)
      |>.ap (required (named Verdict.ofText?) path "verdict" ms)
      |>.ap (defaulted text "" path "suite" ms)
      |>.ap (defaulted text "" path "reason" ms)
  | _ => .wrong path .notRecord

/-- A result under the name of a scenario. -/
def readFiled (path : String) (filed : String × Json) : Checked (Scenario × ScenarioResult) :=
  let here := below path filed.1
  Checked.good Prod.mk
    |>.ap (named Scenario.ofText? (below here "[key]") (.str filed.1))
    |>.ap (readResult here filed.2)

/-- The results of a report. -/
def readResults : Reader (List (Scenario × ScenarioResult)) := fun path v =>
  match v with
  | .obj ms => .all (ms.map (readFiled path))
  | _ => .wrong path .notObject

/-- The report that the members of a document describe, or all that is wrong with them.  Members
with other names do not matter. -/
def Report.ofMembers (ms : Json.Members) : Checked Report :=
  Checked.good Report.mk
    |>.ap (defaulted text "" "" "contract_name" ms)
    |>.ap (required (named ReportStatus.ofText?) "" "status" ms)
    |>.ap (defaulted readResults [] "" "results" ms)
    |>.ap (defaulted (list text) [] "" "decoded_arguments" ms)
    |>.ap (defaulted text "" "" "argument_decode_error" ms)
    |>.ap (defaulted text "" "" "error" ms)
    |>.ap (defaulted text "" "" "tx_hash" ms)
    |>.ap (defaulted (nullable integer) none "" "block_number" ms)
    |>.ap (defaulted number (.zero false) "" "duration_seconds" ms)
    |>.ap (defaulted members [] "" "metadata" ms)

/-- The report that a document describes, or all that is wrong with it in order. -/
def Report.ofJson (v : Json) : Except (List Issue) Report :=
  match v with
  | .obj ms => (Report.ofMembers ms).toExcept
  | _ => (Checked.wrong "" .notRecord).toExcept

end HoneypotAudit
