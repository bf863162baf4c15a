import HoneypotAudit.Json.Reader
import HoneypotAudit.Json.Shown
import HoneypotAudit.Scenario

/-!
# Test reports

A test run writes a JSON report: an object with a member for every suite, named by its path, a colon
and its contract.  Below `test_results` it lists the tests that ran with a status and a reason.

`SuiteRun.ofOutput` turns what a run left behind into a result for every requested scenario, or
refuses it.

* Progress lines may stand in front of the report.  If the output as a whole is not JSON, the last
  line that is a JSON object counts.
* A suite that maps to no scenario is left out, as is one that is no object.  Of two suites for one
  scenario the later counts.
* A set-up that fails or skips is listed in place of the invariant.
* A run that failed has to have a failing suite.
-/

namespace HoneypotAudit.Forge

open HoneypotAudit.Text

/-! ## What a run leaves behind -/

/-- What a process leaves behind that came to an end. -/
structure Output where
  status : Int := 0
  stdout : String := ""
  stderr : String := ""
  deriving Repr, DecidableEq, Inhabited

/-- The result for one scenario. -/
structure ScenarioResult where
  scenario : Scenario
  verdict : Verdict
  suite : String := ""
  reason : String := ""
  deriving Repr, DecidableEq, Inhabited

/-- The results of a run. -/
structure SuiteRun where
  results : List ScenarioResult := []
  status : Int := 0
  executionMilliseconds : Number.Binary64 := .zero false
  deriving Repr, DecidableEq

/-! ## Faults -/

/-- Why a report is refused. -/
inductive ReportFault where
  /-- The run neither passed nor failed its tests. -/
  | abnormalExit (output : Output)
  /-- There is no report. -/
  | unreadable (output : Output)
  /-- A suite lists neither its invariant nor its set-up. -/
  | noResult (suite : String)
  /-- A status is none of those that are known. -/
  | unknownStatus (shown suite : String)
  /-- Requested scenarios have no suite. -/
  | missing (names : List String) (output : Output)
  /-- The run failed, but no suite did. -/
  | noFailure (output : Output)
  deriving Repr, DecidableEq

/-- The wording of a report fault. -/
def ReportFault.message : ReportFault → String
  | .abnormalExit output =>
    "forge test exited with status " ++ String.ofList (signedDecimal output.status)
  | .unreadable _ => "forge test output is not valid JSON"
  | .noResult suite => "forge report has no result for " ++ suite
  | .unknownStatus shown suite => "Unknown forge status " ++ shown ++ " for " ++ suite
  | .missing names _ => "forge report is missing suites: " ++ ", ".intercalate names
  | .noFailure _ => "forge test failed without a failing suite"

/-- The output that a fault is about as a whole. -/
def ReportFault.output? : ReportFault → Option Output
  | .abnormalExit output => some output
  | .unreadable output => some output
  | .missing _ output => some output
  | .noFailure output => some output
  | _ => none

/-- A report in a shape that is not provided for. -/
inductive ShapeFault where
  /-- An integer has too many digits. -/
  | oversized (digits : Nat)
  /-- A value that should have members has none. -/
  | noMembers
  /-- A status is a list or an object. -/
  | statusKind
  /-- A reason is no text. -/
  | reasonKind
  /-- A reason has halves of UTF-16 pairs in it, or else the name of its suite has. -/
  | reasonGarbled
  /-- The report is nested too deep. -/
  | tooDeep
  deriving Repr, DecidableEq

/-- Why there are no results. -/
inductive RunFault where
  | refused (cause : ReportFault)
  | broken (cause : ShapeFault)
  deriving Repr, DecidableEq

/-! ## Finding the report -/

/-- The value that a text of a report holds, if no more than `room` lists and objects are inside one
another.  Names are kept: what is wrong with one shows only where it is used. -/
def readReport (room : Nat) (cs : List Char) : Except Json.ReadFault Json :=
  Json.readWithin Json.keptName room cs

/-- The report on the last of the lines that is a JSON object, where the lines come in reverse. -/
def reportOnLine (room : Nat) : List (List Char) → Except ShapeFault (Option Json.Members)
  | [] => .ok none
  | line :: rest =>
    if line.head? = some '{' then
      match readReport room line with
      | .ok (.obj members) => .ok (some members)
      | .ok _ => .ok none
      | .error .malformed => reportOnLine room rest
      | .error (.oversized digits) => .error (.oversized digits)
      | .error .tooDeep => .error .tooDeep
    else reportOnLine room rest

/-- The report in an output, if there is one. -/
def findReport (room : Nat) (stdout : List Char) : Except ShapeFault (Option Json.Members) :=
  match readReport room stdout with
  | .ok (.obj members) => .ok (some members)
  | .ok _ => .ok none
  | .error .malformed => reportOnLine room (lines stdout).reverse
  | .error (.oversized digits) => .error (.oversized digits)
  | .error .tooDeep => .error .tooDeep

/-! ## Judging suites -/

/-- The verdict of a status. -/
def verdictOf? : Json → Option Verdict
  | .str "Success" => some .pass
  | .str "Failure" => some .fail
  | .str "Skipped" => some .skip
  | _ => none

/-- The name of a test without its parameters. -/
def testName (listed : String) : String :=
  String.ofList (cutFirst '(' listed.toList).1

/-- The first entry that is listed under a name; an entry that is null counts as none. -/
def entryOf? (name : String) (tests : Json.Members) : Option Json :=
  match tests.find? fun test => testName test.1 = name with
  | some (_, .null) => none
  | some (_, entry) => some entry
  | none => none

/-- The members of a value that may also be false, null or empty and then has none. -/
def membersOf (v : Json) : Except ShapeFault Json.Members :=
  match v with
  | .obj members => .ok members
  | v => if v.isTrue then .error .noMembers else .ok []

/-- The reason of an entry; none is empty. -/
def reasonOf (entry : Json.Members) : Except ShapeFault String :=
  match (Json.find? "reason" entry).getD .null with
  | .str s => .ok s
  | .garbled _ => .error .reasonGarbled
  | v => if v.isTrue then .error .reasonKind else .ok ""

/-- The name of a suite in a result. -/
def suiteOf (suite : String) : Except ShapeFault String :=
  match Json.nameText? suite.toList with
  | some cs => .ok (String.ofList cs)
  | none => .error .reasonGarbled

/-- The name of a suite in a message. -/
def suiteShown (suite : String) : String :=
  String.ofList (Json.nameShown suite.toList)

/-- The result that an entry of a suite gives. -/
def judgeEntry (s : Scenario) (suite : String) (entry : Json) : Except RunFault ScenarioResult :=
  match entry with
  | .obj members =>
    let status := (Json.find? "status" members).getD (.str "")
    match verdictOf? status with
    | some verdict =>
      match suiteOf suite, reasonOf members with
      | .ok suite, .ok reason => .ok ⟨s, verdict, suite, reason⟩
      | .error cause, _ => .error (.broken cause)
      | .ok _, .error cause => .error (.broken cause)
    | none =>
      match status with
      | .arr _ => .error (.broken .statusKind)
      | .obj _ => .error (.broken .statusKind)
      | status => .error (.refused (.unknownStatus status.shown (suiteShown suite)))
  | _ => .error (.broken .noMembers)

/-- The result of a suite for its scenario. -/
def judgeSuite (s : Scenario) (suite : String) (members : Json.Members) :
    Except RunFault ScenarioResult :=
  match membersOf ((Json.find? "test_results" members).getD .null) with
  | .error cause => .error (.broken cause)
  | .ok tests =>
    match entryOf? s.invariantName tests <|> entryOf? "setUp" tests with
    | some entry => judgeEntry s suite entry
    | none => .error (.refused (.noResult (suiteShown suite)))

/-- The results of the suites of a report that map to a scenario, in their order. -/
def judge : Json.Members → Except RunFault (List ScenarioResult)
  | [] => .ok []
  | (suite, value) :: rest =>
    match Scenario.ofSuite? suite, value with
    | some s, .obj members => do
      let result ← judgeSuite s suite members
      let results ← judge rest
      .ok (result :: results)
    | _, _ => judge rest

/-- The result that counts for a scenario: the last one. -/
def latest? (results : List ScenarioResult) (s : Scenario) : Option ScenarioResult :=
  results.reverse.find? (·.scenario = s)

/-! ## The run -/

/-- The statuses with which a run ends that has gone through all tests. -/
def completedStatuses : List Int := [0, 1]

/-- Whether a suite failed. -/
def anyFailure (results : List ScenarioResult) : Bool :=
  Scenario.all.any fun s => (latest? results s).any (·.verdict = .fail)

/-- The run with a result for every requested scenario. -/
def collect (output : Output) (requested : List Scenario) (results : List ScenarioResult) :
    Except ReportFault SuiteRun :=
  let missing := requested.filter fun s => (latest? results s).isNone
  if !missing.isEmpty then .error (.missing (missing.map (·.text)) output)
  else if output.status ≠ 0 ∧ !anyFailure results then .error (.noFailure output)
  else .ok { results := requested.eraseDups.filterMap (latest? results), status := output.status }

/-- The run that an output reports, with a result for every requested scenario in their order. -/
def SuiteRun.ofOutput (room : Nat) (output : Output) (requested : List Scenario) :
    Except RunFault SuiteRun :=
  if output.status ∉ completedStatuses then .error (.refused (.abnormalExit output))
  else
    match findReport room output.stdout.toList with
    | .error cause => .error (.broken cause)
    | .ok none => .error (.refused (.unreadable output))
    | .ok (some report) => do
      let results ← judge report
      match collect output requested results with
      | .ok run => .ok run
      | .error cause => .error (.refused cause)

end HoneypotAudit.Forge
