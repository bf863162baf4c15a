import HoneypotAudit.Report.Basic

/-!
# Reports as tables

A report for people, with colours: what was analysed, a line for every scenario, and a last line
that says what it comes to.  The short form leaves out the head and the reasons.

A table is printed text by text, with a line feed behind each.  What a report quotes of other tools
is not looked through for line feeds, so that a text can be more than one line.
-/

namespace HoneypotAudit.Terminal

/-! ## Colours -/

/-- The sequences of a terminal. -/
def reset : String := "\x1b[0m"

/-- Starts bold text. -/
def bold : String := "\x1b[1m"

/-- Starts faint text. -/
def faint : String := "\x1b[2m"

/-- Starts red text. -/
def red : String := "\x1b[91m"

/-- Starts green text. -/
def green : String := "\x1b[92m"

/-- Starts yellow text. -/
def yellow : String := "\x1b[93m"

/-- Starts cyan text. -/
def cyan : String := "\x1b[96m"

/-- A text in a colour. -/
def paint (color text : String) : String :=
  color ++ text ++ reset

end HoneypotAudit.Terminal

namespace HoneypotAudit

open HoneypotAudit.Text HoneypotAudit.Number HoneypotAudit.Forge HoneypotAudit.Terminal

/-- The colour of a verdict. -/
def Verdict.color : Verdict → String
  | .pass => green
  | .fail => red
  | .skip => faint

/-- The word for a verdict in a table. -/
def Verdict.badge : Verdict → String
  | .pass => "PASS"
  | .fail => "FAIL"
  | .skip => "SKIP"

/-- The colour of a status. -/
def ReportStatus.color : ReportStatus → String
  | .tested => green
  | .notApplicable => faint
  | .parseFailed => red
  | .executionFailed => yellow

namespace Report

/-- A text, or another one in its place if it is empty. -/
def orElse (s other : String) : String :=
  if s.isEmpty then other else s

/-- The number of characters of a reason that are shown. -/
def shownReason : Nat := 200

/-- A reason, cut if it is long. -/
def shortReason (reason : String) : String :=
  let cs := reason.toList
  if shownReason < cs.length then String.ofList (cs.take shownReason) ++ "…" else reason

/-- The block of a report in words. -/
def blockText (r : Report) : String :=
  match r.block with
  | some n => String.ofList (signedDecimal n)
  | none => "latest"

/-- The head of a table. -/
def headLines (r : Report) : List String :=
  ["", bold ++ orElse r.contractName "Contract" ++ reset,
    "  Status: " ++ paint r.status.color r.status.text ++ "  |  Block: " ++ r.blockText ++
      "  |  Duration: " ++ fixed 1 r.seconds ++ "s"] ++
  (if r.decodedArguments.isEmpty then []
    else ["  " ++ faint ++ "Constructor args: " ++ ", ".intercalate r.decodedArguments ++ reset]) ++
  (if r.argumentError.isEmpty then []
    else ["  " ++ yellow ++ "Constructor args not decoded: " ++ r.argumentError ++ reset]) ++
  [""]

/-- What is printed of a result under a scenario, whose name is widened. -/
def resultLines (quiet : Bool) (width : Nat) (s : Scenario) (result : ScenarioResult) :
    List String :=
  ("  " ++ paint (result.verdict.color ++ bold) (" " ++ result.verdict.badge ++ " ") ++ " " ++
    String.ofList (padRight width ' ' s.text.toList)) ::
  (if result.verdict = .fail ∧ !result.reason.isEmpty ∧ !quiet then
    ["         " ++ faint ++ shortReason result.reason ++ reset]
  else [])

/-- The text that says that nothing was found. -/
def safeLine : String :=
  paint green "  ✓ No honeypot behaviour detected."

/-- The last text of a table with results. -/
def lastLine (r : Report) : String :=
  if r.isSafe then safeLine
  else paint red ("  ✗ Suspicious: " ++ ", ".intercalate (r.failed.map (·.text)))

/-- The width of the longest scenario name. -/
def nameWidth (r : Report) : Nat :=
  (r.results.map fun (s, _) => s.text.length).foldl max 0

/-- The texts of a table, in the order in which they are printed. -/
def tableLines (r : Report) (quiet : Bool) : List String :=
  (if quiet then [] else r.headLines) ++
    if !r.error.isEmpty then [paint r.status.color ("  " ++ r.error)]
    else if r.results.isEmpty then [paint faint "  No applicable scenarios."]
    else
      r.results.flatMap (fun (s, result) => resultLines quiet r.nameWidth s result) ++
        ["", r.lastLine]

/-- The table of a report. -/
def table (r : Report) (quiet : Bool) : String :=
  String.join ((r.tableLines quiet).map (· ++ "\n"))

end Report

end HoneypotAudit
