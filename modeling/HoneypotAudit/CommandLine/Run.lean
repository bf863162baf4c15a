import HoneypotAudit.CommandLine.Console
import HoneypotAudit.CommandLine.Invocation
import HoneypotAudit.CommandLine.Usage
import HoneypotAudit.Report.Document

/-!
# Runs of the program

`run` does what a command line asks for and gives the status of the run: zero if all is well, one if
the source cannot be used or the contract is not found safe, two if the command line is refused.
-/

namespace HoneypotAudit.CommandLine

open HoneypotAudit.Terminal HoneypotAudit.Deployment

/-- The version of the program. -/
def version : String := "0.1.0"

/-! ## Statuses -/

/-- All is well. -/
def success : Int := 0

/-- The source cannot be used, or the contract is not found safe. -/
def failure : Int := 1

/-- The command line is refused. -/
def refusal : Int := 2

/-! ## Sources and targets -/

/-- Says what is wrong. -/
def complain (text : String) : Program Int := do
  Console.printError (paint red ("Error: " ++ text))
  pure failure

/-- Does something with the text of a source, if it is there. -/
def withSource (path : String) (use : String → Program Int) : Program Int := do
  let p := Files.Path.ofText path
  match ← Console.readText p with
  | some source => use source
  | none =>
    let place := p.resolve (← get).session.workingDirectory
    complain ("file '" ++ place.toPath.text ++ "' does not exist.")

/-- Writes a text to a target. -/
def emit (isQuiet : Bool) (text : String) : Target → Program Unit
  | none => Console.print (text ++ "\n")
  | some path => do
    Console.writeText (.ofText path) text
    if !isQuiet then Console.printError ("  Written to " ++ paint cyan path)

/-- Does something with what a preparation comes to.  A rejected source is complained about. -/
def withPrepared {α : Type} (step : Analysis.Step α) (use : α → Program Int) : Program Int := do
  match ← Console.perform step.run with
  | .ok x => use x
  | .error (.rejected cause) => complain cause.failure.message
  | .error (.broken cause) => throw (.broken cause)

/-- Raw constructor arguments; an empty text says that there are none. -/
def blobOf (arguments : String) : Blob :=
  if arguments.isEmpty then .none else .text arguments

/-! ## Commands -/

/-- Injects boilerplate into a source. -/
def inject (settings : Settings) (isQuiet : Bool) (o : InjectOptions) : Program Int :=
  withSource o.path fun source =>
    withPrepared (settings.preparing.injector.injectSource source) fun (injected, _) => do
      emit isQuiet injected o.output
      pure success

/-- What is said about a test file. -/
def synthNotes (p : Analysis.Prepared) : List String :=
  (p.decoded.fault.map fun cause =>
    paint yellow ("  Constructor args not decoded: " ++ cause.message)).toList ++
  (if p.suites.isEmpty then
    [paint faint ("  " ++ p.facts.name ++ " is neither a token nor ownable.")]
  else [])

/-- Writes the test file of a source. -/
def synth (settings : Settings) (isQuiet : Bool) (o : SynthOptions) : Program Int :=
  withSource o.path fun source =>
    withPrepared (Analysis.prepare settings.preparing source (blobOf o.arguments)) fun p => do
      if !isQuiet then
        for line in synthNotes p do Console.printError line
      emit isQuiet p.code o.output
      pure success

/-- The status that a report gives to the run. -/
def statusOf (r : Report) : Int :=
  if r.status = .notApplicable ∨ r.isSafe then success else failure

/-- Shows a report. -/
def showReport (isQuiet : Bool) (o : AnalyzeOptions) (r : Report) : Program Unit :=
  match o.form with
  | .json => emit isQuiet r.document o.output
  | .table => Console.print (r.table isQuiet)

/-- Analyses a source, and cleans up whatever comes of it. -/
def analyzeSource (a : Analysis.Analyzer) (t : Analysis.Task) : Program Report := do
  let result ← Console.perform (Analysis.analyze a t).run
  Console.perform Forge.cleanUp
  match result with
  | .ok r => pure r
  | .error cause => throw (.broken cause)

/-- Analyses a source and shows the report. -/
def analyze (settings : Settings) (isQuiet : Bool) (o : AnalyzeOptions) : Program Int :=
  withSource o.path fun source => do
    let a := settings.analyzer
    let t : Analysis.Task := {
      source
      arguments := blobOf o.arguments
      forkUrl := o.forkUrl
      block := o.block
      transaction := o.transaction }
    if (a.urlFor t).isEmpty then complain "provide --fork-url or set HONEYPROBE_FORK_URL."
    else do
      if !isQuiet then Console.printError ("  Analyzing " ++ paint cyan o.path ++ "…")
      let report ← analyzeSource a t
      showReport isQuiet o report
      pure (statusOf report)

/-- A setting as it is shown. -/
def settingLine (name : String) (value : Json) : String :=
  let text := if name = "fork_url" then Settings.maskUrl value.plain else value.plain
  "  " ++ faint ++ name ++ ":" ++ reset ++ "  " ++ text

/-- The settings by name as they are shown. -/
def settingLines (settings : Settings) : List String :=
  (settings.members.mergeSort fun a b => decide (a.1 ≤ b.1)).map fun (name, value) =>
    settingLine name value

/-- Shows the settings. -/
def config (settings : Settings) : Program Int := do
  Console.print (linesText
    (["", bold ++ "honeyprobe configuration" ++ reset, ""] ++ settingLines settings ++ [""]))
  pure success

/-! ## Runs -/

/-- Sets up the log: a quiet run is told of warnings at least. -/
def setUpLog (settings : Settings) (isQuiet : Bool) : Program Unit :=
  match Log.Setup.of settings.environment (if isQuiet then "WARNING" else settings.logLevel) with
  | .ok logging => modify fun c => { c with logging }
  | .error cause => throw (.logging cause)

/-- Does what a command says.  Showing the settings needs no log. -/
def perform (isQuiet : Bool) (command : Command) : Program Int := do
  let settings ← Console.readSettings
  match command with
  | .config => config settings
  | .inject o => do
    setUpLog settings isQuiet
    inject settings isQuiet o
  | .synth o => do
    setUpLog settings isQuiet
    synth settings isQuiet o
  | .analyze o => do
    setUpLog settings isQuiet
    analyze settings isQuiet o

/-- Does what the words of a command line ask for. -/
def run (words : List String) : Program Int := do
  match Invocation.ofWords words with
  | .error (.help part) =>
    Console.print part.help
    pure success
  | .error (.refused part cause) =>
    modify fun c => { c with stderr := c.stderr ++ refusalText part cause }
    pure refusal
  | .ok invocation =>
    if invocation.showsVersion then
      Console.print (Part.programName ++ " " ++ version ++ "\n")
      pure success
    else
      match invocation.command with
      | some command => perform invocation.isQuiet command
      | none =>
        Console.print Part.main.help
        pure success

end HoneypotAudit.CommandLine
