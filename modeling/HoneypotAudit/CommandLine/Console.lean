import HoneypotAudit.Log.Line
import HoneypotAudit.Report.Table
import HoneypotAudit.Settings.Basic

/-!
# Consoles

What a run of the program has to do with: the session, the environment, the two streams that it
writes to, and the log, which goes to the standard error as it arises.
-/

namespace HoneypotAudit.CommandLine

open HoneypotAudit.Text

/-- What a run of the program sees and writes. -/
structure Console where
  session : Session
  environment : List (String × String) := []
  /-- How the log is written. -/
  logging : Log.Setup := {}
  /-- The time of the log. -/
  time : Log.Timestamp := {}
  stdout : String := ""
  stderr : String := ""

/-- What ends a run without a status. -/
inductive Crash where
  /-- The settings are wrong. -/
  | settings (issues : List Validation.Issue)
  /-- A file is no text. -/
  | encoding (cause : Utf8.Fault)
  /-- The log cannot be set up. -/
  | logging (cause : Log.LevelFault)
  | broken (cause : Breakdown)
  deriving Repr

/-- The wording of a crash. -/
def Crash.message : Crash → String
  | .settings issues => "settings: " ++ Validation.messageOf issues
  | .encoding cause => cause.message
  | .logging cause => cause.message
  | .broken cause => cause.message

/-- A part of a run. -/
abbrev Program (α : Type) := ExceptT Crash (StateM Console) α

namespace Console

/-! ## Streams -/

/-- Writes to the standard output. -/
def print (text : String) : Program Unit :=
  modify fun c => { c with stdout := c.stdout ++ text }

/-- Writes a line to the standard error. -/
def printError (line : String) : Program Unit :=
  modify fun c => { c with stderr := c.stderr ++ line ++ "\n" }

/-! ## Sessions -/

/-- Does something in the session and writes what it logs. -/
def perform {α : Type} (a : StateM Session α) : Program α :=
  modifyGet fun c =>
    let (result, session) := a.run c.session
    let records := session.records.drop c.session.records.length
    (result, { c with session, stderr := c.stderr ++ c.logging.write session.rooms c.time records })

/-! ## Files -/

/-- The text in a file, with all line ends made line feeds, if there is a file. -/
def readText (p : Files.Path) : Program (Option String) := do
  let s := (← get).session
  match s.files.read s.workingDirectory p with
  | .error fault => throw (.broken (.files fault))
  | .ok none => pure none
  | .ok (some content) =>
    match Utf8.decode content with
    | .ok cs => pure (some (String.ofList (unifyLineEnds cs)))
    | .error cause => throw (.encoding cause)

/-- Writes a text into a file. -/
def writeText (p : Files.Path) (text : String) : Program Unit := do
  match ← perform (Session.writeText p text.toList).run with
  | .ok () => pure ()
  | .error fault => throw (.broken (.files fault))

/-! ## Settings -/

/-- The file with settings in the working directory. -/
def settingsPath : Files.Path := .relative [".env"]

/-- The settings from the environment and the file with settings.  Skipped lines of the file are
named. -/
def readSettings : Program Settings := do
  let text ← readText settingsPath
  let file := (text.map fun text => Settings.EnvironmentFile.read text.toList).getD {}
  for line in file.skipped do printError (Settings.EnvironmentFile.skippedNote line)
  let sources : Settings.Sources := { environment := (← get).environment, file }
  match Settings.load sources with
  | .ok settings => pure settings
  | .error issues => throw (.settings issues)

end Console

end HoneypotAudit.CommandLine
