import HoneypotAudit.Files.Tree
import HoneypotAudit.Forge.Tool
import HoneypotAudit.Log.Record
import HoneypotAudit.Rooms
import HoneypotAudit.Solc.Compiler
import HoneypotAudit.Text.Utf8

/-!
# Sessions

An analysis deals with the world around it: it calls tools, reads clocks, writes files and logs.  A
`Session` is what it sees of the world and the trace of what it has done.  All that it does
is an `Action`, which changes the session and gives a result or a fault; a fault takes nothing back.
-/

namespace HoneypotAudit

open HoneypotAudit.Text HoneypotAudit.Number

/-- A project directory of test runs. -/
structure Project where
  /-- The directory of the current project. -/
  directory : Option Files.Path := none
  /-- Whether the directory goes when the project is cleaned up. -/
  isTemporary : Bool := false
  deriving Repr, DecidableEq

/-- The world as an analysis sees it, and what it has done. -/
structure Session where
  /-- How much room there is for what is nested. -/
  rooms : Rooms
  forge : Forge.Script := {}
  compiler : Solc.Compiler := {}
  /-- The seconds from one reading of a clock to its next one. -/
  tick : Binary64 := .zero false
  /-- The readings of the clock that measures an analysis. -/
  analysisReadings : Nat := 0
  /-- The readings of the clock that measures a test run. -/
  runReadings : Nat := 0
  files : Files.Tree := {}
  workingDirectory : Files.Location := []
  /-- The number of temporary directories made so far. -/
  temporaries : Nat := 0
  project : Project := {}
  /-- The contract and the transaction that log records are about at the moment. -/
  subject : Option (String × String) := none
  /-- The calls of the tool so far. -/
  forgeCalls : List Forge.Call := []
  /-- The calls of the compiler so far. -/
  compilerCalls : List Solc.Call := []
  /-- The log so far. -/
  records : List Log.Record := []
  deriving Repr

/-- What an analysis does. -/
abbrev Action (ε α : Type) := ExceptT ε (StateM Session) α

namespace Session

/-! ## Log -/

/-- Writes a record. -/
def log (r : Log.Record) : StateM Session Unit :=
  modify fun s =>
    let r := match s.subject with
      | some (contract, transaction) => r.about contract transaction
      | none => r
    { s with records := s.records ++ [r] }

/-! ## Tools -/

/-- Calls the tool.  What it would usually write is used where its output is left open. -/
def call (c : Forge.Call) (usual : String) : StateM Session Forge.Outcome :=
  modifyGet fun s =>
    let (scripted, forge) := s.forge.next c.command
    (scripted.outcome usual, { s with forge, forgeCalls := s.forgeCalls ++ [c] })

/-- Notes a call of the compiler. -/
def noteCompiler (c : Solc.Call) : StateM Session Unit :=
  modify fun s => { s with compilerCalls := s.compilerCalls ++ [c] }

/-! ## Clocks -/

/-- What a clock shows at a reading. -/
def timeAt (s : Session) (reading : Nat) : Binary64 :=
  .ofInt reading * s.tick

/-- Reads the clock that measures an analysis. -/
def readAnalysisClock : StateM Session Binary64 :=
  modifyGet fun s =>
    (s.timeAt s.analysisReadings, { s with analysisReadings := s.analysisReadings + 1 })

/-- Reads the clock that measures a test run. -/
def readRunClock : StateM Session Binary64 :=
  modifyGet fun s => (s.timeAt s.runReadings, { s with runReadings := s.runReadings + 1 })

/-! ## Files -/

/-- Changes the files. -/
def changeFiles (change : Files.Tree → Files.Location → Files.Tree.Outcome) :
    Action Files.Fault Unit := do
  let s ← get
  let outcome := change s.files s.workingDirectory
  set { s with files := outcome.tree }
  match outcome.fault with
  | none => pure ()
  | some fault => throw fault

/-- Makes a directory and those above it. -/
def makeDirectories (p : Files.Path) : Action Files.Fault Unit := do
  let rooms := (← get).rooms
  changeFiles fun t cwd => t.makeDirectories rooms.made cwd p

/-- Writes a text into a file. -/
def writeText (p : Files.Path) (content : List Char) : Action Files.Fault Unit :=
  changeFiles fun t cwd => t.write cwd p (Utf8.encode content)

/-- The directory of the temporary directories. -/
def temporaryRoot : Files.Path := .absolute ["tmp"]

/-- The path of a temporary directory. -/
def temporaryPath (number : Nat) : Files.Path :=
  temporaryRoot.join (.relative ["honeyprobe_forge_" ++ toString number])

/-- Makes a new temporary directory. -/
def makeTemporary : StateM Session Files.Path :=
  modifyGet fun s =>
    let path := temporaryPath s.temporaries
    (path, { s with
      temporaries := s.temporaries + 1
      files := s.files.put path.parts .directory })

/-- The temporary directories that are there. -/
def remainingTemporaries (s : Session) : List Files.Path :=
  ((List.range s.temporaries).map temporaryPath).filter fun p => s.files.isDirectory p.parts

end Session

end HoneypotAudit
