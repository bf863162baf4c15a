import HoneypotAudit.CommandLine.Run

/-!
# The program

The outer layer: it reads what a run needs of the world, lets `CommandLine.run` do the work, and
writes what came of it.

This layer starts no other program.  A run that needs the formatter goes on as on a machine without
it, and says so.
-/

namespace HoneypotAudit.Program

open HoneypotAudit.CommandLine

/-! ## What a run needs -/

/-- Adds what is at a place to a file tree, with the directories on the way to it. -/
def load (files : Files.Tree) (place : Files.Location) : IO Files.Tree := do
  let here ← IO.currentDir
  let mut files := files
  for length in List.range place.length do
    let place : Files.Location := place.take (length + 1)
    let path := here / (Files.Location.toPath place).text
    if ← path.isDir then
      files := files.put place .directory
    else if ← path.pathExists then
      files := files.put place (.file (← IO.FS.readBinFile path).toList)
  return files

/-- Adds what is at paths to the files of a console. -/
def loadAll (c : Console) (paths : List Files.Path) : IO Console := do
  let mut files := c.session.files
  for p in paths do
    files ← load files (p.resolve c.session.workingDirectory)
  return { c with session.files := files }

/-- The paths that a command deals with. -/
def pathsOf : Command → List Files.Path
  | .inject o => ofTexts (o.path :: o.output.toList)
  | .synth o => ofTexts (o.path :: o.output.toList)
  | .analyze o => ofTexts (o.path :: o.output.toList)
  | .config => []
where
  /-- The paths that texts spell. -/
  ofTexts (texts : List String) : List Files.Path := texts.map .ofText

/-- The paths of a fixed project. -/
def projectPaths (s : Settings) : List Files.Path :=
  match s.execution.fixedDirectory? with
  | none => []
  | some directory =>
    let directory := Files.Path.ofText directory
    [directory.join (.relative ["foundry.toml"]), directory.join Forge.libraryPath,
      directory.join (.ofText s.testFile)]

/-- The environment, as far as settings are named in it. -/
def readEnvironment : IO (List (String × String)) := do
  let mut environment := []
  for name in Settings.names do
    let name := (Settings.mark ++ name).map Char.toUpper
    if let some value ← IO.getEnv name then
      environment := environment ++ [(name, value)]
  return environment

/-- The time. -/
def now : IO Log.Timestamp := do
  let (_, path) ← IO.FS.createTempFile
  let modified := (← path.metadata).modified
  IO.FS.removeFile path
  return .ofUnix modified.sec.toNat (modified.nsec.toNat / 1000)

/-- What is left of a stack of a thousand calls where a program that is started by itself comes to
what is nested.  Nothing is proved about these numbers. -/
def rooms : Rooms where
  variableTypes := 494
  parameterTypes := 494
  described := 329
  spelled := 985
  parentheses := 160
  lookUps := 955
  dimension := 5
  tuple := 6
  rendered := 330
  reported := 985
  logged := 985
  shown := 985
  made := 985

/-- The console at the start of a run. -/
def start (words : List String) : IO Console := do
  let c : Console := {
    session := {
      rooms
      forge := { beyond := .missing }
      compiler := { installFault := some (.unavailable "no compiler can be started") }
      workingDirectory := (Files.Path.ofText (← IO.currentDir).toString).parts }
    environment := ← readEnvironment
    time := ← now }
  let c ← loadAll c [Console.settingsPath]
  let c ← match (Console.readSettings.run.run c).1 with
    | .ok settings => loadAll c (projectPaths settings)
    | .error _ => pure c
  match Invocation.ofWords words with
  | .ok { command := some command, .. } => loadAll c (pathsOf command)
  | _ => return c

/-! ## What a run leaves behind -/

/-- Writes what is new in a file tree. -/
def store (before after : Files.Tree) : IO Unit := do
  let here ← IO.currentDir
  for (place, entry) in after.entries do
    if before.get? place ≠ some entry then
      let path := here / (Files.Location.toPath place).text
      match entry with
      | .directory => IO.FS.createDirAll path
      | .file content => IO.FS.writeBinFile path ⟨content.toArray⟩

/-- The status of a run for the system. -/
def exitStatus : Except Crash Int → UInt32
  | .ok status => UInt32.ofNat status.toNat
  | .error _ => 1

end HoneypotAudit.Program

/-- Runs the program with the words of its command line. -/
def main (words : List String) : IO UInt32 := do
  let c ← HoneypotAudit.Program.start words
  let (result, after) := (HoneypotAudit.CommandLine.run words).run.run c
  HoneypotAudit.Program.store c.session.files after.session.files
  IO.print after.stdout
  IO.eprint after.stderr
  if let .error crash := result then
    IO.eprintln crash.message
  return HoneypotAudit.Program.exitStatus result
