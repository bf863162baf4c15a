import HoneypotAudit.Forge.Execution

/-!
# Operations

What can be asked of test runs, one thing after the other: to make a project, to write the suites of
a run into it, to say where it is, to run suites, and to clean up.  An operation may fail; the next
one starts from what it left behind.
-/

namespace HoneypotAudit.Forge

/-- What can be asked of test runs. -/
inductive Operation where
  | start
  | write (code : String)
  | locate
  | run (request : Request)
  | cleanUp
  deriving Repr, DecidableEq

/-- What an operation gives back. -/
inductive Answer where
  | path (p : Files.Path)
  | results (run : SuiteRun)
  | done
  deriving Repr, DecidableEq

namespace Operation

/-- Does an operation. -/
def perform (c : Config) : Operation → Step Answer
  | .start => do
    let directory ← startProject c
    pure (.path directory)
  | .write code => do
    let file ← writeSuites c code
    pure (.path file)
  | .locate => do
    let directory ← projectDirectory
    pure (.path directory)
  | .run request => do
    let results ← Forge.run c request
    pure (.results results)
  | .cleanUp => do
    Forge.cleanUp
    pure .done

/-- The session behind an operation, whether it fails or not. -/
def after (c : Config) (op : Operation) (s : Session) : Session :=
  ((op.perform c).run.run s).2

end Operation

/-- The session behind some operations. -/
def performAll (c : Config) (ops : List Operation) (s : Session) : Session :=
  ops.foldl (fun s op => op.after c s) s

end HoneypotAudit.Forge
