import HoneypotAudit.Forge.Report

/-!
# The forge tool

Three commands of `forge` are used: `fmt` formats a source, `install` fetches the library that the
suites need, and `test` runs them.  A `Call` says how a command is started and an `Outcome` what
becomes of it.

`Script` says what the calls of each command come to, one after the other; calls beyond it come to
its `beyond`.
-/

namespace HoneypotAudit.Forge

/-- A command of the tool. -/
inductive Command where
  | format
  | install
  | test
  deriving Repr, DecidableEq

/-- A started command. -/
structure Call where
  command : Command
  words : List String
  /-- The time in seconds after which it is stopped. -/
  timeout : Option Int
  directory : Option String := none
  /-- The variables that are set beside those of the environment. -/
  environment : Option (List (String × String)) := none
  deriving Repr, DecidableEq

/-- What becomes of a call. -/
inductive Outcome where
  /-- The tool is not there. -/
  | missing
  | timedOut
  | finished (output : Output)
  deriving Repr, DecidableEq

/-- What a call comes to, where the standard output may be left open. -/
inductive Scripted where
  | missing
  | timedOut
  | finished (status : Int) (stdout : Option String) (stderr : String)
  deriving Repr, DecidableEq

instance : Inhabited Scripted := ⟨.finished 0 none ""⟩

/-- The outcome for a standard output that is used where it is left open. -/
def Scripted.outcome (usual : String) : Scripted → Outcome
  | .missing => .missing
  | .timedOut => .timedOut
  | .finished status stdout stderr => .finished ⟨status, stdout.getD usual, stderr⟩

/-- What the next calls come to. -/
structure Script where
  formatting : List Scripted := []
  installing : List Scripted := []
  testing : List Scripted := []
  beyond : Scripted := default
  deriving Repr, DecidableEq, Inhabited

/-- What the next call of a command comes to, and the script for the calls after it. -/
def Script.next (s : Script) : Command → Scripted × Script
  | .format =>
    match s.formatting with
    | [] => (s.beyond, s)
    | o :: rest => (o, { s with formatting := rest })
  | .install =>
    match s.installing with
    | [] => (s.beyond, s)
    | o :: rest => (o, { s with installing := rest })
  | .test =>
    match s.testing with
    | [] => (s.beyond, s)
    | o :: rest => (o, { s with testing := rest })

end HoneypotAudit.Forge
