import HoneypotAudit.Failure
import HoneypotAudit.Session.Basic

/-!
# Formatting

A source is formatted by the tool, which reads it from its standard input.  What the tool cannot
format is no source.
-/

namespace HoneypotAudit.Forge

open HoneypotAudit.Text

/-- Why a source is not formatted. -/
inductive FormatFault where
  | notFound (path : String)
  | timedOut
  | failed (stderr : String)
  deriving Repr, DecidableEq

/-- The wording for a tool that is not there. -/
def notFoundText (path : String) : String :=
  "forge not found at " ++ Quoted.ofString path

/-- The number of characters of an error output that a message shows. -/
def shownStderr : Nat := 500

/-- The failure that a fault amounts to. -/
def FormatFault.failure : FormatFault → Failure
  | .notFound path => { kind := .format, message := notFoundText path, code := .forgeUnavailable }
  | .timedOut => { kind := .format, message := "forge fmt timed out", code := .timeout }
  | .failed stderr =>
    { kind := .format
      message := "forge fmt failed: " ++ String.ofList ((strip stderr.toList).take shownStderr) }

/-- How the tool is called for formatting. -/
structure Formatter where
  forgePath : String := "forge"
  timeout : Int := 30
  deriving Repr, DecidableEq

/-- The call that formats a source. -/
def Formatter.call (f : Formatter) : Call where
  command := .format
  words := [f.forgePath, "fmt", "--raw", "-"]
  timeout := some f.timeout

/-- Formats a source. -/
def Formatter.format (f : Formatter) (source : String) : Action FormatFault String := do
  match ← Session.call f.call source with
  | .missing => throw (.notFound f.forgePath)
  | .timedOut => throw .timedOut
  | .finished output =>
    if output.status = 0 then pure output.stdout
    else
      Session.log {
        logger := "honeyprobe.ingestion.formatter"
        level := Log.debug
        message := "forge fmt stderr: " ++ output.stderr }
      throw (.failed output.stderr)

end HoneypotAudit.Forge
