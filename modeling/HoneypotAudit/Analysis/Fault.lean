import HoneypotAudit.Breakdown
import HoneypotAudit.Forge.Formatter
import HoneypotAudit.Injection

/-!
# Faults of a source

Why a source cannot be made ready for the suites.  A fault that the source is to blame for ends in a
report; all else is a breakdown.
-/

namespace HoneypotAudit.Analysis

open HoneypotAudit.Solidity

/-- Why a source cannot be made ready. -/
inductive SourceFault where
  | format (cause : Forge.FormatFault)
  /-- The compiler refuses the source. -/
  | rejected (errors : List String)
  | noContract (cause : NoContractFault)
  | injection (cause : Injection.Fault)
  deriving Repr, DecidableEq

/-- The number of compiler errors that a message shows. -/
def shownErrors : Nat := 3

/-- The failure that a fault amounts to. -/
def SourceFault.failure : SourceFault → Failure
  | .format cause => cause.failure
  | .rejected errors =>
    { kind := .parse
      message := "solc could not parse source: " ++ "; ".intercalate (errors.take shownErrors) }
  | .noContract cause => { kind := .parse, message := cause.message }
  | .injection cause => { kind := .parse, message := cause.message }

/-- Why a step of the preparation does not come to its end. -/
inductive Stop where
  | rejected (cause : SourceFault)
  | broken (cause : Breakdown)
  deriving Repr, DecidableEq

/-- A step of the preparation. -/
abbrev Step := Action Stop

end HoneypotAudit.Analysis
