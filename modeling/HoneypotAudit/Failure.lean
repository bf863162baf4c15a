import HoneypotAudit.Text.Quoted

/-!
# Failures

Every failure that an analysis foresees is of a kind and carries a code.  A failure to format the
source counts as a failure to parse it.
-/

namespace HoneypotAudit

open HoneypotAudit.Text

/-- The codes of failures. -/
inductive FailureCode where
  | parse
  | decode
  | execution
  | format
  | forgeUnavailable
  | timeout
  deriving Repr, DecidableEq, Inhabited

namespace FailureCode

/-- All codes. -/
def all : List FailureCode :=
  [parse, decode, execution, format, forgeUnavailable, timeout]

/-- The text of a code. -/
def text : FailureCode → String
  | .parse => "PARSE_ERROR"
  | .decode => "DECODE_ERROR"
  | .execution => "EXECUTION_ERROR"
  | .format => "FORMAT_ERROR"
  | .forgeUnavailable => "FORGE_UNAVAILABLE"
  | .timeout => "TIMEOUT"

/-- The code of a text. -/
def ofText? (s : String) : Option FailureCode :=
  all.find? (·.text = s)

end FailureCode

/-- A text that is no code. -/
structure UnknownCode where
  text : String
  deriving Repr, DecidableEq

/-- The wording for a text that is no code. -/
def UnknownCode.message (u : UnknownCode) : String :=
  Quoted.ofString u.text ++ " is not a valid ErrorCode"

/-- The kinds of failures. -/
inductive FailureKind where
  | general
  | parse
  | format
  | decode
  | execution
  deriving Repr, DecidableEq, Inhabited

namespace FailureKind

/-- All kinds. -/
def all : List FailureKind :=
  [general, parse, format, decode, execution]

/-- The name of a kind. -/
def text : FailureKind → String
  | .general => "HoneyprobeError"
  | .parse => "ParseError"
  | .format => "FormatError"
  | .decode => "DecodeError"
  | .execution => "ExecutionError"

/-- The kind of a name. -/
def ofText? (s : String) : Option FailureKind :=
  all.find? (·.text = s)

/-- The code of a failure that does not bring its own. -/
def defaultCode : FailureKind → FailureCode
  | .general => .parse
  | .parse => .parse
  | .format => .format
  | .decode => .decode
  | .execution => .execution

/-- Whether the source is to blame. -/
def isParse : FailureKind → Bool
  | .parse => true
  | .format => true
  | _ => false

end FailureKind

/-- The code that a text names, or that of the kind without a text. -/
def FailureKind.codeFor (k : FailureKind) : Option String → Except UnknownCode FailureCode
  | none => .ok k.defaultCode
  | some s =>
    match FailureCode.ofText? s with
    | some code => .ok code
    | none => .error ⟨s⟩

/-- A failure.  What a program that ran left behind is kept for failed executions. -/
structure Failure where
  kind : FailureKind
  message : String
  code : FailureCode := kind.defaultCode
  status : Option Int := none
  stderr : String := ""
  deriving Repr, DecidableEq

end HoneypotAudit
