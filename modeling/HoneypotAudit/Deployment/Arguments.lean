import HoneypotAudit.Abi.Decoder
import HoneypotAudit.Abi.Resolve
import HoneypotAudit.Abi.Signature
import HoneypotAudit.Deployment.Blob
import HoneypotAudit.Solidity.Argument

/-!
# Constructor arguments

From the declared parameter types of a constructor and the raw arguments of a deployment to
argument expressions: `decodeArguments`.  It gives all arguments or a fault, never a part of them.
A length beyond all bounds in the data and a type or a value that is nested too deep are not faults
of the arguments; they stop the decoding.
-/

namespace HoneypotAudit.Deployment

open HoneypotAudit.Text HoneypotAudit.Abi HoneypotAudit.Solidity

/-! ## Faults -/

/-- Why data does not fit a signature. -/
inductive MismatchCause where
  /-- There is no signature to begin with. -/
  | signature (cause : SignatureFault)
  | type (cause : TypeFault)
  | data (cause : DataFault)
  | literal (cause : LiteralFault)
  deriving Repr, DecidableEq

/-- The wording of a cause. -/
def MismatchCause.message : MismatchCause → String
  | .signature cause => cause.message
  | .type cause => cause.message
  | .data cause => cause.message
  | .literal cause => cause.message

/-- Why there are no argument expressions. -/
inductive ArgumentFault where
  /-- A parameter type has no ABI type. -/
  | signature (cause : SignatureFault)
  /-- The raw arguments are not hexadecimal. -/
  | notHexadecimal (position : Nat)
  /-- The data does not fit the signature. -/
  | mismatch (types : List String) (cause : MismatchCause)
  deriving Repr, DecidableEq

/-- The wording of an argument fault. -/
def ArgumentFault.message : ArgumentFault → String
  | .signature cause => cause.message
  | .notHexadecimal position =>
    "Constructor arguments are not valid hex: non-hexadecimal number found in fromhex() arg at " ++
      "position " ++ toString position
  | .mismatch types cause =>
    "Constructor arguments do not match (" ++ ", ".intercalate types ++ "): " ++ cause.message

/-! ## Results -/

/-- The outcome of decoding constructor arguments.  `statements` have to run before the
deployment.  Where there is a fault, there are no arguments and no statements. -/
structure Decoded where
  arguments : List String := []
  signature : List String := []
  statements : List String := []
  fault : Option ArgumentFault := none
  deriving Repr, DecidableEq, Inhabited

/-- Whether decoding went well. -/
def Decoded.isOk (d : Decoded) : Bool :=
  d.fault.isNone

/-! ## Decoding -/

/-- The ABI types of a list of type texts. -/
def resolveAll (rooms : Rooms) : List (List Char) → Except TypeFault (List AbiType)
  | [] => .ok []
  | text :: texts => do
    let t ← resolve rooms text
    let ts ← resolveAll rooms texts
    .ok (t :: ts)

/-- Declared types as the source spells them. -/
def spellings (room : Nat) : List TypeName → Except TypeName.SpellingFault (List (List Char))
  | [] => .ok []
  | t :: ts => do
    let text ← t.spelling room
    let texts ← spellings room ts
    .ok (text :: texts)

/-- The expressions of values whose ABI and declared types are given. -/
def renderArguments (room : Nat) : List (Value × List Char × List Char) → Rendering (List String)
  | [] => pure []
  | (v, abiType, solType) :: rest => do
    let expr ← render room abiType solType v
    let exprs ← renderArguments room rest
    pure (String.ofList expr :: exprs)

/-- Why decoding does not come to an outcome. -/
inductive Stopped where
  /-- A length is beyond all bounds. -/
  | oversized
  /-- A type or a value is nested too deep. -/
  | tooDeep
  deriving Repr, DecidableEq

/-- The outcome for a signature and declared types, given the data. -/
def decodeData (rooms : Rooms) (signature declared : List (List Char)) (data : Bytes) :
    Except Stopped Decoded :=
  let texts := signature.map String.ofList
  let failed (cause : MismatchCause) : Except Stopped Decoded :=
    .ok { signature := texts, fault := some (.mismatch texts cause) }
  match resolveAll rooms signature with
  | .error cause => if cause.isTooDeep then .error .tooDeep else failed (.type cause)
  | .ok types =>
    match decode types data with
    | .error .oversized => .error .oversized
    | .error cause => failed (.data cause)
    | .ok values =>
      match (renderArguments rooms.rendered (values.zip (signature.zip declared))).run.run {} with
      | (.error .oversized, _) => .error .oversized
      | (.error .tooDeep, _) => .error .tooDeep
      | (.error cause, _) => failed (.literal cause)
      | (.ok arguments, r) =>
        .ok { arguments := arguments, signature := texts, statements := r.statements }

/-- The argument expressions for declared parameter types and raw arguments.  Without parameters
the raw arguments do not matter. -/
def decodeArguments (rooms : Rooms) (types : List TypeName) (blob : Blob) :
    Except Stopped Decoded :=
  if types.isEmpty then .ok {}
  else
    match Abi.signature rooms.described types with
    | .error .tooDeep => .error .tooDeep
    | .error .longLength => .ok { fault := some (.mismatch [] (.signature .longLength)) }
    | .error cause => .ok { fault := some (.signature cause) }
    | .ok signature =>
      match spellings rooms.spelled types with
      -- a type with an ABI type has a spelling, if there is room for it
      | .error _ => .error .tooDeep
      | .ok declared =>
        match blob.toBytes with
        | .error position =>
          .ok { signature := signature.map String.ofList, fault := some (.notHexadecimal position) }
        | .ok data => decodeData rooms signature declared data

end HoneypotAudit.Deployment
