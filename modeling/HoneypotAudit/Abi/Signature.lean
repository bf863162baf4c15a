import HoneypotAudit.Solidity.TypeName
import HoneypotAudit.Text.Integer

/-!
# Signatures

The ABI type text of a declared type.  The brackets of the array wrappers stand behind the leaf,
the innermost wrapper first, as they do in the declaration.
-/

namespace HoneypotAudit.Abi

open HoneypotAudit.Solidity HoneypotAudit.Text

/-- Why a declared type has no ABI type. -/
inductive SignatureFault where
  /-- The length of an array is not known. -/
  | unresolvedLength
  /-- The length of an array has more digits than are written. -/
  | longLength
  /-- A leaf without a counterpart is nested too deep to be described. -/
  | tooDeep
  /-- The leaf has no counterpart in the ABI. -/
  | noCounterpart (leaf : TypeName)
  deriving Repr, DecidableEq

/-- The wording of a signature fault. -/
def SignatureFault.message : SignatureFault → String
  | .unresolvedLength => "Array length is not a literal and could not be resolved"
  | .longLength => Integer.unwritableMessage
  | .tooDeep => "a type is nested too deep"
  | .noCounterpart leaf =>
    "Type " ++ String.ofList leaf.description ++ " has no ABI representation"

/-- The fault of a leaf without a counterpart.  A leaf is not even described if it has more than
`room` levels, or if that takes a number with too many digits. -/
def leafFault (room : Nat) (leaf : TypeName) : SignatureFault :=
  if room < leaf.depth then .tooDeep
  else if leaf.shownLengths.all Integer.isWritable then .noCounterpart leaf
  else .longLength

/-- The ABI type text of a type that is no array. -/
def leafText (room : Nat) : TypeName → Except SignatureFault (List Char)
  | .elementary name => .ok (TypeName.expand name).toList
  | .named name typeString =>
    let kind := TypeName.kindOf typeString
    if kind = "contract" ∨ kind = "interface" then .ok "address".toList
    else if kind = "enum" then .ok "uint8".toList
    else .error (leafFault room (.named name typeString))
  | t => .error (leafFault room t)

/-- The ABI type text of a declared type.  What is wrong with the length of an outer wrapper is
reported before whatever is wrong inside. -/
def typeText (room : Nat) : TypeName → Except SignatureFault (List Char)
  | .array base length =>
    if !length.isResolved then .error .unresolvedLength
    else if !length.shown?.all Integer.isWritable then .error .longLength
    else (typeText room base).map (· ++ length.brackets)
  | t => leafText room t

/-- The ABI type texts of a list of declared types. -/
def signature (room : Nat) : List TypeName → Except SignatureFault (List (List Char))
  | [] => .ok []
  | t :: ts => do
    let text ← typeText room t
    let texts ← signature room ts
    .ok (text :: texts)

end HoneypotAudit.Abi
