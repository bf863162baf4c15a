import HoneypotAudit.Text.Utf8

/-!
# Types of the contract ABI

The types of arguments as they are laid out in call data.  A type is dynamic if the size of its
values is not fixed: byte strings, texts, arrays without a length, and what is built of them.
-/

namespace HoneypotAudit.Abi

/-- A type of the contract ABI.  Sizes of numbers are in bits, sizes of byte strings in bytes. -/
inductive AbiType where
  | unsigned (bits : Nat)
  | signed (bits : Nat)
  | unsignedFixed (bits places : Nat)
  | signedFixed (bits places : Nat)
  | boolean
  | address
  | fixedBytes (size : Nat)
  | bytes
  | string
  | array (item : AbiType)
  | sized (item : AbiType) (length : Nat)
  | tuple (items : List AbiType)
  deriving Repr, Inhabited

namespace AbiType

mutual

/-- A type whose values have no fixed size. -/
def isDynamic : AbiType → Bool
  | .bytes => true
  | .string => true
  | .array _ => true
  | .sized item _ => isDynamic item
  | .tuple items => anyDynamic items
  | _ => false

/-- A list of types with a dynamic one. -/
def anyDynamic : List AbiType → Bool
  | [] => false
  | t :: ts => isDynamic t || anyDynamic ts

end

/-- The number of words that a member of a tuple counts for when the end of the heads is computed:
its length for a static array, one for all else. -/
def headWords (t : AbiType) : Nat :=
  match t with
  | .sized item length => if item.isDynamic then 1 else length
  | _ => 1

/-- The number of words that the members of a tuple count for. -/
def headWordsOf : List AbiType → Nat
  | [] => 0
  | t :: ts => headWords t + headWordsOf ts

end AbiType

end HoneypotAudit.Abi
