import HoneypotAudit.Rooms
import HoneypotAudit.Text.Integer
import HoneypotAudit.Text.Lines
import HoneypotAudit.Text.Quoted

/-!
# Type names

The types of Solidity declarations as the compiler describes them: elementary types, arrays,
mappings, and types that the source itself or the language names (contracts, enums, structs,
functions), for which the compiler gives a descriptive string such as `enum Token.Mode`.

`TypeName.description` is the form in which a type appears in messages; `TypeName.spelling` is the
type as a test in the same file writes it.
-/

namespace HoneypotAudit.Solidity

open HoneypotAudit.Text

/-- The length of an array type. -/
inductive ArrayLength where
  /-- The length is part of the value. -/
  | dynamic
  | fixed (n : Int)
  /-- The length is an expression whose value is not known; a number may still be shown. -/
  | unresolved (shown : Option Int)
  deriving Repr, DecidableEq, Inhabited

/-- The number that an array length shows. -/
def ArrayLength.shown? : ArrayLength → Option Int
  | .dynamic => none
  | .fixed n => some n
  | .unresolved shown => shown

/-- Whether the length of an array is known, or known to vary. -/
def ArrayLength.isResolved : ArrayLength → Bool
  | .unresolved _ => false
  | _ => true

/-- The number of an array length between brackets. -/
def ArrayLength.brackets (l : ArrayLength) : List Char :=
  '[' :: (match l.shown? with
    | none => []
    | some n => signedDecimal n) ++ [']']

/-- A type of a declaration. -/
inductive TypeName where
  | elementary (name : String)
  | array (base : TypeName) (length : ArrayLength)
  | mapping (key value : TypeName)
  | named (name : String) (typeString : String)
  deriving Repr, DecidableEq, Inhabited

namespace TypeName

/-- The full form of a short name of an elementary type, and the plain form of a payable
address. -/
def aliases : List (String × String) :=
  [("uint", "uint256"), ("int", "int256"), ("byte", "bytes1"), ("fixed", "fixed128x18"),
    ("ufixed", "ufixed128x18"), ("address payable", "address")]

/-- An elementary type with its short name in full. -/
def expand (name : String) : String :=
  (aliases.lookup name).getD name

/-- The first word of a type string, which says what kind of type it is. -/
def kindOf (typeString : String) : String :=
  String.ofList (cutFirst ' ' typeString.toList).1

/-- A type as it appears in messages. -/
def description : TypeName → List Char
  | .elementary name => "ElementaryType(name=".toList ++ Quoted.ofChars name.toList ++ [')']
  | .array base length =>
    let shown := match length.shown? with
      | none => "None".toList
      | some n => signedDecimal n
    "ArrayType(base=".toList ++ description base ++ ", length=".toList ++ shown ++
      ", length_resolved=".toList ++ (if length.isResolved then "True" else "False").toList ++ [')']
  | .mapping key value =>
    "MappingType(key=".toList ++ description key ++ ", value=".toList ++ description value ++ [')']
  | .named name typeString =>
    "UserDefinedType(name=".toList ++ Quoted.ofChars name.toList ++ ", type_string=".toList ++
      Quoted.ofChars typeString.toList ++ [')']

/-- How deep the parts of a type are nested; a type without parts has depth one. -/
def depth : TypeName → Nat
  | .array base _ => depth base + 1
  | .mapping key value => max (depth key) (depth value) + 1
  | _ => 1

/-- The numbers that the description of a type shows. -/
def shownLengths : TypeName → List Int
  | .array base length => shownLengths base ++ length.shown?.toList
  | .mapping key value => shownLengths key ++ shownLengths value
  | _ => []

/-- Why a type is not spelled. -/
inductive SpellingFault where
  /-- A mapping has no name. -/
  | nameless
  /-- The length of an array has more digits than are written. -/
  | longLength
  /-- Arrays are nested too deep. -/
  | tooDeep
  deriving Repr, DecidableEq

/-- The wording of a spelling fault. -/
def SpellingFault.message : SpellingFault → String
  | .nameless => "a mapping has no name"
  | .longLength => Integer.unwritableMessage
  | .tooDeep => "a type is nested too deep"

/-- A type of at most `room` levels as any contract of the same file can write it.  An enum declared
inside a contract comes out qualified.  Mappings have no such form. -/
def spelling : (room : Nat) → TypeName → Except SpellingFault (List Char)
  | 0, _ => .error .tooDeep
  | _ + 1, .elementary name =>
    .ok (if name = "address payable" then name.toList else (expand name).toList)
  | room + 1, .array base length =>
    if !length.shown?.all Integer.isWritable then .error .longLength
    else (spelling room base).map (· ++ length.brackets)
  | _ + 1, .mapping _ _ => .error .nameless
  | _ + 1, .named name typeString =>
    match (cutFirst ' ' typeString.toList).2 with
    | some qualified => .ok qualified
    | none => .ok name.toList

end TypeName

end HoneypotAudit.Solidity
