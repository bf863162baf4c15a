import HoneypotAudit.Text.Quoted
import HoneypotAudit.Number.Decimal

/-!
# Argument values

The values that constructor arguments take, and the two texts of a value: `Value.plain`, which
shows a text as it is, and `Value.quoted`, which shows it between quotes as it appears inside
another value or a message.
-/

namespace HoneypotAudit.Abi

open HoneypotAudit.Text HoneypotAudit.Number

/-- A value of an argument.  A decimal is a fraction `coefficient / 10 ^ places` in lowest terms. -/
inductive Value where
  | bool (b : Bool)
  | int (n : Int)
  | decimal (coefficient : Int) (places : Nat)
  | text (s : String)
  | bytes (bs : Bytes)
  | tuple (items : List Value)
  deriving Repr, Inhabited

namespace Value

/-- The names of the truth values inside texts. -/
def boolText (b : Bool) : List Char :=
  if b then "True".toList else "False".toList

mutual

/-- A value inside another one. -/
def quoted : Value → List Char
  | .bool b => boolText b
  | .int n => signedDecimal n
  | .decimal c p => "Decimal('".toList ++ fractionText c p ++ "')".toList
  | .text s => Quoted.ofChars s.toList
  | .bytes bs => Quoted.ofBytes bs
  | .tuple items => '(' :: quotedItems items ++ [')']

/-- The items of a tuple; a single one is followed by a comma. -/
def quotedItems : List Value → List Char
  | [] => []
  | [v] => quoted v ++ [',']
  | v :: rest => quoted v ++ ',' :: ' ' :: quotedRest rest

/-- The items of a tuple behind its first one. -/
def quotedRest : List Value → List Char
  | [] => []
  | [v] => quoted v
  | v :: rest => quoted v ++ ',' :: ' ' :: quotedRest rest

end

/-- A value by itself. -/
def plain : Value → List Char
  | .decimal c p => fractionText c p
  | .text s => s.toList
  | v => quoted v

/-- Zero, false and what is empty count as false. -/
def isTrue : Value → Bool
  | .bool b => b
  | .int n => n != 0
  | .decimal c _ => c != 0
  | .text s => !s.isEmpty
  | .bytes bs => !bs.isEmpty
  | .tuple items => !items.isEmpty

end Value

end HoneypotAudit.Abi
