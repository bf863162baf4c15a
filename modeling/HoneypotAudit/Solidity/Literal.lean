import HoneypotAudit.Abi.Value
import HoneypotAudit.Address.Checksum
import HoneypotAudit.Text.Integer
import HoneypotAudit.Text.Utf8

/-!
# Literals

Values as literals of Solidity.  A text is written in printable ASCII between double quotes, with
every other character as escapes of its UTF-8 bytes; an address carries its checksum; a byte
string of a fixed size is a hexadecimal number, one of any size a `hex` literal.

A value that does not suit the type it is rendered for is a fault.
-/

namespace HoneypotAudit.Solidity

open HoneypotAudit.Text HoneypotAudit.Abi

/-! ## Faults -/

/-- Why a value is not rendered. -/
inductive LiteralFault where
  /-- The value is no address. -/
  | address (cause : Address.Fault)
  /-- The text is no integer. -/
  | number (cause : Integer.Refusal)
  /-- A number of bytes below zero. -/
  | negativeCount
  /-- A number outside the range of a byte. -/
  | byteRange
  /-- A type text has no opening bracket where an item type was to be found. -/
  | noBracket
  /-- The value is of a kind that the type does not take at all. -/
  | unsuited
  /-- A number of bytes beyond all bounds. -/
  | oversized
  /-- Arrays are nested too deep. -/
  | tooDeep
  deriving Repr, DecidableEq

/-- The wording of a literal fault. -/
def LiteralFault.message : LiteralFault → String
  | .address cause => cause.message
  | .number cause => cause.message
  | .negativeCount => "negative count"
  | .byteRange => "bytes must be in range(0, 256)"
  | .noBracket => "substring not found"
  | .unsuited => "unsuitable value"
  | .oversized => "cannot fit 'int' into an index-sized integer"
  | .tooDeep => "arrays are nested too deep"

/-! ## Texts -/

/-- The escapes with a letter of their own. -/
def shortEscape? : Char → Option Char
  | '"' => some '"'
  | '\\' => some '\\'
  | '\n' => some 'n'
  | '\r' => some 'r'
  | '\t' => some 't'
  | _ => none

/-- Printable ASCII. -/
def isPlain (c : Char) : Bool :=
  decide (0x20 ≤ c.toNat) && decide (c.toNat ≤ 0x7E)

/-- The escape of a byte. -/
def byteEscape (b : UInt8) : List Char :=
  '\\' :: 'x' :: Hex.encodeByte b

/-- One character inside a literal. -/
def escapeChar (c : Char) : List Char :=
  match shortEscape? c with
  | some e => ['\\', e]
  | none => if isPlain c then [c] else (String.utf8EncodeChar c).flatMap byteEscape

/-- A text as a literal. -/
def quote (cs : List Char) : List Char :=
  '"' :: cs.flatMap escapeChar ++ ['"']

/-- Whether a text lies between the space and the tilde in the order of texts. -/
def isPlainWord (cs : List Char) : Bool :=
  match cs with
  | [] => false
  | [c] => isPlain c
  | c :: _ => decide (0x20 ≤ c.toNat) && decide (c.toNat < 0x7E)

/-- A piece of a text that was given in pieces. -/
def escapePiece (cs : List Char) : List Char :=
  match cs with
  | [c] => escapeChar c
  | _ => if isPlainWord cs then cs else (Utf8.encode cs).flatMap byteEscape

/-- The pieces of a text, if all values are texts. -/
def pieces? : List Value → Option (List (List Char))
  | [] => some []
  | .text s :: rest => (pieces? rest).map (s.toList :: ·)
  | _ :: _ => none

/-- A value as a text literal. -/
def stringLiteral : Value → Except LiteralFault (List Char)
  | .text s => .ok (quote s.toList)
  | .bytes [] => .ok (quote [])
  | .tuple items =>
    match pieces? items with
    | some ps => .ok ('"' :: ps.flatMap escapePiece ++ ['"'])
    | none => .error .unsuited
  | _ => .error .unsuited

/-! ## Numbers -/

/-- The integer in a text. -/
def integerIn (quoted : String) (cs : List Char) : Except LiteralFault Int :=
  match Integer.readShownAs quoted cs with
  | .ok n => .ok n
  | .error cause => .error (.number cause)

/-- A value as an integer. -/
def integerOf : Value → Except LiteralFault Int
  | .bool b => .ok (if b then 1 else 0)
  | .int n => .ok n
  | .decimal c places => .ok (Int.tdiv c (Nat.pow 10 places))
  | .text s => integerIn (Integer.excerpt s.toList) s.toList
  | .bytes bs =>
    let quoted := String.ofList (Quoted.ofBytes (bs.take Integer.maxShown))
    if bs.any (128 ≤ ·) then .error (.number ⟨quoted, .malformed⟩)
    else integerIn quoted (bs.map fun b => Char.ofNat b.toNat)
  | .tuple _ => .error .unsuited

/-! ## Byte strings -/

/-- Lengths from here on do not count bytes. -/
def countLimit : Int := 0x8000000000000000

/-- So many zero bytes. -/
def zeros (n : Int) : Except LiteralFault Bytes :=
  if n < -countLimit ∨ countLimit ≤ n then .error .oversized
  else if n < 0 then .error .negativeCount
  else .ok (List.replicate n.toNat 0)

/-- A value as one byte. -/
def byteOf : Value → Except LiteralFault UInt8
  | .bool b => .ok (if b then 1 else 0)
  | .int n => if 0 ≤ n ∧ n < 256 then .ok (UInt8.ofNat n.toNat) else .error .byteRange
  | _ => .error .unsuited

/-- Values as bytes. -/
def bytesOfList : List Value → Except LiteralFault Bytes
  | [] => .ok []
  | v :: vs => do
    let b ← byteOf v
    let bs ← bytesOfList vs
    .ok (b :: bs)

/-- A value as bytes; a number stands for so many zeros. -/
def bytesOf : Value → Except LiteralFault Bytes
  | .bytes bs => .ok bs
  | .bool b => zeros (if b then 1 else 0)
  | .int n => zeros n
  | .tuple items => bytesOfList items
  | _ => .error .unsuited

/-! ## Addresses -/

/-- A value as an address literal. -/
def addressLiteral (v : Value) : Except LiteralFault (List Char) :=
  let shown := String.ofList v.quoted
  let found : Except LiteralFault (Except Address.Fault (List Char)) :=
    match v with
    | .text s => .ok (Address.ofText s.toList)
    | .bytes bs => .ok (Address.ofBytes bs)
    | .bool b => .ok (Address.ofInt shown (if b then 1 else 0))
    | .int n => .ok (Address.ofInt shown n)
    | _ => .error .unsuited
  match found with
  | .error fault => .error fault
  | .ok (.error cause) => .error (.address cause)
  | .ok (.ok cs) => .ok cs

/-! ## Literals by type -/

/-- Whether a text begins with a word. -/
def startsWith (word : String) (cs : List Char) : Bool :=
  word.toList.isPrefixOf cs

/-- A value as a literal of the type that a text names. -/
def literal (v : Value) (abiType : List Char) : Except LiteralFault (List Char) :=
  if abiType = "bool".toList then .ok (if v.isTrue then "true".toList else "false".toList)
  else if abiType = "address".toList then addressLiteral v
  else if startsWith "uint" abiType || startsWith "int" abiType then
    (integerOf v).map signedDecimal
  else if abiType = "string".toList then stringLiteral v
  else if abiType = "bytes".toList then
    (bytesOf v).map fun bs => "hex\"".toList ++ Hex.encode bs ++ ['"']
  else if startsWith "bytes" abiType then (bytesOf v).map fun bs => '0' :: 'x' :: Hex.encode bs
  else .ok v.plain

end HoneypotAudit.Solidity
