import HoneypotAudit.Address.Keccak
import HoneypotAudit.Text.Quoted

/-!
# Account addresses

An address is written as `0x` and forty hexadecimal digits.  The checksummed form carries a
checksum in the case of its letters: a letter is upper case where the digit at its place in the
hash of the lower-case digits is at least eight.
-/

namespace HoneypotAudit.Address

open HoneypotAudit.Text

/-- The number of hexadecimal digits of an address. -/
def digitCount : Nat := 40

/-- A hexadecimal digit in upper case. -/
def upperDigit (c : Char) : Char :=
  if 0x61 ≤ c.toNat ∧ c.toNat ≤ 0x66 then Char.ofNat (c.toNat - 0x20) else c

/-- A hexadecimal digit in lower case. -/
def lowerDigit (c : Char) : Char :=
  if 0x41 ≤ c.toNat ∧ c.toNat ≤ 0x46 then Char.ofNat (c.toNat + 0x20) else c

/-- Lower-case digits with each letter in the case that the hash of the digits asks for. -/
def checksumDigits (digits : List Char) : List Char :=
  let hash := Hex.encode (Keccak.hash (digits.map fun c => UInt8.ofNat c.toNat))
  List.zipWith (fun c h => if 7 < (Hex.value? h).getD 0 then upperDigit c else c) digits hash

/-- The checksummed form of an address given by its lower-case digits. -/
def checksummed (digits : List Char) : List Char :=
  '0' :: 'x' :: checksumDigits digits

/-- Why a value is not read as an address. -/
inductive Fault where
  /-- A text that is not hexadecimal. -/
  | notHexadecimal (quoted : String)
  /-- Digits of another number than forty. -/
  | wrongLength (quoted : String) (normalized : String)
  deriving Repr, DecidableEq

/-- The wording of a fault. -/
def Fault.message : Fault → String
  | .notHexadecimal quoted => "when sending a str, it must be a hex string. Got: " ++ quoted
  | .wrongLength quoted normalized =>
    "Unknown format " ++ quoted ++ ", attempted to normalize to '" ++ normalized ++ "'"

/-- The checksummed form of hexadecimal digits in lower case that come from a quoted value. -/
def ofDigits (quoted : String) (digits : List Char) : Except Fault (List Char) :=
  if digits.length = digitCount then .ok (checksummed digits)
  else .error (.wrongLength quoted (String.ofList ('0' :: 'x' :: digits)))

/-- The checksummed form of an address given as a text with or without `0x`. -/
def ofText (cs : List Char) : Except Fault (List Char) :=
  let quoted := String.ofList (Quoted.ofChars cs)
  let digits := Hex.dropMark cs
  if digits.all Hex.isDigit then ofDigits quoted (digits.map lowerDigit)
  else .error (.notHexadecimal quoted)

/-- The checksummed form of an address given as bytes. -/
def ofBytes (bs : Bytes) : Except Fault (List Char) :=
  ofDigits (String.ofList (Quoted.ofBytes bs)) (Hex.encode bs)

/-- The checksummed form of an address given as a number that is shown as `quoted`. -/
def ofInt (quoted : String) (n : Int) : Except Fault (List Char) :=
  let digits := Hex.ofNat n.natAbs
  if n < 0 then .error (.wrongLength quoted (String.ofList ('-' :: '0' :: 'x' :: digits)))
  else ofDigits quoted digits

end HoneypotAudit.Address
