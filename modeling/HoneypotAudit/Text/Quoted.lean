import HoneypotAudit.Text.Hex
import HoneypotAudit.Text.Printable

/-!
# Quoted texts and bytes

The form in which texts and byte strings appear inside messages: between quotes, with escapes for
whatever is not printable.  The quote is the single one, unless the text holds a single quote and
no double one.
-/

namespace HoneypotAudit.Text.Quoted

/-- The quote for a content: double only if that saves an escape. -/
def quoteFor (cs : List Char) : Char :=
  if cs.contains '\'' && !cs.contains '"' then '"' else '\''

/-- The escapes with a letter of their own. -/
def shortEscape? : Char → Option Char
  | '\\' => some '\\'
  | '\t' => some 't'
  | '\n' => some 'n'
  | '\r' => some 'r'
  | _ => none

/-- The escape of a code point by number, in the shortest of the three widths that holds it. -/
def numberEscape (n : Nat) : List Char :=
  if n < 0x100 then '\\' :: 'x' :: Hex.padded 2 n
  else if n < 0x10000 then '\\' :: 'u' :: Hex.padded 4 n
  else '\\' :: 'U' :: Hex.padded 8 n

/-- One character between quotes. -/
def escapeChar (quote c : Char) : List Char :=
  if c = quote then ['\\', c]
  else match shortEscape? c with
    | some e => ['\\', e]
    | none => if isPrintable c then [c] else numberEscape c.toNat

/-- A text between quotes. -/
def ofChars (cs : List Char) : List Char :=
  let quote := quoteFor cs
  quote :: cs.flatMap (escapeChar quote) ++ [quote]

/-- One code number between quotes; half of a UTF-16 pair is escaped. -/
def escapeCode (quote : Char) (n : Nat) : List Char :=
  if n.isValidChar then escapeChar quote (Char.ofNat n) else numberEscape n

/-- A text of code numbers between quotes. -/
def ofCodes (codes : List Nat) : List Char :=
  let quote := quoteFor (codes.map Char.ofNat)
  quote :: codes.flatMap (escapeCode quote) ++ [quote]

/-- A text between quotes. -/
def ofString (s : String) : String :=
  String.ofList (ofChars s.toList)

/-- One byte between quotes. -/
def escapeByte (quote : Char) (b : UInt8) : List Char :=
  let c := Char.ofNat b.toNat
  if c = quote then ['\\', c]
  else match shortEscape? c with
    | some e => ['\\', e]
    | none => if 0x20 ≤ b.toNat ∧ b.toNat ≤ 0x7E then [c] else '\\' :: 'x' :: Hex.encodeByte b

/-- Bytes between quotes, with the letter `b` in front. -/
def ofBytes (bs : Bytes) : List Char :=
  let quote := quoteFor (bs.map fun b => Char.ofNat b.toNat)
  'b' :: quote :: bs.flatMap (escapeByte quote) ++ [quote]

end HoneypotAudit.Text.Quoted
