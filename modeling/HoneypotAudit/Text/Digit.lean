import HoneypotAudit.Text.Blank

/-!
# Decimal digits of any script

Each script that writes numbers in base ten has ten consecutive digits, from zero to nine.
`digitZeros` lists the zeros; the value of a digit is its distance from the zero of its script.
-/

namespace HoneypotAudit.Text

/-- The digit zero of every script with decimal digits, in code point order. -/
def digitZeros : List Nat :=
  [0x30, 0x660, 0x6F0, 0x7C0, 0x966, 0x9E6, 0xA66, 0xAE6, 0xB66, 0xBE6, 0xC66, 0xCE6, 0xD66, 0xDE6,
    0xE50, 0xED0, 0xF20, 0x1040, 0x1090, 0x17E0, 0x1810, 0x1946, 0x19D0, 0x1A80, 0x1A90, 0x1B50,
    0x1BB0, 0x1C40, 0x1C50, 0xA620, 0xA8D0, 0xA900, 0xA9D0, 0xA9F0, 0xAA50, 0xABF0, 0xFF10,
    0x104A0, 0x10D30, 0x11066, 0x110F0, 0x11136, 0x111D0, 0x112F0, 0x11450, 0x114D0, 0x11650,
    0x116C0, 0x11730, 0x118E0, 0x11950, 0x11C50, 0x11D50, 0x11DA0, 0x16A60, 0x16AC0, 0x16B50,
    0x1D7CE, 0x1D7D8, 0x1D7E2, 0x1D7EC, 0x1D7F6, 0x1E140, 0x1E2F0, 0x1E950, 0x1FBF0]

/-- The value of a decimal digit of any script. -/
def digitValue? (c : Char) : Option Nat :=
  (digitZeros.find? fun z => decide (z ≤ c.toNat) && decide (c.toNat ≤ z + 9)).map
    fun z => c.toNat - z

/-- Decimal digits of any script. -/
def isDigit (c : Char) : Bool :=
  (digitValue? c).isSome

/-- The digits of ASCII. -/
def isAsciiDigit (c : Char) : Bool :=
  decide (0x30 ≤ c.toNat) && decide (c.toNat ≤ 0x39)

/-- The letters of ASCII. -/
def isAsciiLetter (c : Char) : Bool :=
  (decide (0x41 ≤ c.toNat) && decide (c.toNat ≤ 0x5A)) ||
    (decide (0x61 ≤ c.toNat) && decide (c.toNat ≤ 0x7A))

/-! ## Writing numbers -/

/-- The ASCII digit of a value below ten. -/
def digitChar (n : Nat) : Char :=
  Char.ofNat (0x30 + n % 10)

/-- A natural number in decimal digits, without leading zeros. -/
def decimal (n : Nat) : List Char :=
  if n < 10 then [digitChar n] else decimal (n / 10) ++ [digitChar n]
termination_by n

/-- An integer in decimal digits, with a minus sign below zero. -/
def signedDecimal (n : Int) : List Char :=
  match n with
  | .ofNat k => decimal k
  | .negSucc k => '-' :: decimal (k + 1)

/-- Digits filled with zeros on the left up to a width. -/
def padLeft (width : Nat) (fill : Char) (cs : List Char) : List Char :=
  List.replicate (width - cs.length) fill ++ cs

/-- Text filled on the right up to a width. -/
def padRight (width : Nat) (fill : Char) (cs : List Char) : List Char :=
  cs ++ List.replicate (width - cs.length) fill

end HoneypotAudit.Text
