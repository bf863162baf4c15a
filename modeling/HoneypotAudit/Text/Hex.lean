import HoneypotAudit.Text.Blank

/-!
# Hexadecimal bytes

A byte is written as two hexadecimal digits.  `Hex.encode` writes bytes in lower case without
anything between them; `Hex.decode` reads digits of either case and allows ASCII blanks before,
between and after the pairs, but not inside one.
-/

namespace HoneypotAudit.Text

/-- A sequence of bytes. -/
abbrev Bytes := List UInt8

namespace Hex

/-! ## Digits -/

/-- The lower-case digit of a value below sixteen. -/
def digit (n : Nat) : Char :=
  if n < 10 then Char.ofNat (0x30 + n) else Char.ofNat (0x57 + n)

/-- The value of an ASCII hexadecimal digit of either case. -/
def value? (c : Char) : Option Nat :=
  let n := c.toNat
  if 0x30 ≤ n ∧ n ≤ 0x39 then some (n - 0x30)
  else if 0x61 ≤ n ∧ n ≤ 0x66 then some (n - 0x57)
  else if 0x41 ≤ n ∧ n ≤ 0x46 then some (n - 0x37)
  else none

/-- An ASCII hexadecimal digit of either case. -/
def isDigit (c : Char) : Bool :=
  (value? c).isSome

/-- Reading the digit of a value gives the value back. -/
theorem value?_digit {n : Nat} (h : n < 16) : value? (digit n) = some n := by
  have hs : ∀ k : Fin 16, value? (digit k.val) = some k.val := by decide
  exact hs ⟨n, h⟩

/-! ## Writing -/

/-- The two digits of a byte. -/
def encodeByte (b : UInt8) : List Char :=
  [digit (b.toNat / 16), digit (b.toNat % 16)]

/-- Bytes as pairs of digits. -/
def encode (bs : Bytes) : List Char :=
  bs.flatMap encodeByte

/-- The digits of a number in base sixteen, without leading zeros. -/
def ofNat (n : Nat) : List Char :=
  if n < 16 then [digit n] else ofNat (n / 16) ++ [digit (n % 16)]
termination_by n

/-- The digits of a number in base sixteen, filled with zeros up to a width. -/
def padded (width n : Nat) : List Char :=
  let ds := ofNat n
  List.replicate (width - ds.length) '0' ++ ds

/-! ## Reading -/

/-- Reads pairs of digits with blanks around them.  On failure it tells how many characters come
before the first one that is no digit where a digit has to stand. -/
def decodePairs : List Char → Except Nat Bytes
  | [] => .ok []
  | c :: cs =>
    if isAsciiBlank c then
      match decodePairs cs with
      | .ok bs => .ok bs
      | .error n => .error (n + 1)
    else
      match value? c with
      | none => .error 0
      | some high =>
        match cs with
        | [] => .error 1
        | d :: rest =>
          match value? d with
          | none => .error 1
          | some low =>
            match decodePairs rest with
            | .ok bs => .ok (UInt8.ofNat (high * 16 + low) :: bs)
            | .error n => .error (n + 2)

/-- Reads a hexadecimal text.  A character outside ASCII is reported wherever it stands; a text
in ASCII is reported at the first character that breaks the grammar. -/
def decode (cs : List Char) : Except Nat Bytes :=
  match cs.findIdx? fun c => decide (128 ≤ c.toNat) with
  | some n => .error n
  | none => decodePairs cs

/-- What is written is read back. -/
theorem decodePairs_encode (bs : Bytes) : decodePairs (encode bs) = .ok bs := by
  induction bs with
  | nil => rfl
  | cons b bs ih =>
    have hb : b.toNat < 256 := b.toNat_lt
    have hsplit : encode (b :: bs)
        = digit (b.toNat / 16) :: digit (b.toNat % 16) :: encode bs := rfl
    have hblank : ∀ k : Fin 16, isAsciiBlank (digit k.val) = false := by decide
    have hhigh := hblank ⟨b.toNat / 16, by omega⟩
    have hvalue := value?_digit (show b.toNat / 16 < 16 by omega)
    have hlow := value?_digit (show b.toNat % 16 < 16 by omega)
    rw [hsplit, decodePairs]
    simp only [show isAsciiBlank (digit (b.toNat / 16)) = false from hhigh, Bool.false_eq_true,
      if_false, hvalue, hlow, ih]
    rw [show b.toNat / 16 * 16 + b.toNat % 16 = b.toNat by omega, UInt8.ofNat_toNat]

/-- The text without a leading `0x` or `0X`. -/
def dropMark : List Char → List Char
  | '0' :: 'x' :: cs => cs
  | '0' :: 'X' :: cs => cs
  | cs => cs

end Hex

end HoneypotAudit.Text
