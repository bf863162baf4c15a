import HoneypotAudit.Number.Binary64
import HoneypotAudit.Text.Digit

/-!
# Floating-point numbers in decimal

Two ways of writing a binary floating-point number.  `shortest?` finds the decimal with the fewest
digits that reads back as the number, the nearest of them if there are several, an exact tie going
to the even one.  `fixed` rounds the exact value to a number of places, ties to even.

How the digits are laid out is a matter of the document they appear in and is stated there as a
`Layout`.
-/

namespace HoneypotAudit.Number

open HoneypotAudit.Text

/-! ## The fewest digits -/

/-- A positive decimal number `digits · 10 ^ power`. -/
structure Scaled where
  digits : Nat
  power : Int
  deriving Repr, DecidableEq

/-- The number of decimal digits. -/
def digitCount (n : Nat) : Nat :=
  (decimal n).length

/-- The least `k`, counted from a start, with `den ≤ num · 10 ^ k`; the search gives up after
`fuel` steps. -/
def leadingZeros (num den : Nat) : Nat → Nat → Nat
  | k, 0 => k
  | k, fuel + 1 => if den ≤ num * Nat.pow 10 k then k else leadingZeros num den (k + 1) fuel

/-- The power of ten of the first digit of a positive quotient. -/
def leadingPower (num den : Nat) : Int :=
  if den ≤ num then (digitCount (num / den) : Int) - 1
  else -(leadingZeros num den 1 400 : Int)

/-- Of the two neighbours of a quotient on the grid `10 ^ power`, the nearer one that a test
accepts, with an exact tie going to the even one. -/
def nearestOnGrid? (accept : Scaled → Bool) (num den : Nat) (power : Int) : Option Scaled :=
  let (n, d) := Binary64.scaleRatio 10 (-power) num den
  let below : Scaled := ⟨n / d, power⟩
  let above : Scaled := ⟨n / d + 1, power⟩
  match accept below, accept above with
  | true, true =>
    if roundHalfEven n d = below.digits then some below else some above
  | true, false => some below
  | false, true => some above
  | false, false => none

/-- A decimal without trailing zeros in its digits, as far as `fuel` reaches. -/
def Scaled.trim : Nat → Scaled → Scaled
  | 0, s => s
  | fuel + 1, s =>
    if s.digits ≠ 0 ∧ s.digits % 10 = 0 then Scaled.trim fuel ⟨s.digits / 10, s.power + 1⟩ else s

/-- The decimal with the fewest digits that reads back as a positive finite number. -/
def shortest? (mantissa : Nat) (exponent : Int) : Option Scaled :=
  let (num, den) := Binary64.ratio mantissa exponent
  let top := leadingPower num den
  let readsBack (s : Scaled) : Bool :=
    Binary64.ofDecimal false s.digits s.power
      == Binary64.finite false mantissa exponent
  ((List.range 17).findSome? fun (k : Nat) => nearestOnGrid? readsBack num den (top - k)).map
    (Scaled.trim 20)

/-! ## Layouts -/

/-- How the digits of a number are laid out: the powers of the first digit for which the number is
written positionally, and the form of the exponent for all others. -/
structure Layout where
  /-- The least power of the first digit written positionally. -/
  lowest : Int
  /-- The greatest power of the first digit written positionally. -/
  highest : Int
  /-- Whether an exponent that is not negative has a plus sign. -/
  plus : Bool
  /-- The least number of digits of an exponent. -/
  exponentWidth : Nat
  deriving Repr, DecidableEq

/-- An exponent in a layout. -/
def Layout.exponent (l : Layout) (p : Int) : List Char :=
  let sign := if p < 0 then ['-'] else if l.plus then ['+'] else []
  'e' :: sign ++ padLeft l.exponentWidth '0' (decimal p.natAbs)

/-- A positive decimal in a layout; positional notation has at least one place. -/
def Layout.scaled (l : Layout) (s : Scaled) : List Char :=
  let ds := decimal s.digits
  let top := s.power + ds.length - 1
  if l.lowest ≤ top ∧ top ≤ l.highest then
    if 0 ≤ s.power then ds ++ List.replicate s.power.toNat '0' ++ ['.', '0']
    else if 0 ≤ top then ds.take (top.toNat + 1) ++ '.' :: ds.drop (top.toNat + 1)
    else '0' :: '.' :: List.replicate (-top - 1).toNat '0' ++ ds
  else
    match ds with
    | [] => []
    | [d] => d :: l.exponent top
    | d :: rest => d :: '.' :: rest ++ l.exponent top

/-- A finite number in the fewest digits. -/
def Layout.finite (l : Layout) (negative : Bool) (mantissa : Nat) (exponent : Int) : List Char :=
  let body :=
    if mantissa = 0 then ['0', '.', '0']
    else match shortest? mantissa exponent with
      | some s => l.scaled s
      | none => []
  if negative then '-' :: body else body

/-! ## Fixed places -/

/-- The exact value of a finite number rounded to a number of places; without places there is no
point. -/
def fixedFinite (places : Nat) (negative : Bool) (mantissa : Nat) (exponent : Int) : List Char :=
  let (num, den) := Binary64.ratio mantissa exponent
  let scaled := roundHalfEven (num * Nat.pow 10 places) den
  let ds := padLeft (places + 1) '0' (decimal scaled)
  let whole := ds.take (ds.length - places)
  let body := if places = 0 then whole else whole ++ '.' :: ds.drop (ds.length - places)
  if negative then '-' :: body else body

/-- A number rounded to a number of places. -/
def fixed (places : Nat) : Binary64 → String
  | .nan => "nan"
  | .infinite s => if s then "-inf" else "inf"
  | .finite s m e => String.ofList (fixedFinite places s m e)

/-! ## Decimal fractions -/

/-- A decimal fraction `coefficient / 10 ^ places` without needless zeros behind the point. -/
def reduceFraction : Int → Nat → Int × Nat
  | c, 0 => (c, 0)
  | c, places + 1 => if c % 10 = 0 then reduceFraction (c / 10) places else (c, places + 1)

/-- The text of a decimal fraction in lowest terms: plain unless the first digit comes after six
zeros behind the point. -/
def fractionText (coefficient : Int) (places : Nat) : List Char :=
  let ds := decimal coefficient.natAbs
  let sign := if coefficient < 0 then ['-'] else []
  let top : Int := (ds.length : Int) - 1 - places
  if places = 0 then sign ++ ds
  else if -6 ≤ top then
    let ds := padLeft (places + 1) '0' ds
    sign ++ ds.take (ds.length - places) ++ '.' :: ds.drop (ds.length - places)
  else
    let body := match ds with
      | [] => []
      | [d] => [d]
      | d :: rest => d :: '.' :: rest
    sign ++ body ++ 'E' :: signedDecimal top

end HoneypotAudit.Number
