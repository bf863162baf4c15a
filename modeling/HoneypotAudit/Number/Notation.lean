import HoneypotAudit.Number.Decimal

/-!
# Notations of floating-point numbers

A number rounded to a precision, in one of three notations: with so many places behind the point
(`Notation.places`), with an exponent (`Notation.scientific`), or with so many significant digits in
the shorter of the two (`Notation.general`).  The exact value is rounded, ties to even.  All three
write a magnitude; the sign is left to the caller.
-/

namespace HoneypotAudit.Number.Notation

open HoneypotAudit.Text

/-- A positive quotient rounded to so many significant digits, at least one, with the power of ten
of the first digit. -/
def significant (count num den : Nat) : List Char × Int :=
  let top := leadingPower num den
  let (n, d) := Binary64.scaleRatio 10 ((count : Int) - 1 - top) num den
  let rounded := roundHalfEven n d
  -- rounding up may add a digit
  if rounded = Nat.pow 10 count then (decimal (Nat.pow 10 (count - 1)), top + 1)
  else (decimal rounded, top)

/-- The significant digits of a magnitude; zero has the power zero. -/
def digitsOf (count mantissa : Nat) (exponent : Int) : List Char × Int :=
  if mantissa = 0 then (List.replicate count '0', 0)
  else
    let (num, den) := Binary64.ratio mantissa exponent
    significant count num den

/-- Digits with a point behind so many of them.  The point stands at the end only if it is kept. -/
def pointed (keepsPoint : Bool) (whole : Nat) (ds : List Char) : List Char :=
  let places := ds.drop whole
  ds.take whole ++ (if places.isEmpty && !keepsPoint then [] else '.' :: places)

/-- An exponent with at least two digits. -/
def exponentText (power : Int) : List Char :=
  'e' :: (if power < 0 then '-' else '+') :: padLeft 2 '0' (decimal power.natAbs)

/-- A magnitude with so many places behind the point. -/
def places (keepsPoint : Bool) (count mantissa : Nat) (exponent : Int) : List Char :=
  let body := fixedFinite count false mantissa exponent
  if count = 0 && keepsPoint then body ++ ['.'] else body

/-- A magnitude with an exponent and so many places behind the point. -/
def scientific (keepsPoint : Bool) (count mantissa : Nat) (exponent : Int) : List Char :=
  let (ds, top) := digitsOf (count + 1) mantissa exponent
  pointed keepsPoint 1 ds ++ exponentText top

/-- Digits behind a point without the zeros at their end. -/
def withoutEndZeros (whole : Nat) (ds : List Char) : List Char :=
  ds.take whole ++ trimRight (· == '0') (ds.drop whole)

/-- A magnitude with so many significant digits, at least one, without the zeros at the end unless
they are kept together with the point. -/
def general (keepsZeros : Bool) (count mantissa : Nat) (exponent : Int) : List Char :=
  let count := max 1 count
  let (ds, top) := digitsOf count mantissa exponent
  let trimmed (whole : Nat) (ds : List Char) : List Char :=
    pointed keepsZeros whole (if keepsZeros then ds else withoutEndZeros whole ds)
  if top < -4 ∨ (count : Int) ≤ top then trimmed 1 ds ++ exponentText top
  else if top < 0 then trimmed 1 (List.replicate (-top).toNat '0' ++ ds)
  else trimmed (top.toNat + 1) ds

end HoneypotAudit.Number.Notation
