/-!
# Binary floating-point numbers

The values of the 64-bit binary format as exact data: not a number, the two infinities, and the
finite values `± mantissa · 2 ^ exponent`.  Every operation is its exact result rounded to the
nearest value, ties to an even mantissa (`roundHalfEven`, `ofRatio`), so that all of it is
arithmetic of natural numbers.

A finite value that an operation gives is normal: its mantissa has 53 bits, or its exponent is the
least one, `leastExponent`.
-/

namespace HoneypotAudit.Number

/-! ## Rounding a quotient -/

/-- The natural number nearest to a quotient, ties to the even one. -/
def roundHalfEven (num den : Nat) : Nat :=
  let q := num / den
  let r := num % den
  if 2 * r < den then q
  else if den < 2 * r then q + 1
  else if q % 2 = 0 then q else q + 1

/-- Rounding is off by at most half a unit. -/
theorem roundHalfEven_cases (num den : Nat) :
    (roundHalfEven num den = num / den ∧ 2 * (num % den) ≤ den) ∨
      (roundHalfEven num den = num / den + 1 ∧ den ≤ 2 * (num % den)) := by
  unfold roundHalfEven
  dsimp only
  split
  · exact .inl ⟨rfl, by omega⟩
  · split
    · exact .inr ⟨rfl, by omega⟩
    · split
      · exact .inl ⟨rfl, by omega⟩
      · exact .inr ⟨rfl, by omega⟩

/-! ## The values -/

/-- A value of the 64-bit binary format. -/
inductive Binary64 where
  | nan
  | infinite (negative : Bool)
  | finite (negative : Bool) (mantissa : Nat) (exponent : Int)
  deriving Repr, DecidableEq, Inhabited

namespace Binary64

/-- The exponent of the values nearest to zero. -/
def leastExponent : Int := -1074

/-- The exponent of the largest finite values. -/
def greatestExponent : Int := 971

/-- Zero with a sign. -/
def zero (negative : Bool) : Binary64 :=
  .finite negative 0 leastExponent

/-- The fraction `num · base ^ power / den` as a pair of natural numbers. -/
def scaleRatio (base : Nat) (power : Int) (num den : Nat) : Nat × Nat :=
  match power with
  | .ofNat k => (num * Nat.pow base k, den)
  | .negSucc k => (num, den * Nat.pow base (k + 1))

/-- The exponent that gives a positive quotient a mantissa of 53 bits, at least the least one. -/
def exponentFor (num den : Nat) : Int :=
  let guess : Int := (num.log2 : Int) - (den.log2 : Int)
  -- the quotient is at least `2 ^ (guess - 1)` and less than `2 ^ (guess + 1)`
  let (n, d) := scaleRatio 2 (-guess) num den
  let top := if d ≤ n then guess else guess - 1
  max (top - 52) leastExponent

/-- The value nearest to a quotient. -/
def ofRatio (negative : Bool) (num den : Nat) : Binary64 :=
  if num = 0 then zero negative
  else
    let e := exponentFor num den
    let (n, d) := scaleRatio 2 (-e) num den
    let m := roundHalfEven n d
    let (m, e) := if m = Nat.pow 2 53 then (Nat.pow 2 52, e + 1) else (m, e)
    if greatestExponent < e then .infinite negative else .finite negative m e

/-- The value nearest to an integer. -/
def ofInt (n : Int) : Binary64 :=
  ofRatio (decide (n < 0)) n.natAbs 1

/-- The value nearest to `digits · 10 ^ power`.  Values far outside the range are settled without
computing the power: of the decimal digits of a number with `k` more binary digits than one there
are at least `3 * k / 10` and at most `k / 3 + 1`. -/
def ofDecimal (negative : Bool) (digits : Nat) (power : Int) : Binary64 :=
  if digits = 0 then zero negative
  else if 400 < power + (3 * digits.log2 / 10 : Nat) then .infinite negative
  else if power + (digits.log2 / 3 + 1 : Nat) < -400 then zero negative
  else
    let (n, d) := scaleRatio 10 power digits 1
    ofRatio negative n d

/-- A finite value's magnitude as a fraction. -/
def ratio (mantissa : Nat) (exponent : Int) : Nat × Nat :=
  scaleRatio 2 exponent mantissa 1

/-! ## Arithmetic -/

/-- The exact integer that a finite value is a multiple `2 ^ leastExponent` of. -/
def units (negative : Bool) (mantissa : Nat) (exponent : Int) : Int :=
  let n : Int := mantissa * Nat.pow 2 (exponent - leastExponent).toNat
  if negative then -n else n

/-- The value nearest to a difference. -/
def sub : Binary64 → Binary64 → Binary64
  | .nan, _ => .nan
  | _, .nan => .nan
  | .infinite s, .infinite t => if s = t then .nan else .infinite s
  | .infinite s, .finite .. => .infinite s
  | .finite .., .infinite t => .infinite (!t)
  | .finite s m e, .finite t k f =>
    let n := units s m e - units t k f
    if n = 0 then zero (s && !t && m == 0)
    else ofRatio (decide (n < 0)) n.natAbs (Nat.pow 2 (-leastExponent).toNat)

/-- The value nearest to a product. -/
def mul : Binary64 → Binary64 → Binary64
  | .nan, _ => .nan
  | _, .nan => .nan
  | .infinite s, .infinite t => .infinite (s != t)
  | .infinite s, .finite t m _ => if m = 0 then .nan else .infinite (s != t)
  | .finite s m _, .infinite t => if m = 0 then .nan else .infinite (s != t)
  | .finite s m e, .finite t k f =>
    let (n, d) := scaleRatio 2 (e + f) (m * k) 1
    ofRatio (s != t) n d

instance : Sub Binary64 := ⟨sub⟩

instance : Mul Binary64 := ⟨mul⟩

/-- The nearest integer, ties to the even one; nothing for a value that is not finite. -/
def round? : Binary64 → Option Int
  | .finite s m e =>
    let (n, d) := ratio m e
    let k := roundHalfEven n d
    some (if s then -(k : Int) else k)
  | _ => none

/-- The integer part; nothing for a value that is not finite. -/
def truncate? : Binary64 → Option Int
  | .finite s m e =>
    let (n, d) := ratio m e
    some (if s then -((n / d : Nat) : Int) else (n / d : Nat))
  | _ => none

/-- A value other than zero and not a number compares unequal to zero. -/
def isZero : Binary64 → Bool
  | .finite _ m _ => m == 0
  | _ => false

end Binary64

end HoneypotAudit.Number
