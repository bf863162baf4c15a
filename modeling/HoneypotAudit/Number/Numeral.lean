import HoneypotAudit.Number.Binary64
import HoneypotAudit.Text.Integer
import HoneypotAudit.Text.Lines

/-!
# Numerals in fields

The numbers that a field may hold as a text.  The strict form of an integer is `readStrict`: a minus
sign at most, and digits without a leading zero.  `readInteger` allows for more: blanks around it, a
plus sign, leading zeros, underscores between digits, and zeros behind a point.  A floating-point
number is read by `readFloat?`, and again without its underscores if that fails.
-/

namespace HoneypotAudit.Number.Numeral

open HoneypotAudit.Text

/-! ## Underscores -/

/-- Whether two underscores follow each other. -/
def hasDoubled : List Char → Bool
  | '_' :: '_' :: _ => true
  | _ :: cs => hasDoubled cs
  | [] => false

/-- A text without its underscores, if it has any and each stands alone between other characters. -/
def withoutUnderscores? (cs : List Char) : Option (List Char) :=
  if !cs.contains '_' || cs.head? == some '_' || cs.getLast? == some '_' || hasDoubled cs then none
  else some (cs.filter (· != '_'))

/-! ## Integers -/

/-- The longest strict form that is read, with its sign. -/
def maxLength : Nat := Integer.maxDigits

/-- An integer in strict form.  Digits that are too many are reported whatever follows them. -/
def readStrict (cs : List Char) : Except Integer.Fault Int :=
  let (negative, body) := match cs with
    | '-' :: rest => (true, rest)
    | _ => (false, cs)
  let ds := body.takeWhile isAsciiDigit
  match ds with
  | [] => .error .malformed
  | '0' :: _ => if body = ['0'] then .ok 0 else .error .malformed
  | _ =>
    if maxLength < ds.length + (if negative then 1 else 0) then .error (.tooLong ds.length)
    else if ds.length = body.length then
      .ok (Integer.withSign negative (Integer.ofDigits 10 (ds.map fun c => c.toNat - 0x30)))
    else .error .malformed

/-- A text from behind its leading zeros on, where underscores count as zeros too.  The last zero
stays where nothing or a point follows. -/
def afterZeros? (last : Char) : List Char → Option (List Char)
  | [] => some [last]
  | c :: cs =>
    if c = '0' ∨ c = '_' then afterZeros? c cs
    else if isAsciiDigit c ∨ c = '-' then some (c :: cs)
    else if c = '.' then some (last :: c :: cs)
    else none

/-- A text without its leading zeros; it has to start with a digit or a minus sign. -/
def dropZeros? : List Char → Option (List Char)
  | [] => none
  | c :: cs =>
    if c = '0' then afterZeros? c cs
    else if isAsciiDigit c ∨ c = '-' then some (c :: cs)
    else none

/-- A text without a plus sign in front. -/
def dropPlus : List Char → List Char
  | '+' :: c :: cs => if c = '-' then '+' :: c :: cs else c :: cs
  | cs => cs

/-- A text without a point and the zeros behind it; there has to be a zero at least. -/
def dropFraction (cs : List Char) : List Char :=
  match cutFirst '.' cs with
  | (whole, some (z :: zs)) => if (z :: zs).all (· == '0') then whole else cs
  | _ => cs

/-- The strict form of an integer that allows for more. -/
def simplify? (cs : List Char) : Option (List Char) :=
  (dropZeros? (dropPlus cs)).map fun cs =>
    let cs := dropFraction cs
    (withoutUnderscores? cs).getD cs

/-- An integer in a field. -/
def readInteger (text : List Char) : Except Integer.Fault Int :=
  let cs := Integer.trim text
  match readStrict cs with
  | .error .malformed =>
    match simplify? cs with
    | some cs => readStrict cs
    | none => .error .malformed
  | result => result

/-! ## Floating-point numbers -/

/-- The digits of a text that holds nothing else. -/
def plainDigits? (cs : List Char) : Option (List Nat) :=
  if cs.all isAsciiDigit then some (cs.map fun c => c.toNat - 0x30) else none

/-- An exponent: digits with a sign at most. -/
def readExponent? (cs : List Char) : Option Int :=
  let (negative, body) := Integer.splitSign cs
  match plainDigits? body with
  | none | some [] => none
  | some ds => some (Integer.withSign negative (Integer.ofDigits 10 ds))

/-- A number: digits with a point anywhere among them and perhaps an exponent, or the name of a
value that is not finite. -/
def readPlain? (cs : List Char) : Option Binary64 :=
  let (negative, body) := Integer.splitSign cs
  let body := body.map Char.toLower
  if body = "inf".toList ∨ body = "infinity".toList then some (.infinite negative)
  else if body = "nan".toList then some .nan
  else
    let (mantissa, exponent) := cutFirst 'e' body
    let (whole, fraction) := cutFirst '.' mantissa
    match plainDigits? whole, plainDigits? (fraction.getD []), exponent.map readExponent? with
    | some ws, some fs, none => ofParts negative ws fs 0
    | some ws, some fs, some (some e) => ofParts negative ws fs e
    | _, _, _ => none
where
  /-- The number of digits before and behind the point and an exponent. -/
  ofParts (negative : Bool) (ws fs : List Nat) (e : Int) : Option Binary64 :=
    let ds := ws ++ fs
    if ds.isEmpty then none
    else some (.ofDecimal negative (Integer.ofDigits 10 ds) (e - fs.length))

/-- A floating-point number in a field: blanks may stand around it, or underscores within it. -/
def readFloat? (text : List Char) : Option Binary64 :=
  match readPlain? (Integer.trim text) with
  | some x => some x
  | none => (withoutUnderscores? text).bind readPlain?

end HoneypotAudit.Number.Numeral
