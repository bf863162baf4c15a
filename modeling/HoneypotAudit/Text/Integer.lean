import HoneypotAudit.Text.Digit
import HoneypotAudit.Text.Quoted

/-!
# Integers in texts

Two grammars.  `Integer.read` takes decimal digits of any script, with an optional sign, single
underscores between digits, and blanks around the whole.  `Integer.readLiteral?` also takes the
prefixes `0x`, `0o` and `0b`, and refuses a leading zero before other digits.

Reading and writing in base ten is quadratic in the number of digits, so both stop at `maxDigits`.
-/

namespace HoneypotAudit.Text.Integer

/-! ## Blanks around a number -/

/-- The blanks that may stand around a number: all but the four information separators of ASCII. -/
def isMargin (c : Char) : Bool :=
  isBlank c && !(decide (0x1C ≤ c.toNat) && decide (c.toNat ≤ 0x1F))

/-- A text without the blanks around a number. -/
def trim (cs : List Char) : List Char :=
  trimRight isMargin (trimLeft isMargin cs)

/-! ## Digits with underscores -/

/-- The value of a digit in bases up to sixteen: decimal digits of any script and the letters `a`
to `f` in either case. -/
def hexValue? (c : Char) : Option Nat :=
  match digitValue? c with
  | some d => some d
  | none =>
    let n := c.toNat
    if 0x61 ≤ n ∧ n ≤ 0x66 then some (n - 0x61 + 10)
    else if 0x41 ≤ n ∧ n ≤ 0x46 then some (n - 0x41 + 10)
    else none

/-- The value of a digit below `base`. -/
def digitBelow? (base : Nat) (c : Char) : Option Nat :=
  (hexValue? c).filter (· < base)

/-- The values of the digits of a text in which single underscores may stand between digits.
The flag says that a digit came right before, so that an underscore may come next. -/
def groupedDigits? (base : Nat) (afterDigit : Bool) : List Char → Option (List Nat)
  | [] => if afterDigit then some [] else none
  | c :: cs =>
    if c = '_' then
      if afterDigit then groupedDigits? base false cs else none
    else
      match digitBelow? base c with
      | none => none
      | some d => (groupedDigits? base true cs).map (d :: ·)

/-- The number that digits spell, most significant first. -/
def ofDigits (base : Nat) (ds : List Nat) : Nat :=
  ds.foldl (fun n d => n * base + d) 0

/-- The sign in front of a number, true for a minus, and the rest. -/
def splitSign : List Char → Bool × List Char
  | '-' :: cs => (true, cs)
  | '+' :: cs => (false, cs)
  | cs => (false, cs)

/-- A magnitude with its sign. -/
def withSign (negative : Bool) (n : Nat) : Int :=
  if negative then -(n : Int) else n

/-! ## Base ten -/

/-- The longest run of decimal digits that is read or written. -/
def maxDigits : Nat := 4300

/-- Why a text is not read as an integer. -/
inductive Fault where
  /-- The text is not in the grammar. -/
  | malformed
  /-- The text is in the grammar, with more digits than are read. -/
  | tooLong (digits : Nat)
  deriving Repr, DecidableEq

/-- Whether an integer has so few digits that it is also written in base ten. -/
def isWritable (n : Int) : Bool :=
  decide (n.natAbs < Nat.pow 10 maxDigits)

/-- The wording of a refusal to write an integer. -/
def unwritableMessage : String :=
  "Exceeds the limit (" ++ toString maxDigits ++ " digits) for integer string " ++
    "conversion; use sys.set_int_max_str_digits() to increase the limit"

/-- An integer in base ten with an optional sign, single underscores between digits and blanks
around it. -/
def read (text : List Char) : Except Fault Int :=
  let (negative, body) := splitSign (trim text)
  match groupedDigits? 10 false body with
  | none => .error .malformed
  | some ds =>
    if maxDigits < ds.length then .error (.tooLong ds.length)
    else .ok (withSign negative (ofDigits 10 ds))

/-- The most of a refused text that messages show. -/
def maxShown : Nat := 200

/-- How messages show a refused text: its quoted form, cut where it is too long. -/
def excerpt (text : List Char) : String :=
  String.ofList ((Quoted.ofChars text).take maxShown)

/-- The refusal of a text, which messages show as `quoted`. -/
structure Refusal where
  quoted : String
  fault : Fault
  deriving Repr, DecidableEq

/-- The wording of a refusal. -/
def Refusal.message (r : Refusal) : String :=
  match r.fault with
  | .malformed => "invalid literal for int() with base 10: " ++ r.quoted
  | .tooLong digits =>
    "Exceeds the limit (" ++ toString maxDigits ++
      " digits) for integer string conversion: value has " ++ toString digits ++
      " digits; use sys.set_int_max_str_digits() to increase the limit"

/-- An integer in a text that messages show as `quoted`. -/
def readShownAs (quoted : String) (text : List Char) : Except Refusal Int :=
  match read text with
  | .ok n => .ok n
  | .error fault => .error ⟨quoted, fault⟩

/-- An integer in a text. -/
def readText (text : List Char) : Except Refusal Int :=
  readShownAs (excerpt text) text

/-! ## Literals with a base -/

/-- The base that a prefix announces, and the text behind the prefix, in which one underscore
may come first. -/
def splitBase : List Char → Option (Nat × List Char)
  | '0' :: c :: cs =>
    let base :=
      if c = 'x' ∨ c = 'X' then some 16
      else if c = 'o' ∨ c = 'O' then some 8
      else if c = 'b' ∨ c = 'B' then some 2
      else none
    base.map fun b =>
      match cs with
      | '_' :: rest => (b, rest)
      | _ => (b, cs)
  | _ => none

/-- An integer literal: a prefix chooses base sixteen, eight or two; without one the base is ten
and only zero may start with a zero. -/
def readLiteral? (text : List Char) : Option Int :=
  let (negative, body) := splitSign (trim text)
  -- the digit of any script reads like its ASCII form, also in a prefix
  let body := body.map fun c => match digitValue? c with
    | some d => digitChar d
    | none => c
  match splitBase body with
  | some (base, digits) =>
    (groupedDigits? base false digits).map fun ds => withSign negative (ofDigits base ds)
  | none =>
    match groupedDigits? 10 false body with
    | none => none
    | some ds =>
      if maxDigits < ds.length then none
      else if ds.head? = some 0 ∧ ds.any (· ≠ 0) then none
      else some (withSign negative (ofDigits 10 ds))

end HoneypotAudit.Text.Integer
