import HoneypotAudit.Json.Shown
import HoneypotAudit.Number.Notation
import HoneypotAudit.Text.Integer

/-!
# Message templates

A template is a text with marks that arguments take the place of.  A mark starts with a percent sign
and ends with the letter of a conversion; between them it may name a member of the arguments in
parentheses, and may have flags, a width, a precision and a length letter that says nothing.  Two
percent signs stand for one.

A template is taken apart into pieces first (`piecesOf`), where a mark that breaks off is a piece
too; the pieces are then filled from left to right (`fill`), so that of two faults the left one
counts.
-/

namespace HoneypotAudit.Log.Template

open HoneypotAudit.Text HoneypotAudit.Number

/-! ## Faults -/

/-- Why a template is not filled. -/
inductive Fault where
  /-- The arguments are too few or too many, or of a kind that a mark does not take. -/
  | unsuited
  /-- The arguments have no member of a name. -/
  | noMember (name : String)
  /-- A number is beyond all that its place can hold. -/
  | outOfRange
  /-- A value that is no number has no integer part. -/
  | notNumber
  /-- The name of a member has no closing parenthesis. -/
  | openName
  /-- The template ends within a mark. -/
  | openMark
  | wideWidth
  | widePrecision
  /-- An integer has more digits than are written. -/
  | longInteger
  /-- A value is nested too deep to be written. -/
  | tooDeep
  /-- There is no such conversion; the index is that of its letter in the template. -/
  | unknownConversion (letter : Char) (index : Nat)
  deriving Repr, DecidableEq

/-- The wording of a fault. -/
def Fault.message : Fault → String
  | .unsuited => "the arguments do not fit the template"
  | .noMember name => name
  | .outOfRange => "a number is out of range"
  | .notNumber => "cannot convert float NaN to integer"
  | .openName => "incomplete format key"
  | .openMark => "incomplete format"
  | .wideWidth => "width too big"
  | .widePrecision => "precision too big"
  | .longInteger => Integer.unwritableMessage
  | .tooDeep => "a value is nested too deep"
  | .unknownConversion letter index =>
    let shown := if 31 ≤ letter.toNat ∧ letter.toNat ≤ 126 then letter else '?'
    "unsupported format character '" ++ String.ofList [shown] ++ "' (0x" ++
      String.ofList (Hex.ofNat letter.toNat) ++ ") at index " ++ toString index

/-! ## Pieces -/

/-- A width or a precision. -/
inductive Amount where
  | absent
  | fixed (n : Nat)
  /-- An argument says it. -/
  | given
  deriving Repr, DecidableEq

/-- The flags of a mark. -/
structure Flags where
  left : Bool := false
  plus : Bool := false
  blank : Bool := false
  alternate : Bool := false
  zeros : Bool := false
  deriving Repr, DecidableEq

/-- A mark.  The conversion has the index of its letter, and is not there if the template ends. -/
structure Mark where
  name : Option String := none
  flags : Flags := {}
  width : Amount := .absent
  precision : Amount := .absent
  conversion : Option (Char × Nat) := none
  deriving Repr, DecidableEq

/-- A piece of a template. -/
inductive Piece where
  | literal (c : Char)
  | mark (m : Mark)
  /-- A mark that breaks off within a name. -/
  | openName
  deriving Repr, DecidableEq

/-- A flag added to flags, if a character is one. -/
def Flags.add? (f : Flags) (c : Char) : Option Flags :=
  match c with
  | '-' => some { f with left := true }
  | '+' => some { f with plus := true }
  | ' ' => some { f with blank := true }
  | '#' => some { f with alternate := true }
  | '0' => some { f with zeros := true }
  | _ => none

/-- The flags that come first, and the text behind them. -/
def readFlags (f : Flags) : List Char → Flags × List Char
  | [] => (f, [])
  | c :: cs =>
    match f.add? c with
    | some f => readFlags f cs
    | none => (f, c :: cs)

/-- The name in front of the parenthesis that closes it, and the text behind.  Parentheses within a
name come in pairs. -/
def readName? (depth : Nat) : List Char → Option (List Char × List Char)
  | [] => none
  | c :: cs =>
    if c = ')' then
      match depth with
      | 0 => some ([], cs)
      | depth + 1 => (readName? depth cs).map fun (name, rest) => (c :: name, rest)
    else if c = '(' then (readName? (depth + 1) cs).map fun (name, rest) => (c :: name, rest)
    else (readName? depth cs).map fun (name, rest) => (c :: name, rest)

/-- The amount that comes first, and the text behind it; without digits it is a default. -/
def readAmount (default : Amount) (cs : List Char) : Amount × List Char :=
  match cs with
  | '*' :: rest => (.given, rest)
  | _ =>
    match cs.takeWhile isAsciiDigit with
    | [] => (default, cs)
    | ds =>
      (.fixed (Integer.ofDigits 10 (ds.map fun c => c.toNat - 0x30)), cs.dropWhile isAsciiDigit)

/-- The precision that comes first, and the text behind it. -/
def readPrecision (cs : List Char) : Amount × List Char :=
  match cs with
  | '.' :: rest => readAmount (.fixed 0) rest
  | _ => (.absent, cs)

/-- The text behind a length letter. -/
def dropLength (cs : List Char) : List Char :=
  match cs with
  | c :: rest => if c = 'h' ∨ c = 'l' ∨ c = 'L' then rest else cs
  | [] => []

/-- The mark at the front of a text, behind its percent sign and its name, and the text behind.
The template has `total` characters. -/
def readMark (total : Nat) (name : Option String) (cs : List Char) : Piece × List Char :=
  let (flags, cs) := readFlags {} cs
  let (width, cs) := readAmount .absent cs
  let (precision, cs) := readPrecision cs
  match dropLength cs with
  | [] => (.mark { name, flags, width, precision }, [])
  | c :: rest =>
    (.mark { name, flags, width, precision, conversion := some (c, total - (rest.length + 1)) },
      rest)

/-- The piece at the front of a text behind a percent sign, and the text behind. -/
def readPiece (total : Nat) (cs : List Char) : Piece × List Char :=
  match cs with
  | '%' :: rest => (.literal '%', rest)
  | '(' :: rest =>
    match readName? 0 rest with
    | some (name, rest) => readMark total (some (String.ofList name)) rest
    | none => (.openName, [])
  | _ => readMark total none cs

/-- The pieces of a text; every piece takes a character at least. -/
def readPieces (total : Nat) : Nat → List Char → List Piece
  | 0, _ => []
  | _, [] => []
  | fuel + 1, c :: cs =>
    if c = '%' then
      let (piece, rest) := readPiece total cs
      piece :: readPieces total fuel rest
    else .literal c :: readPieces total fuel cs

/-- The pieces of a template. -/
def piecesOf (cs : List Char) : List Piece :=
  readPieces cs.length cs.length cs

/-! ## Arguments -/

/-- The arguments of a template. -/
inductive Arguments where
  /-- Values that marks take one after another. -/
  | listed (vs : List Json)
  /-- One value, whose members marks may name. -/
  | single (v : Json)
  deriving Repr

/-- What is left of the arguments. -/
structure Supply where
  /-- The value whose members marks may name. -/
  named : Option Json := none
  /-- The values to take. -/
  values : List Json
  deriving Repr

/-- The supply at the start.  The members of a list or an object may be named. -/
def Arguments.supply : Arguments → Supply
  | .listed vs => { values := vs }
  | .single v =>
    match v with
    | .arr _ | .obj _ => { named := some v, values := [v] }
    | v => { values := [v] }

/-- Takes the next value. -/
def Supply.next (s : Supply) : Except Fault (Json × Supply) :=
  match s.values with
  | [] => .error .unsuited
  | v :: rest => .ok (v, { s with values := rest })

/-- Makes the member of a name the only value to take. -/
def Supply.pick (s : Supply) (name : String) : Except Fault Supply :=
  match s.named with
  | some (.obj ms) =>
    match Json.find? name ms with
    | some v => .ok { s with values := [v] }
    | none => .error (.noMember name)
  | _ => .error .unsuited

/-- An integer among the values, where truth values count as one and zero. -/
def integer? : Json → Option Int
  | .int n => some n
  | .bool b => some (if b then 1 else 0)
  | _ => none

/-- The greatest width. -/
def maxWidth : Int := 0x7FFFFFFFFFFFFFFF

/-- The greatest precision. -/
def maxPrecision : Int := 0x7FFFFFFF

/-- The value of an amount, which may be below zero if an argument says it. -/
def Supply.amount (s : Supply) (bound : Int) (tooWide : Fault) :
    Amount → Except Fault (Option Int × Supply)
  | .absent => .ok (none, s)
  | .fixed n => if bound < n then .error tooWide else .ok (some n, s)
  | .given => do
    let (v, s) ← s.next
    match integer? v with
    | none => .error .unsuited
    | some n =>
      if bound < n ∨ n < -bound - 1 then .error .outOfRange else .ok (some n, s)

/-! ## Conversions -/

/-- What a conversion makes of a value: a number has a sign and perhaps a base in front of its
body. -/
structure Converted where
  isNumber : Bool := false
  isNegative : Bool := false
  base : List Char := []
  body : List Char

/-- A conversion with its amounts as numbers. -/
structure Form where
  flags : Flags := {}
  width : Nat := 0
  precision : Option Nat := none

/-- Lays out what a conversion has made: filled up to the width with zeros behind sign and base, or
with blanks on one side. -/
def Form.lay (f : Form) (x : Converted) : List Char :=
  let sign :=
    if !x.isNumber then []
    else if x.isNegative then ['-']
    else if f.flags.plus then ['+']
    else if f.flags.blank then [' ']
    else []
  let missing := f.width - (sign.length + x.base.length + x.body.length)
  if f.flags.left then sign ++ x.base ++ x.body ++ List.replicate missing ' '
  else if f.flags.zeros && x.isNumber then sign ++ x.base ++ List.replicate missing '0' ++ x.body
  else List.replicate missing ' ' ++ sign ++ x.base ++ x.body

/-- A text, cut to the precision. -/
def Form.text (f : Form) (cs : List Char) : Converted :=
  { body := f.precision.elim cs fun n => cs.take n }

/-- An integer in digits of which there are at least as many as the precision says. -/
def Form.integer (f : Form) (base : List Char) (digits : Nat → List Char) (n : Int) :
    Converted where
  isNumber := true
  isNegative := decide (n < 0)
  base := if f.flags.alternate then base else []
  body := padLeft (f.precision.getD 0) '0' (digits n.natAbs)

/-- The digits of a number in base eight. -/
def octal (n : Nat) : List Char :=
  if n < 8 then [digitChar n] else octal (n / 8) ++ [digitChar (n % 8)]
termination_by n

/-- The integer part of a number. -/
def integerPart : Json → Except Fault Int
  | .float x =>
    match x with
    | .nan => .error .notNumber
    | .infinite _ => .error .outOfRange
    | x => .ok (x.truncate?.getD 0)
  | v => match integer? v with
    | some n => .ok n
    | none => .error .unsuited

/-- A value that has to be an integer. -/
def wholeNumber (v : Json) : Except Fault Int :=
  match integer? v with
  | some n => .ok n
  | none => .error .unsuited

/-- A number as a floating-point number. -/
def floatOf : Json → Except Fault Binary64
  | .float x => .ok x
  | v => do
    match Binary64.ofInt (← wholeNumber v) with
    | .infinite _ => .error .outOfRange
    | x => .ok x

/-- The places or digits of a floating-point number where no precision is given. -/
def usualPrecision : Nat := 6

/-- A floating-point number in a notation for magnitudes. -/
def Form.float (f : Form) (write : Bool → Nat → Nat → Int → List Char) (x : Binary64) : Converted :=
  match x with
  | .nan => { isNumber := true, body := "nan".toList }
  | .infinite s => { isNumber := true, isNegative := s, body := "inf".toList }
  | .finite s m e =>
    { isNumber := true
      isNegative := s
      body := write f.flags.alternate (f.precision.getD usualPrecision) m e }

/-- In upper case. -/
def Converted.upper (x : Converted) : Converted :=
  { x with base := x.base.map Char.toUpper, body := x.body.map Char.toUpper }

/-- The number of code points. -/
def codePoints : Int := 0x110000

/-- The character that a value stands for: one by itself, or one by its number. -/
def characterOf : Json → Except Fault Char
  | .str s =>
    match s.toList with
    | [c] => .ok c
    | _ => .error .unsuited
  | v => do
    let n ← wholeNumber v
    if 0 ≤ n ∧ n < codePoints then .ok (Char.ofNat n.toNat) else .error .outOfRange

/-- The fault of a template in which a value is not written. -/
def Fault.ofWrite : Json.WriteFault → Fault
  | .longInteger => .longInteger
  | .tooDeep => .tooDeep

/-- The text of a value that takes the place of a mark. -/
def written (room : Nat) (text : Json → List Char) (v : Json) : Except Fault (List Char) :=
  match v.writeFault? room with
  | none => .ok (text v)
  | some cause => .error (.ofWrite cause)

/-- An integer that is written in base ten. -/
def writtenNumber (n : Int) : Except Fault Int :=
  if Integer.isWritable n then .ok n else .error .longInteger

/-- A value as messages show it, in ASCII alone. -/
def asciiOf (v : Json) : List Char :=
  v.shown.toList.flatMap fun c => if c.toNat < 0x80 then [c] else Quoted.numberEscape c.toNat

/-- What a conversion makes of a value. -/
def Form.convert (room : Nat) (f : Form) (letter : Char) (index : Nat) (v : Json) :
    Except Fault Converted :=
  match letter with
  | 's' => (written room (·.plain.toList) v).map f.text
  | 'r' => (written room (·.shown.toList) v).map f.text
  | 'a' => (written room asciiOf v).map f.text
  | 'd' => (integerPart v >>= writtenNumber).map (f.integer [] decimal)
  | 'i' => (integerPart v >>= writtenNumber).map (f.integer [] decimal)
  | 'u' => (integerPart v >>= writtenNumber).map (f.integer [] decimal)
  | 'o' => (wholeNumber v).map (f.integer ['0', 'o'] octal)
  | 'x' => (wholeNumber v).map (f.integer ['0', 'x'] Hex.ofNat)
  | 'X' => (wholeNumber v).map fun n => (f.integer ['0', 'x'] Hex.ofNat n).upper
  | 'e' => (floatOf v).map (f.float Notation.scientific)
  | 'E' => (floatOf v).map fun x => (f.float Notation.scientific x).upper
  | 'f' => (floatOf v).map (f.float Notation.places)
  | 'F' => (floatOf v).map fun x => (f.float Notation.places x).upper
  | 'g' => (floatOf v).map (f.float Notation.general)
  | 'G' => (floatOf v).map fun x => (f.float Notation.general x).upper
  | 'c' => (characterOf v).map fun c => { body := [c] }
  | letter => .error (.unknownConversion letter index)

/-! ## Filling -/

/-- The form of a mark with its amounts.  A width below zero fills on the other side, and a
precision below zero counts as zero. -/
def formOf (flags : Flags) (width precision : Option Int) : Form where
  flags := { flags with left := flags.left || width.any (· < 0) }
  width := (width.getD 0).natAbs
  precision := precision.map Int.toNat

/-- Fills a mark. -/
def Supply.fillMark (room : Nat) (s : Supply) (m : Mark) : Except Fault (List Char × Supply) := do
  let s ← match m.name with
    | some name => s.pick name
    | none => .ok s
  let (width, s) ← s.amount maxWidth .wideWidth m.width
  let (precision, s) ← s.amount maxPrecision .widePrecision m.precision
  match m.conversion with
  | none => .error .openMark
  | some (letter, index) => do
    let (v, s) ← s.next
    let f := formOf m.flags width precision
    let converted ← f.convert room letter index v
    .ok (f.lay converted, s)

/-- Fills pieces from left to right.  Values that marks could take one after another have to be
taken, all of them. -/
def Supply.fill (room : Nat) (s : Supply) : List Piece → Except Fault (List Char)
  | [] => if s.named.isNone && !s.values.isEmpty then .error .unsuited else .ok []
  | .literal c :: rest => (s.fill room rest).map (c :: ·)
  | .openName :: _ => if s.named.isNone then .error .unsuited else .error .openName
  | .mark m :: rest => do
    let (cs, s) ← s.fillMark room m
    (s.fill room rest).map (cs ++ ·)

/-- A template with its marks replaced by arguments, where at most `room` lists and objects of a
value may be inside one another. -/
def fill (room : Nat) (template : List Char) (arguments : Arguments) : Except Fault (List Char) :=
  arguments.supply.fill room (piecesOf template)

end HoneypotAudit.Log.Template
