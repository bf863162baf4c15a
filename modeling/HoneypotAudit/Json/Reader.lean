import HoneypotAudit.Json.Basic
import HoneypotAudit.Text.Hex
import HoneypotAudit.Text.Integer

/-!
# Reading JSON

Standard JSON, and the three names `NaN`, `Infinity` and `-Infinity`.  Blanks are the space, the
tab, the line feed and the carriage return.  A number without fraction and exponent is an integer of
any size up to `Integer.maxDigits` digits.  Control characters have to be escaped in texts.
`readWithin` limits how deep lists and objects are nested; what is too deep is reported as soon as
it is reached, whatever is wrong behind it.

Each function takes the text from where it reads and gives the rest behind what it has read.  The
functions on values count down `fuel`, and of any two counts one is paid for with a character, so
twice the length of the text is enough (`readWithin`).
-/

namespace HoneypotAudit.Json

open HoneypotAudit.Text HoneypotAudit.Number

/-- Why a text is not read as JSON. -/
inductive ReadFault where
  /-- The text is not in the grammar. -/
  | malformed
  /-- The text has an integer with more digits than are read. -/
  | oversized (digits : Nat)
  /-- Lists and objects are nested too deep. -/
  | tooDeep
  deriving Repr, DecidableEq

/-! ## Blanks and numbers -/

/-- The blanks between the tokens of JSON. -/
def isGap (c : Char) : Bool :=
  c == ' ' || c == '\t' || c == '\n' || c == '\r'

/-- The text without its leading blanks. -/
def skipGap (cs : List Char) : List Char :=
  cs.dropWhile isGap

/-- The leading ASCII digits of a text, and the rest. -/
def spanDigits (cs : List Char) : List Char × List Char :=
  (cs.takeWhile isAsciiDigit, cs.dropWhile isAsciiDigit)

/-- The number that ASCII digits spell. -/
def digitsValue (ds : List Char) : Nat :=
  Integer.ofDigits 10 (ds.map fun c => c.toNat - 0x30)

/-- The fraction behind the whole part of a number, if there is one. -/
def readFraction? : List Char → Option (List Char × List Char)
  | '.' :: cs =>
    match spanDigits cs with
    | ([], _) => none
    | (ds, rest) => some (ds, rest)
  | _ => none

/-- The exponent of a number, if there is one. -/
def readExponent? : List Char → Option (Int × List Char)
  | c :: cs =>
    if c = 'e' ∨ c = 'E' then
      let (negative, body) := Integer.splitSign cs
      match spanDigits body with
      | ([], _) => none
      | (ds, rest) => some (Integer.withSign negative (digitsValue ds), rest)
    else none
  | [] => none

/-- A number whose sign has been read. -/
def readNumber (negative : Bool) (cs : List Char) : Except ReadFault (Json × List Char) :=
  let whole : Option (List Char × List Char) :=
    match cs with
    | '0' :: rest => some (['0'], rest)
    | _ =>
      match spanDigits cs with
      | ([], _) => none
      | (ds, rest) => some (ds, rest)
  match whole with
  | none => .error .malformed
  | some (ds, rest) =>
    match readFraction? rest, readExponent? rest with
    | none, none =>
      if Integer.maxDigits < ds.length then .error (.oversized ds.length)
      else .ok (.int (Integer.withSign negative (digitsValue ds)), rest)
    | none, some (e, rest) =>
      .ok (.float (Binary64.ofDecimal negative (digitsValue ds) e), rest)
    | some (fs, rest), _ =>
      let (e, rest) := (readExponent? rest).getD (0, rest)
      .ok (.float (Binary64.ofDecimal negative (digitsValue (ds ++ fs)) (e - fs.length)), rest)

/-! ## Texts -/

/-- The value of four hexadecimal digits, and the rest. -/
def readUnit? : List Char → Option (Nat × List Char)
  | a :: b :: c :: d :: rest =>
    match Hex.value? a, Hex.value? b, Hex.value? c, Hex.value? d with
    | some a, some b, some c, some d => some (((a * 16 + b) * 16 + c) * 16 + d, rest)
    | _, _, _, _ => none
  | _ => none

/-- The second half of a pair of UTF-16 units, if it follows. -/
def readLowUnit? : List Char → Option (Nat × List Char)
  | '\\' :: 'u' :: cs =>
    match readUnit? cs with
    | some (n, rest) => if 0xDC00 ≤ n ∧ n ≤ 0xDFFF then some (n, rest) else none
    | none => none
  | _ => none

/-- The characters that are escaped by a letter, or by themselves. -/
def letterEscapes : List (Char × Char) :=
  [('"', '"'), ('\\', '\\'), ('/', '/'), ('b', '\x08'), ('f', '\x0c'), ('n', '\n'), ('r', '\r'),
    ('t', '\t')]

/-- The code number of an escape whose backslash has been read.  A pair of UTF-16 units makes one
number; half of a pair that stands alone keeps its own. -/
def readEscape : List Char → Except ReadFault (Nat × List Char)
  | 'u' :: cs =>
    match readUnit? cs with
    | none => .error .malformed
    | some (n, rest) =>
      if 0xD800 ≤ n ∧ n ≤ 0xDBFF then
        match readLowUnit? rest with
        | some (low, rest) => .ok (0x10000 + (n - 0xD800) * 0x400 + (low - 0xDC00), rest)
        | none => .ok (n, rest)
      else .ok (n, rest)
  | c :: cs =>
    match letterEscapes.lookup c with
    | some meant => .ok (meant.toNat, cs)
    | none => .error .malformed
  | [] => .error .malformed

/-- The code numbers of a text up to its closing quote. -/
def readText : Nat → List Char → Except ReadFault (List Nat × List Char)
  | 0, _ => .error .malformed
  | fuel + 1, cs =>
    match cs with
    | [] => .error .malformed
    | '"' :: rest => .ok ([], rest)
    | '\\' :: rest => do
      let (code, rest) ← readEscape rest
      let (codes, rest) ← readText fuel rest
      .ok (code :: codes, rest)
    | c :: rest =>
      if c.toNat < 0x20 then .error .malformed
      else do
        let (codes, rest) ← readText fuel rest
        .ok (c.toNat :: codes, rest)

/-- The rest behind a word, if the text starts with it. -/
def dropWord? : List Char → List Char → Option (List Char)
  | [], cs => some cs
  | w :: ws, c :: cs => if w = c then dropWord? ws cs else none
  | _ :: _, [] => none

/-- The values that are written as names. -/
def names : List (List Char × Json) :=
  [("null".toList, .null), ("true".toList, .bool true), ("false".toList, .bool false),
    ("NaN".toList, .float .nan), ("Infinity".toList, .float (.infinite false)),
    ("-Infinity".toList, .float (.infinite true))]

/-- A value that is written as a name. -/
def readName? (cs : List Char) : Option (Json × List Char) :=
  names.findSome? fun (word, value) => (dropWord? word cs).map fun rest => (value, rest)

/-! ## Values

What becomes of the names of members is up to a function of their code numbers.
-/

section Values

variable (named : List Nat → String)

mutual

/-- A value at the front of a text, with parts at most `room` deep. -/
def readValue : Nat → Nat → List Char → Except ReadFault (Json × List Char)
  | 0, _, _ => .error .malformed
  | fuel + 1, room, cs =>
    match cs, room with
    | '"' :: rest, _ => do
      let (codes, rest) ← readText (rest.length + 1) rest
      .ok (ofCodes codes, rest)
    | '[' :: _, 0 => .error .tooDeep
    | '{' :: _, 0 => .error .tooDeep
    | '[' :: rest, room + 1 =>
      match skipGap rest with
      | ']' :: rest => .ok (.arr [], rest)
      | body => do
        let (items, rest) ← readItems fuel room body
        .ok (.arr items, rest)
    | '{' :: rest, room + 1 =>
      match skipGap rest with
      | '}' :: rest => .ok (.obj [], rest)
      | body => do
        let (members, rest) ← readMembers fuel room body
        .ok (.obj (ofPairs members), rest)
    | _, _ =>
      match readName? cs with
      | some found => .ok found
      | none =>
        match cs with
        | '-' :: rest => readNumber true rest
        | _ => readNumber false cs

/-- The items of a list that has at least one, up to its closing bracket. -/
def readItems : Nat → Nat → List Char → Except ReadFault (List Json × List Char)
  | 0, _, _ => .error .malformed
  | fuel + 1, room, cs => do
    let (item, rest) ← readValue fuel room cs
    match skipGap rest with
    | ']' :: rest => .ok ([item], rest)
    | ',' :: rest => do
      let (items, rest) ← readItems fuel room (skipGap rest)
      .ok (item :: items, rest)
    | _ => .error .malformed

/-- The members of an object that has at least one, up to its closing brace. -/
def readMembers : Nat → Nat → List Char → Except ReadFault (List (String × Json) × List Char)
  | 0, _, _ => .error .malformed
  | fuel + 1, room, cs =>
    match cs with
    | '"' :: rest => do
      let (codes, rest) ← readText (rest.length + 1) rest
      match skipGap rest with
      | ':' :: rest => do
        let (value, rest) ← readValue fuel room (skipGap rest)
        match skipGap rest with
        | '}' :: rest => .ok ([(named codes, value)], rest)
        | ',' :: rest => do
          let (members, rest) ← readMembers fuel room (skipGap rest)
          .ok ((named codes, value) :: members, rest)
        | _ => .error .malformed
      | _ => .error .malformed
    | _ => .error .malformed

end

/-- The value that a text holds between blanks, with lists and objects nested at most `room`
deep. -/
def readWithin (room : Nat) (cs : List Char) : Except ReadFault Json := do
  let (value, rest) ← readValue named (2 * cs.length + 2) room (skipGap cs)
  if (skipGap rest).isEmpty then .ok value else .error .malformed

end Values

/-- The value that a text holds between blanks, where names are texts.  No text nests deeper than it
is long. -/
def read (cs : List Char) : Except ReadFault Json :=
  readWithin textOfCodes cs.length cs

end HoneypotAudit.Json
