import HoneypotAudit.Json.Basic
import HoneypotAudit.Text.Hex
import HoneypotAudit.Text.Integer

/-!
# Writing JSON

Two documents are written in JSON.  A log line is one line of printable ASCII (`Json.line`): one
blank behind each comma and colon, and every other character as an escape of its UTF-16 units.
A report is indented by two blanks a level (`Json.indented`) and keeps all characters but the
controls, the quote and the backslash.

The two also differ in how floating-point numbers are laid out and in what stands for values that
are not finite; `Style` holds what differs.
-/

namespace HoneypotAudit.Json

open HoneypotAudit.Text HoneypotAudit.Number

/-! ## Texts -/

/-- The UTF-16 units of a character. -/
def utf16Units (c : Char) : List Nat :=
  let n := c.toNat
  if n < 0x10000 then [n] else [0xD800 + (n - 0x10000) / 0x400, 0xDC00 + (n - 0x10000) % 0x400]

/-- The escape of one UTF-16 unit. -/
def unitEscape (n : Nat) : List Char :=
  '\\' :: 'u' :: Hex.padded 4 n

/-- The escapes with a letter of their own. -/
def shortEscape? (c : Char) : Option Char :=
  match c with
  | '"' => some '"'
  | '\\' => some '\\'
  | '\n' => some 'n'
  | '\r' => some 'r'
  | '\t' => some 't'
  | c => if c.toNat = 0x08 then some 'b' else if c.toNat = 0x0C then some 'f' else none

/-- What a document leaves open about values. -/
structure Style where
  /-- The characters that stand for themselves in a text. -/
  keeps : Char → Bool
  /-- The layout of finite floating-point numbers. -/
  layout : Layout
  /-- The text of the value that is not a number. -/
  nan : String
  /-- The text of positive infinity. -/
  infinity : String
  /-- The text of negative infinity. -/
  negativeInfinity : String

/-- Log lines are printable ASCII and name the values that are not finite. -/
def lineStyle : Style where
  keeps c := decide (0x20 ≤ c.toNat) && decide (c.toNat ≤ 0x7E)
  layout := ⟨-4, 15, true, 2⟩
  nan := "NaN"
  infinity := "Infinity"
  negativeInfinity := "-Infinity"

/-- Reports keep all but control characters and write null for values that are not finite. -/
def reportStyle : Style where
  keeps c := decide (0x20 ≤ c.toNat)
  layout := ⟨-5, 15, true, 1⟩
  nan := "null"
  infinity := "null"
  negativeInfinity := "null"

/-- One character of a text. -/
def escapeChar (style : Style) (c : Char) : List Char :=
  match shortEscape? c with
  | some e => ['\\', e]
  | none => if style.keeps c then [c] else (utf16Units c).flatMap unitEscape

/-- One code number of a text. -/
def escapeCode (style : Style) (n : Nat) : List Char :=
  if n.isValidChar then escapeChar style (Char.ofNat n) else unitEscape n

/-- A text of code numbers between quotes. -/
def quoteCodes (style : Style) (codes : List Nat) : List Char :=
  '"' :: codes.flatMap (escapeCode style) ++ ['"']

/-- A text between quotes. -/
def quote (style : Style) (cs : List Char) : List Char :=
  '"' :: cs.flatMap (escapeChar style) ++ ['"']

/-- A floating-point number. -/
def floatText (style : Style) : Binary64 → List Char
  | .nan => style.nan.toList
  | .infinite s => if s then style.negativeInfinity.toList else style.infinity.toList
  | .finite s m e => style.layout.finite s m e

/-! ## Faults -/

/-- Why a value is not written. -/
inductive WriteFault where
  /-- An integer has more digits than are written. -/
  | longInteger
  /-- Lists and objects are nested too deep. -/
  | tooDeep
  deriving Repr, DecidableEq

mutual

/-- Why a value is not written where there is room for so many lists and objects, one inside the
other.  Of several faults the one that comes first counts. -/
def writeFault? (room : Nat) : Json → Option WriteFault
  | .int n => if Integer.isWritable n then none else some .longInteger
  | .arr items =>
    match room with
    | 0 => some .tooDeep
    | room + 1 => itemsFault? room items
  | .obj members =>
    match room with
    | 0 => some .tooDeep
    | room + 1 => membersFault? room members
  | _ => none

/-- Why the items of a list are not written. -/
def itemsFault? (room : Nat) : List Json → Option WriteFault
  | [] => none
  | v :: rest => writeFault? room v <|> itemsFault? room rest

/-- Why the members of an object are not written. -/
def membersFault? (room : Nat) : List (String × Json) → Option WriteFault
  | [] => none
  | (_, v) :: rest => writeFault? room v <|> membersFault? room rest

end

/-! ## One line -/

mutual

/-- A value on one line. -/
def lineOf (style : Style) : Json → List Char
  | .null => "null".toList
  | .bool b => if b then "true".toList else "false".toList
  | .int n => signedDecimal n
  | .float x => floatText style x
  | .str s => quote style s.toList
  | .garbled codes => quoteCodes style codes
  | .arr items => '[' :: lineOfItems style items ++ [']']
  | .obj members => '{' :: lineOfMembers style members ++ ['}']

/-- The items of a list on one line. -/
def lineOfItems (style : Style) : List Json → List Char
  | [] => []
  | [v] => lineOf style v
  | v :: rest => lineOf style v ++ ',' :: ' ' :: lineOfItems style rest

/-- The members of an object on one line. -/
def lineOfMembers (style : Style) : List (String × Json) → List Char
  | [] => []
  | [(k, v)] => quote style k.toList ++ ':' :: ' ' :: lineOf style v
  | (k, v) :: rest =>
    quote style k.toList ++ ':' :: ' ' :: lineOf style v ++ ',' :: ' ' :: lineOfMembers style rest

end

/-- A value as a log line writes it. -/
def line (v : Json) : String :=
  String.ofList (lineOf lineStyle v)

/-! ## Indented -/

/-- The blanks of a level. -/
def indentation (depth : Nat) : List Char :=
  '\n' :: List.replicate (2 * depth) ' '

mutual

/-- A value with its parts indented one level deeper than itself. -/
def indentedOf (style : Style) (depth : Nat) : Json → List Char
  | .null => "null".toList
  | .bool b => if b then "true".toList else "false".toList
  | .int n => signedDecimal n
  | .float x => floatText style x
  | .str s => quote style s.toList
  | .garbled codes => quoteCodes style codes
  | .arr [] => "[]".toList
  | .arr (v :: rest) =>
    '[' :: indentedItems style (depth + 1) (v :: rest) ++ indentation depth ++ [']']
  | .obj [] => ['{', '}']
  | .obj (m :: rest) =>
    '{' :: indentedMembers style (depth + 1) (m :: rest) ++ indentation depth ++ ['}']

/-- The items of a list, each on a line of its own. -/
def indentedItems (style : Style) (depth : Nat) : List Json → List Char
  | [] => []
  | [v] => indentation depth ++ indentedOf style depth v
  | v :: rest =>
    indentation depth ++ indentedOf style depth v ++ ',' :: indentedItems style depth rest

/-- The members of an object, each on a line of its own. -/
def indentedMembers (style : Style) (depth : Nat) : List (String × Json) → List Char
  | [] => []
  | [(k, v)] => indentation depth ++ quote style k.toList ++ ':' :: ' ' :: indentedOf style depth v
  | (k, v) :: rest =>
    indentation depth ++ quote style k.toList ++ ':' :: ' ' :: indentedOf style depth v
      ++ ',' :: indentedMembers style depth rest

end

/-- A value as a report writes it. -/
def indented (v : Json) : String :=
  String.ofList (indentedOf reportStyle 0 v)

end HoneypotAudit.Json
