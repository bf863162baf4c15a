import HoneypotAudit.Text.Quoted
import HoneypotAudit.Text.Lines
import HoneypotAudit.Text.Digit

/-!
# The text of an ABI type

The grammar of type texts:

* a type is a tuple or a basic type;
* a tuple is a list of types between parentheses, at least one, with commas between them;
* a basic type is a base of letters, then maybe a size (`256`) or a pair of sizes (`128x18`);
* both may be followed by dimensions, `[]` or `[3]`; a number does not begin with a zero.

Reading is greedy: an optional part is taken if it is there, and nothing is taken back.  A text
that is no type is reported at a column.  If a beginning of the text is a type, that is the column
behind the beginning; else it is the furthest column at which one of the named parts of the
grammar was tried and not found.

`TypeText.parse` reads, `TypeText.text` writes.
-/

namespace HoneypotAudit.Abi

open HoneypotAudit.Text

/-! ## Trees -/

/-- The size in a basic type. -/
inductive Size where
  | one (n : Nat)
  | pair (first second : Nat)
  deriving Repr, DecidableEq

/-- A type as it is written. -/
inductive TypeText where
  | basic (base : String) (size : Option Size) (dims : List (Option Nat))
  | tuple (items : List TypeText) (dims : List (Option Nat))
  deriving Repr, Inhabited

namespace TypeText

/-- The text of a size. -/
def sizeText : Option Size → List Char
  | none => []
  | some (.one n) => decimal n
  | some (.pair a b) => decimal a ++ 'x' :: decimal b

/-- The text of a dimension. -/
def dimText : Option Nat → List Char
  | none => ['[', ']']
  | some n => '[' :: decimal n ++ [']']

mutual

/-- The text of a type. -/
def text : TypeText → List Char
  | .basic base size dims => base.toList ++ sizeText size ++ dims.flatMap dimText
  | .tuple items dims => '(' :: textOfItems items ++ ')' :: dims.flatMap dimText

/-- The texts of the items of a tuple. -/
def textOfItems : List TypeText → List Char
  | [] => []
  | [t] => text t
  | t :: ts => text t ++ ',' :: textOfItems ts

end

/-! ## Attempts -/

/-- A place in a text. -/
structure Cursor where
  position : Nat
  rest : List Char
  deriving Repr

/-- Moves a cursor over as many characters as a class takes. -/
def Cursor.skip (c : Cursor) (p : Char → Bool) : Cursor :=
  ⟨c.position + (c.rest.takeWhile p).length, c.rest.dropWhile p⟩

/-- What an attempt to find a part gives: the part and the place behind it, if it was found, and
the furthest place at which a named part was tried and not found. -/
structure Attempt (α : Type) where
  found : Option (α × Cursor)
  reach : Nat
  deriving Repr

namespace Attempt

variable {α β : Type}

/-- A part that needs nothing. -/
def succeed (a : α) (c : Cursor) : Attempt α :=
  ⟨some (a, c), 0⟩

/-- A named part that is not there. -/
def fail (c : Cursor) : Attempt α :=
  ⟨none, c.position⟩

/-- Goes on behind a part that was found. -/
def andThen (a : Attempt α) (next : α → Cursor → Attempt β) : Attempt β :=
  match a.found with
  | none => ⟨none, a.reach⟩
  | some (x, c) =>
    let b := next x c
    ⟨b.found, max a.reach b.reach⟩

/-- Names an attempt that began at a place: its failure counts there as well. -/
def named (c : Cursor) (a : Attempt α) : Attempt α :=
  match a.found with
  | none => ⟨none, max a.reach c.position⟩
  | some _ => a

/-- Tries a second part at the same place if the first one is not there. -/
def orElse (a : Attempt α) (other : Unit → Attempt α) : Attempt α :=
  match a.found with
  | some _ => a
  | none =>
    let b := other ()
    ⟨b.found, max a.reach b.reach⟩

/-- An optional part; at the end of the text it is not even tried. -/
def optional (c : Cursor) (attempt : Cursor → Attempt α) : Attempt (Option α) :=
  if c.rest.isEmpty then succeed none c
  else
    let a := attempt c
    match a.found with
    | some (x, next) => ⟨some (some x, next), a.reach⟩
    | none => ⟨some (none, c), a.reach⟩

end Attempt

/-! ## The parts of the grammar -/

/-- A number: digits of which the first is not zero. -/
def number (c : Cursor) : Attempt Nat :=
  match c.rest with
  | d :: _ =>
    if isAsciiDigit d ∧ d ≠ '0' then
      let digits := c.rest.takeWhile isAsciiDigit
      .succeed (digits.foldl (fun n d => n * 10 + (d.toNat - 0x30)) 0) (c.skip isAsciiDigit)
    else .fail c
  | [] => .fail c

/-- A single character without a name of its own: its absence is not counted. -/
def char (ch : Char) (c : Cursor) : Attempt Unit :=
  match c.rest with
  | d :: rest => if d = ch then .succeed () ⟨c.position + 1, rest⟩ else ⟨none, 0⟩
  | [] => ⟨none, 0⟩

/-- A base: one letter or more. -/
def base (c : Cursor) : Attempt String :=
  match c.rest.takeWhile isAsciiLetter with
  | [] => .fail c
  | letters => .succeed (String.ofList letters) (c.skip isAsciiLetter)

/-- A pair of sizes with an `x` between them. -/
def sizePair (c : Cursor) : Attempt Size :=
  .named c <| (number c).andThen fun a c₁ =>
    (char 'x' c₁).andThen fun _ c₂ =>
      (number c₂).andThen fun b c₃ => .succeed (.pair a b) c₃

/-- A size: a pair, or one number. -/
def size (c : Cursor) : Attempt Size :=
  .named c <| (sizePair c).orElse fun _ => (number c).andThen fun n c₁ => .succeed (.one n) c₁

/-- A dimension with a length. -/
def fixedDim (c : Cursor) : Attempt (Option Nat) :=
  .named c <| (char '[' c).andThen fun _ c₁ =>
    (number c₁).andThen fun n c₂ =>
      (char ']' c₂).andThen fun _ c₃ => .succeed (some n) c₃

/-- A dimension without a length. -/
def openDim (c : Cursor) : Attempt (Option Nat) :=
  .named c <| (char '[' c).andThen fun _ c₁ =>
    (char ']' c₁).andThen fun _ c₂ => .succeed none c₂

/-- A dimension. -/
def dim (c : Cursor) : Attempt (Option Nat) :=
  (fixedDim c).orElse fun _ => openDim c

/-- Dimensions as far as they go.  Each takes a character at least, so `fuel` may be the length of
the text. -/
def dimsFrom : Nat → Cursor → Attempt (List (Option Nat))
  | 0, c => .succeed [] c
  | fuel + 1, c =>
    (Attempt.optional c dim).andThen fun d c₁ =>
      match d with
      | none => .succeed [] c₁
      | some d => (dimsFrom fuel c₁).andThen fun ds c₂ => .succeed (d :: ds) c₂

/-- The dimensions behind a base or a tuple, maybe none. -/
def dims (c : Cursor) : Attempt (List (Option Nat)) :=
  dimsFrom c.rest.length c

/-- A basic type. -/
def basicType (c : Cursor) : Attempt TypeText :=
  .named c <| (base c).andThen fun b c₁ =>
    (Attempt.optional c₁ size).andThen fun s c₂ =>
      (dims c₂).andThen fun ds c₃ => .succeed (.basic b s ds) c₃

mutual

/-- A type.  Each level of nesting takes a parenthesis, so `fuel` may be the length of the text. -/
def typeAt : Nat → Cursor → Attempt TypeText
  | 0, c => .fail c
  | fuel + 1, c =>
    .named c <| (tupleAt fuel c).orElse fun _ => basicType c

/-- A tuple. -/
def tupleAt : Nat → Cursor → Attempt TypeText
  | 0, c => .fail c
  | fuel + 1, c =>
    .named c <| (char '(' c).andThen fun _ c₁ =>
      (typeAt fuel c₁).andThen fun t c₂ =>
        (moreTypes fuel c₂).andThen fun ts c₃ =>
          (char ')' c₃).andThen fun _ c₄ =>
            (dims c₄).andThen fun ds c₅ => .succeed (.tuple (t :: ts) ds) c₅

/-- The further types of a tuple, each behind a comma. -/
def moreTypes : Nat → Cursor → Attempt (List TypeText)
  | 0, c => .succeed [] c
  | fuel + 1, c =>
    (Attempt.optional c fun c =>
      .named c <| (char ',' c).andThen fun _ c₁ => typeAt fuel c₁).andThen fun t c₁ =>
        match t with
        | none => .succeed [] c₁
        | some t => (moreTypes fuel c₁).andThen fun ts c₂ => .succeed (t :: ts) c₂

end

/-! ## Reading -/

/-- Why a text is not the text of a type. -/
inductive ParseFault where
  /-- Tuples are nested too deep. -/
  | tooDeep
  /-- A tuple without items. -/
  | emptyTuple
  /-- No type, or more than one, up to a position of the text. -/
  | unexpected (position : Nat) (text : List Char)
  deriving Repr, DecidableEq

/-- The column of a position, counted from one and from the last line feed before it. -/
def column (position : Nat) (text : List Char) : Nat :=
  ((text.take position).reverse.takeWhile (· ≠ '\n')).length + 1

/-- The wording of a fault; five characters of the text are shown. -/
def ParseFault.message : ParseFault → String
  | .tooDeep => "the tuples of a type are nested too deep"
  | .emptyTuple => "Zero-sized tuple types \"()\" are not supported."
  | .unexpected position text =>
    "Parse error at '" ++ String.ofList ((text.drop position).take 5) ++ "' (column " ++
      toString (column position text) ++ ") in type string '" ++ String.ofList text ++ "'"

/-- A text that has parentheses with nothing between them. -/
def hasEmptyTuple : List Char → Bool
  | '(' :: ')' :: _ => true
  | _ :: cs => hasEmptyTuple cs
  | [] => false

/-- The fault of a text that is no type, with the position where reading went wrong. -/
def fault (cs : List Char) (position : Nat) : ParseFault :=
  if hasEmptyTuple cs then .emptyTuple else .unexpected position cs

/-- The most parentheses that are open at a place of a text, where `opened` are open in front. -/
def nesting (opened : Nat) : List Char → Nat
  | [] => opened
  | '(' :: cs => nesting (opened + 1) cs
  | ')' :: cs => max opened (nesting (opened - 1) cs)
  | _ :: cs => nesting opened cs

/-- The type that a text spells, if no more than `room` parentheses are open at any place.  What is
nested too deep is reported before what comes behind. -/
def parse (room : Nat) (cs : List Char) : Except ParseFault TypeText :=
  let a := typeAt (2 * cs.length + 2) ⟨0, cs⟩
  let position := (a.found.map fun (_, behind) => behind.position).getD a.reach
  if room < nesting 0 (cs.take position) then .error .tooDeep
  else
    match a.found with
    | none => .error (fault cs position)
    | some (t, behind) => if behind.rest.isEmpty then .ok t else .error (fault cs position)

/-! ## Short names -/

/-- The full form of a base that is written without its size. -/
def expand? (base : String) : Option (String × Option Size) :=
  if base = "int" then some ("int", some (.one 256))
  else if base = "uint" then some ("uint", some (.one 256))
  else if base = "fixed" then some ("fixed", some (.pair 128 18))
  else if base = "ufixed" then some ("ufixed", some (.pair 128 18))
  else if base = "function" then some ("bytes", some (.one 24))
  else if base = "byte" then some ("bytes", some (.one 1))
  else none

mutual

/-- A type with its short names in full. -/
def normalize : TypeText → TypeText
  | .basic base size dims =>
    match size, expand? base with
    | none, some (base, size) => .basic base size dims
    | _, _ => .basic base size dims
  | .tuple items dims => .tuple (normalizeItems items) dims

/-- The items of a tuple with their short names in full. -/
def normalizeItems : List TypeText → List TypeText
  | [] => []
  | t :: ts => normalize t :: normalizeItems ts

end

end TypeText

end HoneypotAudit.Abi
