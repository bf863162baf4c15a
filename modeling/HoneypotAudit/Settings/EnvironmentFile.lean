import HoneypotAudit.Text.Blank
import HoneypotAudit.Text.Lines

/-!
# Environment files

An environment file holds lines `KEY=VALUE`, blank lines, and comments from a number sign on.  The
word `export` may stand in front of a key.  A value may stand between quotes, and then has escapes
and may go over several lines; without quotes it ends at its line or at a blank and a number sign.
A key without a value is read as such.  A line that is none of this is skipped and noted.

Values may refer to others: `${NAME}` stands for the value of a name in the environment or further
up in the file, and `${NAME:-TEXT}` for a text if there is none.
-/

namespace HoneypotAudit.Settings.EnvironmentFile

open HoneypotAudit.Text

/-- A key with its value, if it has one. -/
structure Binding where
  key : String
  value : Option String
  deriving Repr, DecidableEq

/-- What a file says: its bindings in order, and the lines at which something was skipped. -/
structure Document where
  bindings : List Binding := []
  skipped : List Nat := []
  deriving Repr, DecidableEq, Inhabited

/-! ## Pieces of a line -/

/-- A blank that does not end a line. -/
def isGap (c : Char) : Bool :=
  isBlank c && c != '\n' && c != '\r'

/-- A character that ends a line. -/
def endsLine (c : Char) : Bool :=
  c == '\n' || c == '\r'

/-- The text behind the line that comes first. -/
def afterLine : List Char → List Char
  | [] => []
  | c :: cs => if endsLine c then cs else afterLine cs

/-- The text behind the word `export` and the blanks behind it, if they come first. -/
def afterExport (cs : List Char) : List Char :=
  let behind := cs.drop 6
  if cs.take 6 = "export".toList ∧ behind.head?.any isGap then behind.dropWhile isGap else cs

/-- A character of a key without quotes. -/
def isKeyChar (c : Char) : Bool :=
  c != '=' && c != '#' && !isBlank c

/-- The key that comes first, and the text behind it.  A comment has none. -/
def readKey (cs : List Char) : Option (Option String × List Char) :=
  match cs with
  | '#' :: _ => some (none, cs)
  | '\'' :: rest =>
    match cutFirst '\'' rest with
    | (_ :: _, none) => none
    | ([], _) => none
    | (key, some behind) => some (some (String.ofList key), behind)
  | _ =>
    match cs.takeWhile isKeyChar with
    | [] => none
    | key => some (some (String.ofList key), cs.dropWhile isKeyChar)

/-! ## Values -/

/-- The text up to the quote that ends a value, and the text behind it.  A backslash takes the
character behind it along. -/
def cutQuoted (quote : Char) : List Char → Option (List Char × List Char)
  | [] => none
  | '\\' :: c :: cs => (cutQuoted quote cs).map fun (value, rest) => ('\\' :: c :: value, rest)
  | c :: cs =>
    if c = quote then some ([], cs)
    else (cutQuoted quote cs).map fun (value, rest) => (c :: value, rest)

/-- The character of an escape between double quotes. -/
def escaped? (double : Bool) (c : Char) : Option Char :=
  if c = '\\' ∨ c = '\'' then some c
  else if !double then none
  else match c with
    | '"' => some '"'
    | 'a' => some '\x07'
    | 'b' => some '\x08'
    | 'f' => some '\x0c'
    | 'n' => some '\n'
    | 'r' => some '\r'
    | 't' => some '\t'
    | 'v' => some '\x0b'
    | _ => none

/-- A text between quotes with its escapes resolved. -/
def resolveEscapes (double : Bool) : List Char → List Char
  | '\\' :: c :: cs =>
    match escaped? double c with
    | some d => d :: resolveEscapes double cs
    | none => '\\' :: resolveEscapes double (c :: cs)
  | c :: cs => c :: resolveEscapes double cs
  | [] => []
termination_by cs => cs.length

/-- The text before the first blanks that a number sign follows. -/
def beforeComment : List Char → List Char
  | [] => []
  | c :: cs =>
    if isBlank c && (cs.dropWhile isBlank).head? == some '#' then []
    else c :: beforeComment cs

/-- The value that comes first, with blanks in front, and the text behind it. -/
def readValue (cs : List Char) : Option (List Char × List Char) :=
  match cs.dropWhile isGap with
  | '\'' :: rest => (cutQuoted '\'' rest).map fun (v, rest) => (resolveEscapes false v, rest)
  | '"' :: rest => (cutQuoted '"' rest).map fun (v, rest) => (resolveEscapes true v, rest)
  | _ =>
    let part := cs.takeWhile fun c => !endsLine c
    some (strip (beforeComment part), cs.dropWhile fun c => !endsLine c)

/-- The text behind a comment, if one comes first. -/
def afterComment (cs : List Char) : List Char :=
  match cs.dropWhile isGap with
  | '#' :: rest => rest.dropWhile fun c => !endsLine c
  | _ => cs

/-- The text behind the end of a line, if only blanks are in front of it. -/
def afterEnd? (cs : List Char) : Option (List Char) :=
  match cs.dropWhile isGap with
  | [] => some []
  | c :: rest => if endsLine c then some rest else none

/-! ## Lines -/

/-- The binding at the front of a text, and the text behind its line; or, if there is none, the text
from where reading failed. -/
def readLine (cs : List Char) : Except (List Char) (Option Binding × List Char) :=
  let cs := afterExport cs
  match readKey cs with
  | none => .error cs
  | some (key, rest) =>
    let rest := rest.dropWhile isGap
    let value : Except (List Char) (Option (List Char) × List Char) :=
      match rest with
      | '=' :: rest =>
        match readValue rest with
        | some (v, rest) => .ok (some v, rest)
        | none => .error rest
      | _ => .ok (none, rest)
    match value with
    | .error rest => .error rest
    | .ok (v, rest) =>
      let rest := afterComment rest
      match afterEnd? rest with
      | none => .error rest
      | some rest => .ok (key.map fun k => ⟨k, v.map String.ofList⟩, rest)

/-- The line feeds that a text has in front of another one that it ends with. -/
def linesBetween (cs rest : List Char) : Nat :=
  (cs.take (cs.length - rest.length)).count '\n'

/-- Reads so many lines, given the number of the line that comes first. -/
def readLines : Nat → Nat → List Char → Document
  | 0, _, _ => {}
  | fuel + 1, number, cs =>
    let body := cs.dropWhile isBlank
    if body.isEmpty then {}
    else
      match readLine body with
      | .ok (binding, rest) =>
        let d := readLines fuel (number + linesBetween cs rest) rest
        { d with bindings := binding.toList ++ d.bindings }
      | .error failed =>
        let rest := afterLine failed
        let d := readLines fuel (number + linesBetween cs rest) rest
        { d with skipped := number :: d.skipped }

/-- A text without the byte order mark in front. -/
def dropMark : List Char → List Char
  | '\ufeff' :: cs => cs
  | cs => cs

/-- What a file says, whatever ends its lines.  Every line takes a character at least. -/
def read (cs : List Char) : Document :=
  let cs := unifyLineEnds (dropMark cs)
  readLines (cs.length + 1) 1 cs

/-- What is said about a skipped line. -/
def skippedNote (line : Nat) : String :=
  "python-dotenv could not parse statement starting at line " ++ toString line

/-! ## References -/

/-- A reference behind a dollar sign and a brace: its name, the text for when there is no value, and
the text behind it. -/
def reference? (cs : List Char) : Option (List Char × Option (List Char) × List Char) :=
  let isName (c : Char) : Bool := c != '\x7d' && c != ':'
  let name := cs.takeWhile isName
  match cs.dropWhile isName with
  | '\x7d' :: rest => some (name, none, rest)
  | ':' :: '-' :: rest =>
    match cutFirst '\x7d' rest with
    | (text, some behind) => some (name, some text, behind)
    | (_, none) => none
  | _ => none

/-- A value with its references resolved. -/
def resolve (lookup : String → Option String) : Nat → List Char → List Char
  | 0, cs => cs
  | _, [] => []
  | fuel + 1, c :: cs =>
    match c, cs with
    | '$', '\x7b' :: rest =>
      match reference? rest with
      | some (name, text, behind) =>
        match lookup (String.ofList name) with
        | some v => v.toList ++ resolve lookup fuel behind
        | none => text.getD [] ++ resolve lookup fuel behind
      | none => c :: resolve lookup fuel cs
    | _, _ => c :: resolve lookup fuel cs

/-- The value of a name in the sight of a reference, if it is named: by the bindings above, the last
of which counts, and else by the environment.  A binding without a value counts as empty. -/
def sighted? (environment : List (String × String)) (above : List (String × Option String))
    (name : String) : Option String :=
  match above.reverse.lookup name with
  | some v => some (v.getD "")
  | none => environment.reverse.lookup name

/-- The bindings of a file with their references resolved, each in the sight of the environment and
of the bindings above it, which count first. -/
def resolveAll (environment : List (String × String)) :
    List (String × Option String) → List Binding → List (String × Option String)
  | _, [] => []
  | above, b :: rest =>
    let v := b.value.map fun v =>
      String.ofList (resolve (sighted? environment above) v.length v.toList)
    (b.key, v) :: resolveAll environment (above ++ [(b.key, v)]) rest

end HoneypotAudit.Settings.EnvironmentFile
