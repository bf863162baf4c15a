import HoneypotAudit.Text.Digit

/-!
# Pragmas

Two pragmas matter: the one that names the compiler version (`version?`), and the one that turns on
the second ABI encoder (`hasEncoder`), for which there are two spellings.  Both are looked for
in the text as it is, comments included, and the first match counts.

`ensureEncoder` adds the encoder pragma at the end of a source that has none.
-/

namespace HoneypotAudit.Solidity.Pragma

open HoneypotAudit.Text

/-! ## Matching -/

/-- The text behind a word with which a text begins. -/
def after? : List Char → List Char → Option (List Char)
  | [], cs => some cs
  | _ :: _, [] => none
  | w :: ws, c :: cs => if w = c then after? ws cs else none

/-- The text behind the blanks with which a text begins, of which there is at least one. -/
def afterBlanks? : List Char → Option (List Char)
  | [] => none
  | c :: cs => if isBlank c then some (trimLeft isBlank cs) else none

/-- The digits with which a text begins, at least one, and the text behind them. -/
def digits? (cs : List Char) : Option (List Char × List Char) :=
  match cs.takeWhile isDigit with
  | [] => none
  | ds => some (ds, cs.dropWhile isDigit)

/-- What is found at the first place of a text where there is something to be found. -/
def first? {α : Type} (found? : List Char → Option α) : List Char → Option α
  | [] => found? []
  | c :: cs =>
    match found? (c :: cs) with
    | some x => some x
    | none => first? found? cs

/-- The text behind the words with which a text begins, each of them followed by blanks. -/
def afterWords? : List String → List Char → Option (List Char)
  | [], cs => some cs
  | w :: ws, cs => do
    let cs ← after? w.toList cs
    let cs ← afterBlanks? cs
    afterWords? ws cs

/-! ## The version -/

/-- The characters of the comparison signs in front of a version. -/
def isComparison (c : Char) : Bool :=
  c == '^' || c == '~' || c == '>' || c == '=' || c == '<'

/-- A version of three numbers with which a text begins. -/
def fullVersion? (cs : List Char) : Option (List Char) := do
  let (major, cs) ← digits? cs
  let cs ← after? ['.'] cs
  let (minor, cs) ← digits? cs
  let cs ← after? ['.'] cs
  let (patch, _) ← digits? cs
  some (major ++ '.' :: minor ++ '.' :: patch)

/-- The version in a version pragma with which a text begins.  It stands behind at most one
comparison sign or run of such signs. -/
def versionHere? (cs : List Char) : Option (List Char) := do
  let cs ← afterWords? ["pragma", "solidity"] cs
  fullVersion? (trimLeft isBlank (trimLeft isComparison cs))

/-- The version that the first version pragma with a full version names first. -/
def version? (source : List Char) : Option (List Char) :=
  first? versionHere? source

/-! ## The encoder -/

/-- The pragma that turns on the second ABI encoder. -/
def encoderLine : String := "pragma experimental ABIEncoderV2;"

/-- A pragma of two words with which a text begins, up to its semicolon. -/
def pragmaHere? (kind value : String) (cs : List Char) : Option (List Char) := do
  let cs ← afterWords? ["pragma", kind] cs
  let cs ← after? value.toList cs
  after? [';'] (trimLeft isBlank cs)

/-- A pragma with which a text begins that turns on the second ABI encoder. -/
def encoderHere? (cs : List Char) : Option (List Char) :=
  pragmaHere? "experimental" "ABIEncoderV2" cs <|> pragmaHere? "abicoder" "v2" cs

/-- Whether a source has a pragma for the second ABI encoder. -/
def hasEncoder (source : List Char) : Bool :=
  (first? encoderHere? source).isSome

/-- A source with a line at its end. -/
def addLine (source : List Char) (line : String) : List Char :=
  source ++ '\n' :: line.toList ++ ['\n']

/-- The source with a pragma for the second ABI encoder, which is added if there is none. -/
def ensureEncoder (source : List Char) : List Char :=
  if hasEncoder source then source else addLine source encoderLine

end HoneypotAudit.Solidity.Pragma
