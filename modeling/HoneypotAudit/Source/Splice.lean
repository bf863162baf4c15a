import HoneypotAudit.Source.Position
import HoneypotAudit.Text.Digit

/-!
# Inserting text

`splice` inserts text at a position and leaves all else as it is.  A position may stand behind the
last character of a line, but not on a line that is not there or beyond the end of its line.
-/

namespace HoneypotAudit.Source

open HoneypotAudit.Text

/-- A position that is not in a source. -/
structure OutsideFault where
  position : Position
  deriving Repr, DecidableEq

/-- The wording of the fault. -/
def OutsideFault.message (f : OutsideFault) : String :=
  "Injection point " ++ String.ofList (signedDecimal f.position.line) ++ ":" ++
    String.ofList (signedDecimal f.position.column) ++ " is outside the source"

/-- Inserts a text into a line at a column. -/
def insertAt (column : Nat) (code line : List Char) : List Char :=
  line.take column ++ code ++ line.drop column

/-- Inserts a text into the line with an index at a column, if they are there. -/
def insertInLine? (code : List Char) (column : Nat) :
    Nat → List (List Char) → Option (List (List Char))
  | _, [] => none
  | 0, line :: rest =>
    if column ≤ line.length then some (insertAt column code line :: rest) else none
  | index + 1, line :: rest => (insertInLine? code column index rest).map (line :: ·)

/-- The source with a text inserted before a position. -/
def splice (source : List Char) (position : Position) (code : List Char) :
    Except OutsideFault (List Char) :=
  if position.line < 1 ∨ position.column < 0 then .error ⟨position⟩
  else
    match insertInLine? code position.column.toNat (position.line.toNat - 1)
        (splitOn '\n' source) with
    | some lines => .ok (joinWith ['\n'] lines)
    | none => .error ⟨position⟩

end HoneypotAudit.Source
