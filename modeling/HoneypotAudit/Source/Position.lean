import HoneypotAudit.Text.Integer
import HoneypotAudit.Text.Lines
import HoneypotAudit.Text.Utf8

/-!
# Positions in source texts

A compiler says where a declaration stands by byte offsets into the UTF-8 form of the source; text
is edited by lines and columns.  Lines count from one and columns, in characters, from zero.

* `Position.ofOffset` turns an offset into a position.  An offset outside the text counts as its
  nearer end, and one inside a character as the place behind that character.
* `Location.read` reads the text `offset:length:file` of a declaration.  Its `last` is the position
  of the last character of the declaration, which for a block is the closing brace.
-/

namespace HoneypotAudit.Source

open HoneypotAudit.Text

/-! ## Positions -/

/-- A line and a column. -/
structure Position where
  line : Int := 0
  column : Int := 0
  deriving Repr, DecidableEq, Inhabited

/-- The line feed, which alone ends a line of a source text. -/
def lineFeed : UInt8 := 0x0A

/-- An offset brought into the range of a text of so many bytes. -/
def clamp (offset : Int) (size : Nat) : Nat :=
  min offset.toNat size

/-- The bytes behind the last line feed. -/
def lastLine (bs : Bytes) : Bytes :=
  (bs.reverse.takeWhile (· ≠ lineFeed)).reverse

/-- The position behind some bytes.  A character of which only a part is there counts as one. -/
def Position.behind (bs : Bytes) : Position :=
  ⟨bs.count lineFeed + 1, (Utf8.decodeLossy (lastLine bs)).length⟩

/-- The position of a byte offset. -/
def Position.ofOffset (data : Bytes) (offset : Int) : Position :=
  .behind (data.take (clamp offset data.length))

/-! ## Locations -/

/-- Where a declaration stands.  All is zero if that is not known. -/
structure Location where
  offset : Int := 0
  length : Int := 0
  file : Int := 0
  first : Position := {}
  last : Position := {}
  deriving Repr, DecidableEq, Inhabited

/-- The location of so many bytes from an offset on; without the source it has no positions. -/
def Location.ofSpan (data : Option Bytes) (offset length file : Int) : Location :=
  match data with
  | none => { offset, length, file }
  | some bs =>
    { offset, length, file,
      first := .ofOffset bs offset
      last := .ofOffset bs (offset + max (length - 1) 0) }

/-- The location that a text `offset:length:file` describes.  What follows the third number does not
matter, and a text with fewer than three parts describes none. -/
def Location.read (data : Option Bytes) (text : List Char) : Except Integer.Refusal Location :=
  match splitOn ':' text with
  | offset :: length :: file :: _ => do
    let offset ← Integer.readText offset
    let length ← Integer.readText length
    let file ← Integer.readText file
    .ok (.ofSpan data offset length file)
  | _ => .ok {}

end HoneypotAudit.Source
