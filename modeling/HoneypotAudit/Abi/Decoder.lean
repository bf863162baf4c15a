import HoneypotAudit.Abi.Basic
import HoneypotAudit.Abi.Value

/-!
# Decoding ABI data

Values are laid out in words of 32 bytes.  A static value stands in place; of a dynamic one only the
offset of its body stands there, counted from the start of the enclosing list of members.  Before
the members of a list are read, all offsets in it are checked: a body begins behind the heads
and inside the data.

Every function takes the whole data and the position from which it reads, and gives the value and
the position behind its head.  Numbers and addresses fill a word from the right and byte strings of
a fixed size from the left; what they leave of the word has to be empty.
-/

namespace HoneypotAudit.Abi

open HoneypotAudit.Text HoneypotAudit.Number

/-! ## Faults -/

/-- The two kinds of lists of members. -/
inductive ListKind where
  | tuple
  | array
  deriving Repr, DecidableEq

/-- The name of a kind of list. -/
def ListKind.name : ListKind → String
  | .tuple => "tuple"
  | .array => "array"

/-- Why data does not hold a value. -/
inductive DataFault where
  /-- A word goes beyond the end of the data. -/
  | shortWord (got : Nat)
  /-- A byte string goes beyond the end of the data. -/
  | shortBytes (wanted got : Nat)
  /-- Bytes that have to be empty are not. -/
  | padding (bytes : Bytes)
  /-- A truth value is neither zero nor one. -/
  | notBoolean (bytes : Bytes)
  /-- An offset points into the heads or beyond the end of the data. -/
  | pointer (kind : ListKind) (location : Nat)
  /-- A text is not UTF-8. -/
  | notUtf8 (cause : Utf8.Fault)
  /-- A length is too large to be read at all. -/
  | oversized
  deriving Repr, DecidableEq

/-- The wording of a data fault. -/
def DataFault.message : DataFault → String
  | .shortWord got => "Tried to read 32 bytes, only got " ++ toString got ++ " bytes."
  | .shortBytes wanted got =>
    "Tried to read " ++ toString wanted ++ " bytes, only got " ++ toString got ++ " bytes"
  | .padding bytes => "Padding bytes were not empty: " ++ String.ofList (Quoted.ofBytes bytes)
  | .notBoolean bytes =>
    "Boolean must be either 0x0 or 0x1.  Got: " ++ String.ofList (Quoted.ofBytes bytes)
  | .pointer kind location =>
    "Invalid pointer in " ++ kind.name ++ " at location " ++ toString location ++ " in payload"
  | .notUtf8 cause => cause.message
  | .oversized => "length out of range"

/-! ## Words -/

/-- The number of bytes in a word. -/
def wordSize : Nat := 32

/-- The number that bytes spell, most significant first. -/
def natOfBytes (bs : Bytes) : Nat :=
  bs.foldl (fun n b => n * 256 + b.toNat) 0

/-- The word at a position. -/
def readWord (data : Bytes) (pos : Nat) : Except DataFault Bytes :=
  let word := (data.drop pos).take wordSize
  if word.length = wordSize then .ok word else .error (.shortWord word.length)

/-- The number in the word at a position. -/
def readNat (data : Bytes) (pos : Nat) : Except DataFault Nat :=
  (readWord data pos).map natOfBytes

/-- Bytes that have to be all the same. -/
def checkPadding (fill : UInt8) (bs : Bytes) : Except DataFault Unit :=
  if bs.all (· == fill) then .ok () else .error (.padding bs)

/-- The integer that bytes spell in two's complement. -/
def intOfBytes (bs : Bytes) : Int :=
  let n := natOfBytes bs
  if n < Nat.pow 2 (8 * bs.length - 1) then n else (n : Int) - Nat.pow 2 (8 * bs.length)

/-- The right end of a word in so many bits, and the padding before it. -/
def rightAligned (bits : Nat) (word : Bytes) : Bytes × Bytes :=
  let size := bits / 8
  (word.drop (wordSize - size), word.take (wordSize - size))

/-- An unsigned number of so many bits. -/
def readUnsigned (bits : Nat) (data : Bytes) (pos : Nat) : Except DataFault Nat := do
  let (body, padding) := rightAligned bits (← readWord data pos)
  checkPadding 0x00 padding
  .ok (natOfBytes body)

/-- A signed number of so many bits; the padding repeats the sign. -/
def readSigned (bits : Nat) (data : Bytes) (pos : Nat) : Except DataFault Int := do
  let (body, padding) := rightAligned bits (← readWord data pos)
  let n := intOfBytes body
  checkPadding (if n < 0 then 0xFF else 0x00) padding
  .ok n

/-- A truth value: the last byte of a word. -/
def readBoolean (data : Bytes) (pos : Nat) : Except DataFault Bool := do
  let (body, padding) := rightAligned 8 (← readWord data pos)
  if body = [0x00] then
    checkPadding 0x00 padding
    .ok false
  else if body = [0x01] then
    checkPadding 0x00 padding
    .ok true
  else .error (.notBoolean body)

/-- An address: the last twenty bytes of a word, in hexadecimal. -/
def readAddress (data : Bytes) (pos : Nat) : Except DataFault String := do
  let (body, padding) := rightAligned 160 (← readWord data pos)
  checkPadding 0x00 padding
  .ok (String.ofList ('0' :: 'x' :: Hex.encode body))

/-- A byte string of a fixed size: the left end of a word. -/
def readFixedBytes (size : Nat) (data : Bytes) (pos : Nat) : Except DataFault Bytes := do
  let word ← readWord data pos
  checkPadding 0x00 (word.drop size)
  .ok (word.take size)

/-! ## Byte strings -/

/-- The next multiple of the word size. -/
def roundUp (n : Nat) : Nat :=
  (n + (wordSize - 1)) / wordSize * wordSize

/-- Lengths from here on cannot be read. -/
def lengthLimit : Nat := 0x8000000000000000

/-- A byte string with its length in front, filled up to whole words. -/
def readBytes (data : Bytes) (pos : Nat) : Except DataFault Bytes := do
  let length ← readNat data pos
  let padded := roundUp length
  if lengthLimit ≤ padded then .error .oversized
  else
    let bytes := (data.drop (pos + wordSize)).take padded
    if bytes.length < padded then .error (.shortBytes padded bytes.length)
    else
      checkPadding 0x00 (bytes.drop length)
      .ok (bytes.take length)

/-- A text with its length in front. -/
def readString (data : Bytes) (pos : Nat) : Except DataFault String := do
  match Utf8.decode (← readBytes data pos) with
  | .ok cs => .ok (String.ofList cs)
  | .error cause => .error (.notUtf8 cause)

/-! ## Offsets -/

/-- Checks the offset at a head position of a list that starts at `start` and whose heads end at
`heads`. -/
def checkPointer (kind : ListKind) (data : Bytes) (start heads pos : Nat) :
    Except DataFault Unit := do
  let offset ← readNat data pos
  if start + offset < heads ∨ data.length ≤ start + offset then .error (.pointer kind pos)
  else .ok ()

/-- Checks the offsets in so many consecutive words. -/
def checkPointers (data : Bytes) (start heads : Nat) : Nat → Nat → Except DataFault Unit
  | 0, _ => .ok ()
  | n + 1, pos => do
    checkPointer .array data start heads pos
    checkPointers data start heads n (pos + wordSize)

/-! ## Lists of members -/

/-- What a reader gives: a value and the position behind its head. -/
abbrev Reader (α : Type) := Nat → Except DataFault (α × Nat)

/-- Reads a member of a list that starts at `start`: in place, or where its offset points. -/
def readMember (data : Bytes) (dynamic : Bool) (body : Reader Value) (start : Nat) :
    Reader Value := fun pos =>
  if dynamic then do
    let offset ← readNat data pos
    let (v, _) ← body (start + offset)
    .ok (v, pos + wordSize)
  else body pos

/-- Reads so many members with the same reader. -/
def readRepeated (member : Reader Value) : Nat → Reader (List Value)
  | 0, pos => .ok ([], pos)
  | n + 1, pos => do
    let (v, pos) ← member pos
    let (vs, pos) ← readRepeated member n pos
    .ok (v :: vs, pos)

/-- Reads an array of so many items: first all offsets are checked, then the items are read. -/
def readArray (data : Bytes) (dynamic : Bool) (body : Reader Value) (n : Nat) :
    Reader (List Value) := fun start => do
  if dynamic then checkPointers data start (start + wordSize * n) n start
  readRepeated (readMember data dynamic body start) n start

mutual

/-- Reads a value of a type. -/
def readValue (data : Bytes) : AbiType → Reader Value
  | .unsigned bits, pos => do .ok (.int (← readUnsigned bits data pos), pos + wordSize)
  | .signed bits, pos => do .ok (.int (← readSigned bits data pos), pos + wordSize)
  | .unsignedFixed bits places, pos => do
    let (c, p) := reduceFraction (← readUnsigned bits data pos) places
    .ok (.decimal c p, pos + wordSize)
  | .signedFixed bits places, pos => do
    let (c, p) := reduceFraction (← readSigned bits data pos) places
    .ok (.decimal c p, pos + wordSize)
  | .boolean, pos => do .ok (.bool (← readBoolean data pos), pos + wordSize)
  | .address, pos => do .ok (.text (← readAddress data pos), pos + wordSize)
  | .fixedBytes size, pos => do .ok (.bytes (← readFixedBytes size data pos), pos + wordSize)
  | .bytes, pos => do .ok (.bytes (← readBytes data pos), pos + wordSize)
  | .string, pos => do .ok (.text (← readString data pos), pos + wordSize)
  | .array item, pos => do
    let n ← readNat data pos
    let (vs, pos) ← readArray data item.isDynamic (readValue data item) n (pos + wordSize)
    .ok (.tuple vs, pos)
  | .sized item n, pos => do
    let (vs, pos) ← readArray data item.isDynamic (readValue data item) n pos
    .ok (.tuple vs, pos)
  | .tuple items, pos => do
    checkMembers data pos (pos + wordSize * AbiType.headWordsOf items) items pos
    let (vs, pos) ← readMembers data pos items pos
    .ok (.tuple vs, pos)

/-- Walks over the members of a tuple: checks the offsets of the dynamic ones and reads the static
ones. -/
def checkMembers (data : Bytes) (start heads : Nat) : List AbiType → Nat → Except DataFault Unit
  | [], _ => .ok ()
  | t :: ts, pos => do
    if t.isDynamic then
      checkPointer .tuple data start heads pos
      checkMembers data start heads ts (pos + wordSize)
    else
      let (_, pos) ← readValue data t pos
      checkMembers data start heads ts pos

/-- Reads the members of a tuple. -/
def readMembers (data : Bytes) (start : Nat) : List AbiType → Reader (List Value)
  | [], pos => .ok ([], pos)
  | t :: ts, pos => do
    let (v, pos) ← readMember data t.isDynamic (readValue data t) start pos
    let (vs, pos) ← readMembers data start ts pos
    .ok (v :: vs, pos)

end

/-- The values of a list of types, laid out as the members of a tuple.  What comes behind them is
ignored. -/
def decode (types : List AbiType) (data : Bytes) : Except DataFault (List Value) := do
  checkMembers data 0 (wordSize * AbiType.headWordsOf types) types 0
  let (vs, _) ← readMembers data 0 types 0
  .ok vs

end HoneypotAudit.Abi
