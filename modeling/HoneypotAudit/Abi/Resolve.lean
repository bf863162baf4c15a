import HoneypotAudit.Abi.Basic
import HoneypotAudit.Abi.TypeText
import HoneypotAudit.Rooms

/-!
# From type texts to types

`resolve` gives the ABI type that a text stands for.  The sizes of a whole type are checked before
its items are looked at (`TypeText.check`); a base is looked up last (`leaf`).
-/

namespace HoneypotAudit.Abi

open HoneypotAudit.Text

/-! ## Faults -/

/-- Why the size of a basic type does not suit its base. -/
inductive SizeFault where
  | stringSize
  | bytesPair
  | bytesTooLong
  | integerNoSize
  | integerBounds
  | integerMultiple
  | fixedNoPair
  | fixedBounds
  | fixedMultiple
  | fixedPlaces (places : Nat)
  | hashNoSize
  | addressSize
  deriving Repr, DecidableEq

/-- The wording of a size fault. -/
def SizeFault.message : SizeFault → String
  | .stringSize => "string type cannot have suffix"
  | .bytesPair => "bytes type must have either no suffix or a numerical suffix"
  | .bytesTooLong => "maximum 32 bytes for fixed-length bytes"
  | .integerNoSize => "integer type must have numerical suffix"
  | .integerBounds => "integer size out of bounds (max 256 bits)"
  | .integerMultiple => "integer size must be multiple of 8"
  | .fixedNoPair => "fixed type must have suffix of form <bits>x<exponent>, e.g. 128x19"
  | .fixedBounds => "fixed size out of bounds (max 256 bits)"
  | .fixedMultiple => "fixed size must be multiple of 8"
  | .fixedPlaces places =>
    "fixed exponent size out of bounds, " ++ toString places ++ " must be in 1-80"
  | .hashNoSize => "hash type must have numerical suffix"
  | .addressSize => "address cannot have suffix"

/-- Why a text does not stand for a type. -/
inductive TypeFault where
  /-- The text is not in the grammar. -/
  | unparsable (cause : TypeText.ParseFault)
  /-- No type has such a base. -/
  | unknown (text : String)
  /-- A part of a type, at an offset of the whole, has a size that does not suit its base. -/
  | inconsistent (part : String) (offset : Nat) (whole : String) (cause : SizeFault)
  /-- A function type with a size. -/
  | sizedFunction (text : String)
  /-- Arrays and tuples are nested too deep. -/
  | tooDeep
  deriving Repr, DecidableEq

/-- The wording of a type fault. -/
def TypeFault.message : TypeFault → String
  | .unparsable cause => cause.message
  | .unknown text => "No matching entries for '" ++ text ++ "' in decoder registry"
  | .inconsistent part offset whole cause =>
    "For '" ++ part ++ "' type at column " ++ toString (offset + 1) ++ " in '" ++ whole ++ "': " ++
      cause.message
  | .sizedFunction text =>
    "Cannot create BytesDecoder for type " ++ Quoted.ofString text ++
      ": expected type with base 'bytes'"
  | .tooDeep => "the parts of a type are nested too deep"

/-- Whether a fault is that of a type that is nested too deep. -/
def TypeFault.isTooDeep : TypeFault → Bool
  | .unparsable .tooDeep => true
  | .tooDeep => true
  | _ => false

/-! ## Sizes -/

/-- The size of an integer type. -/
def checkInteger : Option Size → Option SizeFault
  | some (.one n) =>
    if n < 8 ∨ 256 < n then some .integerBounds
    else if n % 8 ≠ 0 then some .integerMultiple
    else none
  | _ => some .integerNoSize

/-- The sizes of a fixed-point type. -/
def checkFixed : Option Size → Option SizeFault
  | some (.pair bits places) =>
    if bits < 8 ∨ 256 < bits then some .fixedBounds
    else if bits % 8 ≠ 0 then some .fixedMultiple
    else if places < 1 ∨ 80 < places then some (.fixedPlaces places)
    else none
  | _ => some .fixedNoPair

/-- Whether a size suits a base; other bases take any size. -/
def checkSize (base : String) (size : Option Size) : Option SizeFault :=
  if base = "string" then if size.isSome then some .stringSize else none
  else if base = "bytes" then
    match size with
    | none => none
    | some (.one n) => if 32 < n then some .bytesTooLong else none
    | some (.pair _ _) => some .bytesPair
  else if base = "int" ∨ base = "uint" then checkInteger size
  else if base = "fixed" ∨ base = "ufixed" then checkFixed size
  else if base = "hash" then
    match size with
    | some (.one _) => none
    | _ => some .hashNoSize
  else if base = "address" then if size.isSome then some .addressSize else none
  else none

namespace TypeText

mutual

/-- Checks the sizes in a type that stands at an offset of a whole text. -/
def check (whole : String) (offset : Nat) : TypeText → Except TypeFault Unit
  | .basic base size dims =>
    match checkSize base size with
    | none => .ok ()
    | some cause =>
      .error (.inconsistent (String.ofList (text (.basic base size dims))) offset whole cause)
  | .tuple items _ => checkItems whole (offset + 1) items

/-- Checks the sizes in the items of a tuple, of which the first stands at an offset. -/
def checkItems (whole : String) (offset : Nat) : List TypeText → Except TypeFault Unit
  | [] => .ok ()
  | t :: ts =>
    match check whole offset t with
    | .error fault => .error fault
    | .ok () => checkItems whole (offset + (text t).length + 1) ts

end

end TypeText

/-! ## Types -/

/-- The bases that stand for types. -/
def knownBases : List String :=
  ["uint", "int", "address", "bool", "ufixed", "fixed", "bytes", "function", "string"]

/-- The type of a base and a size that have been checked. -/
def leaf (base : String) (size : Option Size) : Except TypeFault AbiType :=
  let text := String.ofList (TypeText.text (.basic base size []))
  match base, size with
  | "uint", some (.one n) => .ok (.unsigned n)
  | "int", some (.one n) => .ok (.signed n)
  | "ufixed", some (.pair b p) => .ok (.unsignedFixed b p)
  | "fixed", some (.pair b p) => .ok (.signedFixed b p)
  | "bytes", some (.one n) => .ok (.fixedBytes n)
  | "bytes", none => .ok .bytes
  | "address", _ => .ok .address
  | "bool", _ => .ok .boolean
  | "string", _ => .ok .string
  | "function", _ => .error (.sizedFunction text)
  | _, _ => .error (.unknown text)

/-- A type with dimensions around it, the innermost first. -/
def withDims (t : AbiType) (dims : List (Option Nat)) : AbiType :=
  dims.foldl (fun item dim => match dim with
    | none => .array item
    | some n => .sized item n) t

/-! ## Room

Each part of a type is looked up inside the look-up of the part around it: the calls for a part take
of the room that is left of the calls around it.
-/

/-- What is left of a room. -/
def takeRoom (room taken : Nat) : Except TypeFault Nat :=
  if room < taken then .error .tooDeep else .ok (room - taken)

mutual

/-- The type of a tree whose short names are in full, if what is left of the room is enough for
it. -/
def build (rooms : Rooms) (room : Nat) : TypeText → Except TypeFault AbiType
  | .basic base size dims => do
    let t := TypeText.basic base size dims
    t.check (String.ofList t.text) 0
    let _ ← takeRoom room (rooms.dimension * dims.length)
    -- a base that is not known is told apart only when its turn has come
    (leaf base size).map (withDims · dims)
  | .tuple items dims => do
    let t := TypeText.tuple items dims
    t.check (String.ofList t.text) 0
    let room ← takeRoom room (rooms.dimension * dims.length + rooms.tuple)
    (buildItems rooms room items).map fun ts => withDims (.tuple ts) dims

/-- The types of the items of a tuple. -/
def buildItems (rooms : Rooms) (room : Nat) : List TypeText → Except TypeFault (List AbiType)
  | [] => .ok []
  | t :: ts => do
    let t ← build rooms room t
    let ts ← buildItems rooms room ts
    .ok (t :: ts)

end

/-- The type that a text stands for.  A basic type is looked up by the base as written; short names
are put in full after that. -/
def resolve (rooms : Rooms) (cs : List Char) : Except TypeFault AbiType :=
  match TypeText.parse rooms.parentheses cs with
  | .error cause => .error (.unparsable cause)
  | .ok t =>
    match t with
    | .basic base _ [] =>
      if base ∈ knownBases then build rooms rooms.lookUps t.normalize
      else .error (.unknown (String.ofList cs))
    | _ => build rooms rooms.lookUps t.normalize

end HoneypotAudit.Abi
