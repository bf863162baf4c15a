import HoneypotAudit.Text.Hex

/-!
# UTF-8

Reading bytes as characters, one character at a time.  `Utf8.next` takes the first character off
a byte sequence or tells how many bytes form the longest beginning of a character there and why
it goes no further.  `Utf8.decode` stops at the first such place; `Utf8.decodeLossy` puts the
replacement character in its stead and goes on.

Overlong forms, surrogates and numbers above `10FFFF` are excluded by the range that the second
byte may have after each first byte.
-/

namespace HoneypotAudit.Text.Utf8

/-! ## Faults -/

/-- Why bytes are not the beginning of a character. -/
inductive Reason where
  | invalidStart
  | invalidContinuation
  | unexpectedEnd
  deriving Repr, DecidableEq

/-- The wording of a reason. -/
def Reason.message : Reason → String
  | .invalidStart => "invalid start byte"
  | .invalidContinuation => "invalid continuation byte"
  | .unexpectedEnd => "unexpected end of data"

/-- A place where bytes are not UTF-8: the first byte, its position, the length of the longest
beginning of a character there, and the reason. -/
structure Fault where
  position : Nat
  length : Nat
  first : UInt8
  reason : Reason
  deriving Repr, DecidableEq

/-- The wording of a fault: a single byte is shown, a longer beginning only located. -/
def Fault.message (f : Fault) : String :=
  let place :=
    if f.length = 1 then
      "byte 0x" ++ String.ofList (Hex.encodeByte f.first) ++ " in position " ++ toString f.position
    else
      "bytes in position " ++ toString f.position ++ "-" ++ toString (f.position + f.length - 1)
  "'utf-8' codec can't decode " ++ place ++ ": " ++ f.reason.message

/-! ## One character -/

/-- The bytes that may continue a character at a place. -/
structure Window where
  low : Nat
  high : Nat
  deriving Repr, DecidableEq

/-- A byte is in a window. -/
def Window.holds (w : Window) (b : UInt8) : Bool :=
  decide (w.low ≤ b.toNat) && decide (b.toNat ≤ w.high)

/-- The window of every continuation byte after the second. -/
def plain : Window := ⟨0x80, 0xBF⟩

/-- What a first byte announces: the bits it contributes and the windows of the bytes to follow;
nothing for a byte that begins no character. -/
def announce? (b : UInt8) : Option (Nat × List Window) :=
  let n := b.toNat
  if n < 0x80 then some (n, [])
  else if n < 0xC2 then none
  else if n < 0xE0 then some (n - 0xC0, [plain])
  else if n < 0xF0 then
    let second := if n = 0xE0 then ⟨0xA0, 0xBF⟩ else if n = 0xED then ⟨0x80, 0x9F⟩ else plain
    some (n - 0xE0, [second, plain])
  else if n < 0xF5 then
    let second := if n = 0xF0 then ⟨0x90, 0xBF⟩ else if n = 0xF4 then ⟨0x80, 0x8F⟩ else plain
    some (n - 0xF0, [second, plain, plain])
  else none

/-- Takes continuation bytes while they are in their windows: the number they complete, or how
many were taken before the failure. -/
def follow (bits : Nat) : List Window → Bytes → Except (Nat × Reason) Nat
  | [], _ => .ok bits
  | _ :: _, [] => .error (0, .unexpectedEnd)
  | w :: ws, b :: bs =>
    if w.holds b then
      match follow (bits * 64 + (b.toNat - 0x80)) ws bs with
      | .ok n => .ok n
      | .error (k, r) => .error (k + 1, r)
    else .error (0, .invalidContinuation)

/-- The first character of a byte sequence. -/
inductive Step where
  /-- A character written with so many bytes. -/
  | char (c : Char) (width : Nat)
  /-- No character: the length of its longest beginning and the reason why it stops there. -/
  | bad (width : Nat) (reason : Reason)
  deriving Repr, DecidableEq

/-- The character at the front of a nonempty sequence. -/
def next (b : UInt8) (bs : Bytes) : Step :=
  match announce? b with
  | none => .bad 1 .invalidStart
  | some (bits, windows) =>
    match follow bits windows bs with
    | .ok n => .char (Char.ofNat n) (windows.length + 1)
    | .error (k, r) => .bad (k + 1) r

/-! ## Whole sequences -/

/-- The characters of a byte sequence that starts at a position, up to the first fault. -/
def decodeFrom (position : Nat) : Bytes → Except Fault (List Char)
  | [] => .ok []
  | b :: bs =>
    match next b bs with
    | .bad n r => .error ⟨position, n, b, r⟩
    | .char c n =>
      match decodeFrom (position + n) (bs.drop (n - 1)) with
      | .ok cs => .ok (c :: cs)
      | .error f => .error f
termination_by bs => bs.length
decreasing_by simp only [List.length_drop, List.length_cons]; omega

/-- The characters of a byte sequence, if all of it is UTF-8. -/
def decode (bs : Bytes) : Except Fault (List Char) :=
  decodeFrom 0 bs

/-- The character that stands for bytes that are not UTF-8. -/
def replacement : Char := '\uFFFD'

/-- The characters of a byte sequence, each longest beginning of a character that goes no further
replaced by one `replacement`. -/
def decodeLossy : Bytes → List Char
  | [] => []
  | b :: bs =>
    match next b bs with
    | .bad n _ => replacement :: decodeLossy (bs.drop (n - 1))
    | .char c n => c :: decodeLossy (bs.drop (n - 1))
termination_by bs => bs.length
decreasing_by all_goals simp only [List.length_drop, List.length_cons]; omega

/-- The bytes of a text. -/
def encode (cs : List Char) : Bytes :=
  cs.flatMap String.utf8EncodeChar

end HoneypotAudit.Text.Utf8
