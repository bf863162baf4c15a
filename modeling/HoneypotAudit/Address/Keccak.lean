import HoneypotAudit.Text.Hex

/-!
# The 256-bit Keccak hash

The sponge over a state of 25 words of 64 bits, with a rate of 136 bytes.  A message is padded with
a byte `01`, zeros, and the top bit of the last byte.  The word at column `x` and row `y` of the
state has the index `x + 5 y`; bytes enter and leave words with the least significant byte first.
-/

namespace HoneypotAudit.Address.Keccak

open HoneypotAudit.Text

/-- The state: 25 words of 64 bits. -/
abbrev State := Vector UInt64 25

/-- The word at a column and a row, both counted modulo five. -/
def State.lane (s : State) (x y : Nat) : UInt64 :=
  s.get ⟨x % 5 + 5 * (y % 5), by omega⟩

/-- The state whose word at each column and row is given. -/
def State.ofLanes (f : Nat → Nat → UInt64) : State :=
  Vector.ofFn fun i => f (i.val % 5) (i.val / 5)

/-- The constants that break the symmetry of the rounds. -/
def roundConstants : List UInt64 :=
  [0x0000000000000001, 0x0000000000008082, 0x800000000000808A, 0x8000000080008000,
    0x000000000000808B, 0x0000000080000001, 0x8000000080008081, 0x8000000000008009,
    0x000000000000008A, 0x0000000000000088, 0x0000000080008009, 0x000000008000000A,
    0x000000008000808B, 0x800000000000008B, 0x8000000000008089, 0x8000000000008003,
    0x8000000000008002, 0x8000000000000080, 0x000000000000800A, 0x800000008000000A,
    0x8000000080008081, 0x8000000000008080, 0x0000000080000001, 0x8000000080008008]

/-- The rotation of each word, by index. -/
def rotations : Vector Nat 25 :=
  #v[0, 1, 62, 28, 27, 36, 44, 6, 55, 20, 3, 10, 43, 25, 39, 41, 45, 15, 21, 8, 18, 2, 61, 56, 14]

/-- A word rotated to the left by fewer than 64 bits. -/
def rotateLeft (w : UInt64) (n : Nat) : UInt64 :=
  if n = 0 then w else (w <<< UInt64.ofNat n) ||| (w >>> UInt64.ofNat (64 - n))

/-- Adds to each word the parities of two columns beside it. -/
def theta (s : State) : State :=
  let parity (x : Nat) : UInt64 :=
    s.lane x 0 ^^^ s.lane x 1 ^^^ s.lane x 2 ^^^ s.lane x 3 ^^^ s.lane x 4
  let parities : Vector UInt64 5 := Vector.ofFn fun x => parity x.val
  let effects : Vector UInt64 5 := Vector.ofFn fun x =>
    parities.get ⟨(x.val + 4) % 5, by omega⟩ ^^^
      rotateLeft (parities.get ⟨(x.val + 1) % 5, by omega⟩) 1
  State.ofLanes fun x y => s.lane x y ^^^ effects.get ⟨x % 5, by omega⟩

/-- Rotates each word and moves it to its new place. -/
def rhoPi (s : State) : State :=
  State.ofLanes fun x y =>
    let column := x + 3 * y
    rotateLeft (s.lane column x) (rotations.get ⟨column % 5 + 5 * (x % 5), by omega⟩)

/-- Combines each word with the next two of its row. -/
def chi (s : State) : State :=
  State.ofLanes fun x y => s.lane x y ^^^ (~~~(s.lane (x + 1) y) &&& s.lane (x + 2) y)

/-- One round of the permutation. -/
def round (s : State) (constant : UInt64) : State :=
  let s := chi (rhoPi (theta s))
  s.set 0 (s[0] ^^^ constant)

/-- The permutation of the state. -/
def permute (s : State) : State :=
  roundConstants.foldl round s

/-- The number of bytes taken in between two permutations. -/
def rate : Nat := 136

/-- The word of up to eight bytes, least significant first. -/
def wordOfBytes (bs : Bytes) : UInt64 :=
  bs.foldr (fun b w => (w <<< 8) ||| b.toUInt64) 0

/-- The bytes of a word, least significant first. -/
def bytesOfWord (w : UInt64) : Bytes :=
  (List.range 8).map fun i => (w >>> UInt64.ofNat (8 * i)).toUInt8

/-- Adds a block to the state and permutes it. -/
def absorb (s : State) (block : Bytes) : State :=
  permute (Vector.ofFn fun i => s[i] ^^^ wordOfBytes ((block.drop (8 * i.val)).take 8))

/-- A message filled up to a multiple of the rate. -/
def pad (bs : Bytes) : Bytes :=
  let gap := rate - bs.length % rate
  if gap = 1 then bs ++ [0x81]
  else bs ++ 0x01 :: List.replicate (gap - 2) 0x00 ++ [0x80]

/-- Takes in a padded message block by block. -/
def absorbAll : Nat → State → Bytes → State
  | 0, s, _ => s
  | n + 1, s, bs => absorbAll n (absorb s (bs.take rate)) (bs.drop rate)

/-- The 32 bytes of the hash of a message. -/
def hash (bs : Bytes) : Bytes :=
  let padded := pad bs
  let s := absorbAll (padded.length / rate) (Vector.replicate 25 0) padded
  (s.toList.take 4).flatMap bytesOfWord

end HoneypotAudit.Address.Keccak
