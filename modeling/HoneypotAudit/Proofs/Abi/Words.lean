import HoneypotAudit.Abi.Decoder
import HoneypotAudit.Proofs.Outcome
import Mathlib.Algebra.Ring.Int.Defs
import Mathlib.Algebra.Ring.Nat
import Mathlib.Data.List.Induction

/-!
# Numbers in words

How far the numbers go that bytes spell, unsigned (`natOfBytes_lt`) and in two's complement
(`intOfBytes_range`), and the other way round: `bytesOfNat` and `word` write a number, and
`natOfBytes_bytesOfNat` says what is read back.
-/

namespace HoneypotAudit.Abi

open HoneypotAudit.Text HoneypotAudit.Outcome

/-! ## Numbers that bytes spell -/

@[simp] lemma natOfBytes_append_singleton (bs : Bytes) (b : UInt8) :
    natOfBytes (bs ++ [b]) = natOfBytes bs * 256 + b.toNat := by
  simp [natOfBytes]

lemma natOfBytes_lt (bs : Bytes) : natOfBytes bs < 2 ^ (8 * bs.length) := by
  induction bs using List.reverseRecOn with
  | nil => simp [natOfBytes]
  | append_singleton bs b ih =>
    have hb := b.toNat_lt
    rw [natOfBytes_append_singleton, List.length_append, List.length_singleton,
      show 8 * (bs.length + 1) = 8 * bs.length + 8 by omega, Nat.pow_add]
    omega

/-- Half of a power of two, as an integer. -/
lemma two_pow_pred_add (n : Nat) (h : 0 < n) : (2 : Int) ^ (n - 1) + 2 ^ (n - 1) = 2 ^ n := by
  obtain ⟨k, rfl⟩ : ∃ k, n = k + 1 := ⟨n - 1, by omega⟩
  rw [Nat.add_sub_cancel, Int.pow_succ]
  omega

/-- Two's complement with powers of integers. -/
lemma intOfBytes_eq (bs : Bytes) :
    intOfBytes bs = if natOfBytes bs < 2 ^ (8 * bs.length - 1) then (natOfBytes bs : Int)
      else natOfBytes bs - 2 ^ (8 * bs.length) := by
  simp [intOfBytes]

/-- What bytes spell in two's complement has one bit less than they have. -/
lemma intOfBytes_range (bs : Bytes) :
    -2 ^ (8 * bs.length - 1) ≤ intOfBytes bs ∧ intOfBytes bs < 2 ^ (8 * bs.length - 1) := by
  have hpos : (0 : Int) < 2 ^ (8 * bs.length - 1) := Int.pow_pos (by decide)
  rw [intOfBytes_eq]
  split
  next h =>
    have hcast : (natOfBytes bs : Int) < 2 ^ (8 * bs.length - 1) := by exact_mod_cast h
    omega
  next h =>
    have hlow : (2 : Int) ^ (8 * bs.length - 1) ≤ natOfBytes bs := by
      exact_mod_cast Nat.le_of_not_lt h
    have hhigh : (natOfBytes bs : Int) < 2 ^ (8 * bs.length) := by exact_mod_cast natOfBytes_lt bs
    cases bs with
    | nil => simp [natOfBytes] at hlow
    | cons b bs =>
      have hhalf := two_pow_pred_add (8 * (b :: bs).length) (by simp)
      omega

/-! ## Numbers as bytes -/

/-- A number as so many bytes, the most significant first.  What goes beyond them is left out. -/
def bytesOfNat : Nat → Nat → Bytes
  | 0, _ => []
  | size + 1, n => bytesOfNat size (n / 256) ++ [UInt8.ofNat n]

/-- A number as a word. -/
def word (n : Nat) : Bytes :=
  bytesOfNat wordSize n

@[simp] lemma length_bytesOfNat (size n : Nat) : (bytesOfNat size n).length = size := by
  induction size generalizing n with
  | zero => rfl
  | succ size ih => simp [bytesOfNat, ih]

@[simp] lemma length_word (n : Nat) : (word n).length = wordSize :=
  length_bytesOfNat wordSize n

/-- **Reading back a number.** -/
lemma natOfBytes_bytesOfNat (size n : Nat) :
    natOfBytes (bytesOfNat size n) = n % 2 ^ (8 * size) := by
  induction size generalizing n with
  | zero => simp [bytesOfNat, natOfBytes, Nat.mod_one]
  | succ size ih =>
    rw [bytesOfNat, natOfBytes_append_singleton, ih, UInt8.toNat_ofNat',
      show 8 * (size + 1) = 8 + 8 * size by omega, Nat.pow_add, Nat.mod_mul, Nat.mul_comm,
      Nat.add_comm]

/-- The last bytes of a number spell what is left of it behind the others. -/
lemma bytesOfNat_add {size r : Nat} (h : r < 2 ^ (8 * size)) (more q : Nat) :
    bytesOfNat (more + size) (q * 2 ^ (8 * size) + r) = bytesOfNat more q ++ bytesOfNat size r := by
  induction size generalizing r with
  | zero =>
    obtain rfl : r = 0 := by simpa using h
    simp [bytesOfNat]
  | succ size ih =>
    have hpow : 2 ^ (8 * (size + 1)) = 2 ^ (8 * size) * 256 := by
      rw [show 8 * (size + 1) = 8 * size + 8 by omega, Nat.pow_add]
    rw [hpow] at h ⊢
    have hdiv : (q * (2 ^ (8 * size) * 256) + r) / 256 = q * 2 ^ (8 * size) + r / 256 := by
      rw [← Nat.mul_assoc]
      omega
    have hlast : UInt8.ofNat (q * (2 ^ (8 * size) * 256) + r) = UInt8.ofNat r := by
      rw [← Nat.mul_assoc, ← UInt8.toNat_inj, UInt8.toNat_ofNat', UInt8.toNat_ofNat']
      omega
    rw [← Nat.add_assoc, bytesOfNat, hdiv, hlast, ih (by omega), bytesOfNat, List.append_assoc]

lemma bytesOfNat_zero (size : Nat) : bytesOfNat size 0 = List.replicate size 0 := by
  induction size with
  | zero => rfl
  | succ size ih =>
    rw [bytesOfNat, Nat.zero_div, ih, List.replicate_succ']
    rfl

/-- The greatest number of so many bytes has all bits set. -/
lemma bytesOfNat_ones (size : Nat) :
    bytesOfNat size (2 ^ (8 * size) - 1) = List.replicate size 0xFF := by
  induction size with
  | zero => rfl
  | succ size ih =>
    have hpow : 2 ^ (8 * (size + 1)) = 2 ^ (8 * size) * 256 := by
      rw [show 8 * (size + 1) = 8 * size + 8 by omega, Nat.pow_add]
    have hpos : 0 < 2 ^ (8 * size) := Nat.pow_pos (by decide)
    have hlast : UInt8.ofNat (2 ^ (8 * size) * 256 - 1) = 0xFF := by
      rw [← UInt8.toNat_inj, UInt8.toNat_ofNat']
      show (2 ^ (8 * size) * 256 - 1) % 256 = 255
      omega
    have hrest : (2 ^ (8 * size) * 256 - 1) / 256 = 2 ^ (8 * size) - 1 := by omega
    rw [hpow, bytesOfNat, hlast, hrest, ih, List.replicate_succ']

end HoneypotAudit.Abi
