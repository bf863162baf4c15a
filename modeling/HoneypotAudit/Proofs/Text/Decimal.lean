import HoneypotAudit.Text.Digit
import Mathlib.Data.List.Induction

/-!
# Decimal numerals

`decimal` writes a number; `spelled` is the number that digits spell.  The two undo each other:
`spelled_decimal` says that a number is spelled by its numeral, and `decimal_spelled` that digits
without a leading zero are the numeral of what they spell.
-/

namespace HoneypotAudit.Text

/-! ## Single digits -/

lemma toNat_digitChar (n : Nat) : (digitChar n).toNat = 0x30 + n % 10 := by
  have h : ∀ k : Fin 10, (Char.ofNat (0x30 + k.val)).toNat = 0x30 + k.val := by decide
  exact h ⟨n % 10, Nat.mod_lt _ (by decide)⟩

lemma isAsciiDigit_iff {c : Char} : isAsciiDigit c = true ↔ 0x30 ≤ c.toNat ∧ c.toNat ≤ 0x39 := by
  simp [isAsciiDigit]

lemma isAsciiDigit_digitChar (n : Nat) : isAsciiDigit (digitChar n) = true := by
  have h : n % 10 < 10 := Nat.mod_lt _ (by decide)
  rw [isAsciiDigit_iff, toNat_digitChar]
  omega

/-- A digit is the character of any number that ends in its value. -/
lemma digitChar_eq {c : Char} (h : isAsciiDigit c = true) {n : Nat}
    (hn : n % 10 = c.toNat - 0x30) : digitChar n = c := by
  obtain ⟨hlow, hhigh⟩ := isAsciiDigit_iff.mp h
  rw [digitChar, hn, show 0x30 + (c.toNat - 0x30) = c.toNat by omega, Char.ofNat_toNat]

/-! ## Numerals -/

/-- The number that digits spell. -/
def spelled (ds : List Char) : Nat :=
  ds.foldl (fun n d => n * 10 + (d.toNat - 0x30)) 0

@[simp] lemma spelled_append_singleton (ds : List Char) (d : Char) :
    spelled (ds ++ [d]) = spelled ds * 10 + (d.toNat - 0x30) := by
  simp [spelled]

lemma spelled_replicate_append (k : Nat) (ds : List Char) :
    spelled (List.replicate k '0' ++ ds) = spelled ds := by
  induction k with
  | zero => rfl
  | succ k ih =>
    rw [List.replicate_succ, List.cons_append, ← ih]
    rfl

/-- **A numeral spells its number.** -/
theorem spelled_decimal (n : Nat) : spelled (decimal n) = n := by
  induction n using decimal.induct with
  | case1 n h =>
    rw [decimal, if_pos h, spelled, List.foldl_cons, List.foldl_nil, toNat_digitChar]
    omega
  | case2 n h ih =>
    rw [decimal, if_neg h, spelled_append_singleton, ih, toNat_digitChar]
    omega

lemma decimal_ne_nil (n : Nat) : decimal n ≠ [] := by
  rw [decimal]
  split <;> simp

lemma isAsciiDigit_of_mem_decimal {n : Nat} {c : Char} (h : c ∈ decimal n) :
    isAsciiDigit c = true := by
  induction n using decimal.induct with
  | case1 n hn =>
    rw [decimal, if_pos hn, List.mem_singleton] at h
    exact h ▸ isAsciiDigit_digitChar n
  | case2 n hn ih =>
    rw [decimal, if_neg hn, List.mem_append, List.mem_singleton] at h
    rcases h with h | h
    · exact ih h
    · exact h ▸ isAsciiDigit_digitChar n

/-- Only the numeral of zero begins with a zero. -/
lemma head?_decimal {n : Nat} (h : 0 < n) : (decimal n).head? ≠ some '0' := by
  induction n using decimal.induct with
  | case1 n hn =>
    rw [decimal, if_pos hn, List.head?_cons]
    intro hzero
    have hval := congrArg Char.toNat (Option.some.inj hzero)
    rw [toNat_digitChar, show '0'.toNat = 0x30 from rfl] at hval
    omega
  | case2 n hn ih =>
    obtain ⟨c, cs, hcs⟩ := List.exists_cons_of_ne_nil (decimal_ne_nil (n / 10))
    rw [hcs] at ih
    rw [decimal, if_neg hn, hcs]
    exact ih (by omega)

/-- Digits without a leading zero spell a number above zero. -/
lemma spelled_pos {ds : List Char} (hne : ds ≠ []) (h : ∀ d ∈ ds, isAsciiDigit d = true)
    (hhead : ds.head? ≠ some '0') : 0 < spelled ds := by
  induction ds using List.reverseRecOn with
  | nil => exact absurd rfl hne
  | append_singleton ds d ih =>
    rw [spelled_append_singleton]
    cases ds with
    | nil =>
      obtain ⟨hlow, -⟩ := isAsciiDigit_iff.mp (h d (by simp))
      have hd : d.toNat ≠ '0'.toNat := fun heq => hhead (by simp [Char.toNat_inj.mp heq])
      rw [show '0'.toNat = 0x30 from rfl] at hd
      omega
    | cons e es =>
      have hpos := ih (by simp) (fun x hx => h x (List.mem_append_left _ hx)) (by simpa using hhead)
      omega

/-- **Digits are the numeral of what they spell**, unless they begin with a zero. -/
theorem decimal_spelled {ds : List Char} (hne : ds ≠ []) (h : ∀ d ∈ ds, isAsciiDigit d = true)
    (hhead : ds.head? ≠ some '0') : decimal (spelled ds) = ds := by
  induction ds using List.reverseRecOn with
  | nil => exact absurd rfl hne
  | append_singleton ds d ih =>
    have hd := h d (by simp)
    obtain ⟨hlow, hhigh⟩ := isAsciiDigit_iff.mp hd
    rw [spelled_append_singleton]
    cases ds with
    | nil =>
      have hsmall : spelled [] * 10 + (d.toNat - 0x30) < 10 := by
        simp only [spelled, List.foldl_nil]
        omega
      rw [decimal, if_pos hsmall, digitChar_eq hd (by rw [Nat.mod_eq_of_lt hsmall]; simp [spelled])]
      rfl
    | cons e es =>
      have hes : ∀ x ∈ e :: es, isAsciiDigit x = true := fun x hx =>
        h x (List.mem_append_left _ hx)
      have hzero : (e :: es).head? ≠ some '0' := by simpa using hhead
      have hpos := spelled_pos (by simp) hes hzero
      rw [decimal, if_neg (by omega), digitChar_eq hd (by omega),
        show (spelled (e :: es) * 10 + (d.toNat - 0x30)) / 10 = spelled (e :: es) by omega,
        ih (by simp) hes hzero]

lemma signedDecimal_eq (n : Int) :
    signedDecimal n = (if n < 0 then ['-'] else []) ++ decimal n.natAbs := by
  cases n with
  | ofNat k => simp [signedDecimal]
  | negSucc k => simp [signedDecimal, Int.negSucc_lt_zero]

end HoneypotAudit.Text
