import HoneypotAudit.Proofs.Text.Decimal
import HoneypotAudit.Text.Integer
import Mathlib.Algebra.Group.Nat.Defs
import Mathlib.Algebra.Ring.Int.Defs

/-!
# Integers both ways

`Integer.read` takes much more than what `signedDecimal` writes: digits of other scripts,
underscores, blanks around the number.  On a numeral none of these rules applies, so every integer
is read back (`Integer.read_signedDecimal`) unless it has so many digits that it is not written in
the first place.
-/

namespace HoneypotAudit.Text

/-! ## Lengths -/

/-- Numbers below a power of ten have so many digits at most. -/
lemma length_decimal_le {n k : Nat} (hk : 0 < k) (h : n < 10 ^ k) : (decimal n).length ≤ k := by
  induction n using decimal.induct generalizing k with
  | case1 n hn =>
    rw [decimal, if_pos hn, List.length_singleton]
    exact hk
  | case2 n hn ih =>
    obtain ⟨k, rfl⟩ := Nat.exists_eq_succ_of_ne_zero (Nat.ne_of_gt hk)
    rw [Nat.pow_succ] at h
    have hpos : 0 < k := by
      rcases Nat.eq_zero_or_pos k with rfl | hpos
      · omega
      · exact hpos
    rw [decimal, if_neg hn, List.length_append, List.length_singleton]
    exact Nat.succ_le_succ (ih hpos (by omega))

/-- Numbers with so many digits at most are below a power of ten. -/
lemma lt_pow_of_length_decimal_le {n k : Nat} (h : (decimal n).length ≤ k) : n < 10 ^ k := by
  induction n using decimal.induct generalizing k with
  | case1 n hn =>
    rw [decimal, if_pos hn, List.length_singleton] at h
    exact Nat.lt_of_lt_of_le hn (Nat.le_self_pow (by omega) 10)
  | case2 n hn ih =>
    rw [decimal, if_neg hn, List.length_append, List.length_singleton] at h
    obtain ⟨k, rfl⟩ : ∃ j, k = j + 1 := ⟨k - 1, by omega⟩
    have hlt := ih (k := k) (by omega)
    rw [Nat.pow_succ]
    omega

/-- Digits spell a number below a power of ten. -/
lemma spelled_lt {ds : List Char} (h : ∀ d ∈ ds, isAsciiDigit d = true) :
    spelled ds < 10 ^ ds.length := by
  induction ds using List.reverseRecOn with
  | nil => exact Nat.one_pos
  | append_singleton ds d ih =>
    obtain ⟨-, hhigh⟩ := isAsciiDigit_iff.mp (h d (by simp))
    have hless := ih fun x hx => h x (List.mem_append_left _ hx)
    rw [spelled_append_singleton, List.length_append, List.length_singleton, Nat.pow_succ]
    omega

namespace Integer

/-! ## Digits -/

variable {ds : List Char}

lemma digitBelow?_of_isAsciiDigit {d : Char} (h : isAsciiDigit d = true) :
    digitBelow? 10 d = some (d.toNat - 0x30) := by
  obtain ⟨hlow, hhigh⟩ := isAsciiDigit_iff.mp h
  have hfirst : digitZeros.find? (fun z => decide (z ≤ d.toNat) && decide (d.toNat ≤ z + 9))
      = some 0x30 := by
    rw [digitZeros, List.find?_cons_of_pos]
    simp [hlow, hhigh]
  have hvalue : digitValue? d = some (d.toNat - 0x30) := by
    rw [digitValue?, hfirst, Option.map_some]
  rw [digitBelow?, hexValue?, hvalue, Option.filter_some, if_pos (decide_eq_true (by omega))]

lemma groupedDigits?_of_digits (h : ∀ d ∈ ds, isAsciiDigit d = true) :
    groupedDigits? 10 true ds = some (ds.map fun d => d.toNat - 0x30) := by
  induction ds with
  | nil => rfl
  | cons d ds ih =>
    obtain ⟨hd, hds⟩ := List.forall_mem_cons.mp h
    have hunderscore : d ≠ '_' := by
      rintro rfl
      exact absurd hd (by decide)
    rw [groupedDigits?, if_neg hunderscore, digitBelow?_of_isAsciiDigit hd]
    simp only [ih hds, Option.map_some, List.map_cons]

/-- The first digit may come without another one in front. -/
lemma groupedDigits?_first (hne : ds ≠ []) (h : ∀ d ∈ ds, isAsciiDigit d = true) (before : Bool) :
    groupedDigits? 10 before ds = some (ds.map fun d => d.toNat - 0x30) := by
  obtain ⟨d, ds, rfl⟩ := List.exists_cons_of_ne_nil hne
  obtain ⟨hd, hds⟩ := List.forall_mem_cons.mp h
  have hunderscore : d ≠ '_' := by
    rintro rfl
    exact absurd hd (by decide)
  rw [groupedDigits?, if_neg hunderscore, digitBelow?_of_isAsciiDigit hd]
  simp only [groupedDigits?_of_digits hds, Option.map_some, List.map_cons]

lemma ofDigits_map (ds : List Char) :
    ofDigits 10 (ds.map fun d => d.toNat - 0x30) = spelled ds := by
  rw [ofDigits, List.foldl_map, spelled]

/-! ## What stands around the digits -/

/-- The characters of a numeral. -/
def isNumeralChar (c : Char) : Bool :=
  isAsciiDigit c || c == '-'

lemma signedDecimal_ne_nil (n : Int) : signedDecimal n ≠ [] := by
  cases n with
  | ofNat k => exact decimal_ne_nil k
  | negSucc k => exact List.cons_ne_nil _ _

lemma isNumeralChar_of_mem_signedDecimal {n : Int} {c : Char} (h : c ∈ signedDecimal n) :
    isNumeralChar c = true := by
  have hdecimal {k : Nat} (h : c ∈ decimal k) : isNumeralChar c = true := by
    simp [isNumeralChar, isAsciiDigit_of_mem_decimal h]
  cases n with
  | ofNat k => exact hdecimal h
  | negSucc k =>
    rcases List.mem_cons.mp h with rfl | h
    · rfl
    · exact hdecimal h

/-- A numeral has no blank in it. -/
lemma isMargin_of_isNumeralChar {c : Char} (h : isNumeralChar c = true) : isMargin c = false := by
  have hnumber : 0x2D ≤ c.toNat ∧ c.toNat ≤ 0x39 := by
    simp only [isNumeralChar, Bool.or_eq_true, isAsciiDigit_iff, beq_iff_eq] at h
    rcases h with h | rfl
    · omega
    · decide
  have hblank : isBlank c = false := by
    simp [isBlank, inRanges, blankRanges]
    omega
  rw [isMargin, hblank, Bool.false_and]

lemma trim_of_forall {cs : List Char} (h : ∀ c ∈ cs, isMargin c = false) : trim cs = cs := by
  have hnone : ∀ ds : List Char, ds ⊆ cs → ds.dropWhile isMargin = ds := by
    intro ds hsub
    cases ds with
    | nil => rfl
    | cons d ds => exact List.dropWhile_cons_of_neg (by simp [h d (hsub List.mem_cons_self)])
  rw [trim, trimLeft, trimRight, hnone cs (List.Subset.refl cs),
    hnone cs.reverse fun c hc => List.mem_reverse.mp hc, List.reverse_reverse]

lemma splitSign_of_digits (hne : ds ≠ []) (h : ∀ d ∈ ds, isAsciiDigit d = true) :
    splitSign ds = (false, ds) := by
  obtain ⟨d, ds, rfl⟩ := List.exists_cons_of_ne_nil hne
  have hd := h d List.mem_cons_self
  unfold splitSign
  split
  next heq => cases heq; exact absurd hd (by decide)
  next heq => cases heq; exact absurd hd (by decide)
  next => rfl

/-! ## Numerals -/

lemma length_le_of_isWritable {n : Int} (h : isWritable n = true) :
    (decimal n.natAbs).length ≤ maxDigits := by
  have hpos : 0 < maxDigits := by decide
  unfold isWritable at h
  -- the power itself is never computed
  generalize maxDigits = most at h hpos ⊢
  exact length_decimal_le hpos (of_decide_eq_true h)

/-- What is no further from zero than a written integer is written too. -/
lemma isWritable_of_natAbs_le {m n : Int} (hle : m.natAbs ≤ n.natAbs) (h : isWritable n = true) :
    isWritable m = true := by
  unfold isWritable at h ⊢
  generalize maxDigits = most at h ⊢
  exact decide_eq_true (Nat.lt_of_le_of_lt hle (of_decide_eq_true h))

lemma isWritable_of_lt {n : Int} {k : Nat} (hk : k ≤ maxDigits) (h : n.natAbs < 10 ^ k) :
    isWritable n = true := by
  unfold isWritable
  generalize maxDigits = most at hk ⊢
  exact decide_eq_true (Nat.lt_of_lt_of_le h (Nat.pow_le_pow_right (by decide) hk))

/-- Digits that are not too many spell an integer that is written. -/
lemma isWritable_spelled (h : ∀ d ∈ ds, isAsciiDigit d = true) (hlength : ds.length ≤ maxDigits)
    (negative : Bool) : isWritable (withSign negative (spelled ds)) = true := by
  have habs : (withSign negative (spelled ds)).natAbs = spelled ds := by
    cases negative <;> simp [withSign]
  refine isWritable_of_lt hlength ?_
  rw [habs]
  exact spelled_lt h

/-- The first integer that is not written. -/
lemma isWritable_pow_maxDigits : isWritable (10 ^ maxDigits) = false := by
  unfold isWritable
  generalize maxDigits = most
  simp [Int.natAbs_pow]

lemma withSign_natAbs (n : Int) : withSign (decide (n < 0)) n.natAbs = n := by
  unfold withSign
  split
  next h =>
    have h := of_decide_eq_true h
    omega
  next h =>
    have h := of_decide_eq_false (Bool.eq_false_iff.mpr h)
    omega

/-- **Every integer is read back from its numeral**, if it is written at all. -/
theorem read_signedDecimal {n : Int} (h : isWritable n = true) :
    read (signedDecimal n) = .ok n := by
  have hdigits {k : Nat} : ∀ d ∈ decimal k, isAsciiDigit d = true :=
    fun d => isAsciiDigit_of_mem_decimal
  have hlength : ¬maxDigits < (decimal n.natAbs).length :=
    Nat.not_lt.mpr (length_le_of_isWritable h)
  have hsplit : splitSign (signedDecimal n) = (decide (n < 0), decimal n.natAbs) := by
    cases n with
    | ofNat k => exact splitSign_of_digits (decimal_ne_nil k) hdigits
    | negSucc k =>
      rw [decide_eq_true (Int.negSucc_lt_zero k)]
      rfl
  have htrim : trim (signedDecimal n) = signedDecimal n := trim_of_forall fun c hc =>
    isMargin_of_isNumeralChar (isNumeralChar_of_mem_signedDecimal hc)
  rw [read, htrim, hsplit]
  simp only [groupedDigits?_first (decimal_ne_nil n.natAbs) hdigits, List.length_map,
    if_neg hlength, ofDigits_map, spelled_decimal, withSign_natAbs]

lemma readText_signedDecimal {n : Int} (h : isWritable n = true) :
    readText (signedDecimal n) = .ok n := by
  rw [readText, readShownAs, read_signedDecimal h]

end Integer

end HoneypotAudit.Text
