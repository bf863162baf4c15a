import HoneypotAudit.Number.Binary64
import Mathlib.Data.Int.Log
import Mathlib.Data.Rat.Floor
import Mathlib.Tactic.FieldSimp
import Mathlib.Tactic.Linarith
import Mathlib.Tactic.Ring

/-!
# Rounding to binary floating-point numbers

What `ofRatio` makes of a quotient depends on the quotient alone (`ofRatio_congr`), and a quotient
that is near enough to a value of the format becomes that value (`ofRatio_eq_of_near`): nearer than
sixteen decimal digits tell, which is less than half the distance to the next value even below a
power of two.  Whatever is rounded becomes a value of the format or an infinity
(`isRounded_ofRatio`).
-/

namespace HoneypotAudit.Number

/-! ## Rounding a quotient -/

section Round

variable {n d k : Nat}

/-- The nearest natural number, if it is nearer than one half. -/
lemma roundHalfEven_eq_of_near (hd : 0 < d) (h : |(n : ℚ) / d - k| < 1 / 2) :
    roundHalfEven n d = k := by
  have hd' : (0 : ℚ) < d := Nat.cast_pos.mpr hd
  rw [abs_lt, div_sub' hd'.ne', lt_div_iff₀ hd', div_lt_iff₀ hd'] at h
  obtain ⟨hlow, hhigh⟩ := h
  have hlow : 2 * (d * k) < 2 * n + d := by
    have : (2 : ℚ) * (d * k) < 2 * n + d := by linarith
    exact_mod_cast this
  have hhigh : 2 * n < 2 * (d * k) + d := by
    have : (2 : ℚ) * n < 2 * (d * k) + d := by linarith
    exact_mod_cast this
  have hsplit := Nat.div_add_mod n d
  have hmod := Nat.mod_lt n hd
  rcases roundHalfEven_cases n d with ⟨hround, hhalf⟩ | ⟨hround, hhalf⟩
  · rw [hround]
    refine le_antisymm ?_ ?_
    · by_contra hlt
      have := Nat.mul_le_mul_left d (show k + 1 ≤ n / d by omega)
      rw [Nat.mul_add] at this
      omega
    · by_contra hlt
      have := Nat.mul_le_mul_left d (show n / d + 1 ≤ k by omega)
      rw [Nat.mul_add] at this
      omega
  · rw [hround]
    refine le_antisymm ?_ ?_
    · by_contra hlt
      have := Nat.mul_le_mul_left d (show k ≤ n / d by omega)
      omega
    · by_contra hlt
      have := Nat.mul_le_mul_left d (show n / d + 2 ≤ k by omega)
      rw [Nat.mul_add] at this
      omega

lemma roundHalfEven_mul (n d : Nat) {c : Nat} (hc : 0 < c) :
    roundHalfEven (n * c) (d * c) = roundHalfEven n d := by
  have hdouble : 2 * (n % d * c) = 2 * (n % d) * c := (Nat.mul_assoc _ _ _).symm
  rw [roundHalfEven, Nat.mul_div_mul_right _ _ hc, Nat.mul_mod_mul_right, hdouble]
  simp only [Nat.mul_lt_mul_right hc]
  rfl

/-- Rounding depends on the quotient alone. -/
lemma roundHalfEven_congr {n' d' : Nat} (hd : 0 < d) (hd' : 0 < d')
    (h : (n : ℚ) / d = n' / d') : roundHalfEven n d = roundHalfEven n' d' := by
  rw [div_eq_div_iff (by positivity) (by positivity)] at h
  have h : n * d' = n' * d := by exact_mod_cast h
  rw [← roundHalfEven_mul n d hd', h, Nat.mul_comm d d', roundHalfEven_mul n' d' hd]

end Round

namespace Binary64

/-! ## Scaling -/

/-- A quotient times a power, as a quotient. -/
lemma scaleRatio_spec {base den : Nat} (hbase : 0 < base) (num : Nat) (hden : 0 < den)
    (power : Int) :
    0 < (scaleRatio base power num den).2 ∧
      ((scaleRatio base power num den).1 : ℚ) / (scaleRatio base power num den).2 =
        num / den * (base : ℚ) ^ power := by
  have hbase' : (base : ℚ) ≠ 0 := by positivity
  cases power with
  | ofNat k =>
    refine ⟨hden, ?_⟩
    simp only [scaleRatio, Nat.pow_eq, Nat.cast_mul, Nat.cast_pow, Int.ofNat_eq_natCast,
      zpow_natCast]
    ring
  | negSucc k =>
    refine ⟨Nat.mul_pos hden (Nat.pow_pos hbase), ?_⟩
    simp only [scaleRatio, Nat.pow_eq, Nat.cast_mul, Nat.cast_pow, zpow_negSucc]
    field_simp

lemma scaleRatio_pos {base num den : Nat} (hbase : 0 < base) (hnum : 0 < num) (power : Int) :
    0 < (scaleRatio base power num den).1 := by
  cases power with
  | ofNat k => exact Nat.mul_pos hnum (Nat.pow_pos hbase)
  | negSucc k => exact hnum

/-! ## Exponents -/

section Exponents

variable {num den : Nat} (hnum : 0 < num) (hden : 0 < den)
include hnum hden

/-- The powers of two around a quotient. -/
lemma zpow_log2_bounds :
    (2 : ℚ) ^ ((num.log2 : Int) - den.log2 - 1) ≤ num / den ∧
      (num : ℚ) / den < (2 : ℚ) ^ ((num.log2 : Int) - den.log2 + 1) := by
  have hden' : (0 : ℚ) < den := Nat.cast_pos.mpr hden
  have hlow : (2 : ℚ) ^ (num.log2 : Int) ≤ num := by
    exact_mod_cast Nat.log2_self_le hnum.ne'
  have hhigh : (num : ℚ) < (2 : ℚ) ^ ((num.log2 : Int) + 1) := by
    exact_mod_cast Nat.lt_log2_self (n := num)
  have hlow' : (2 : ℚ) ^ (den.log2 : Int) ≤ den := by
    exact_mod_cast Nat.log2_self_le hden.ne'
  have hhigh' : (den : ℚ) < (2 : ℚ) ^ ((den.log2 : Int) + 1) := by
    exact_mod_cast Nat.lt_log2_self (n := den)
  have hpos (k : Int) : (0 : ℚ) < 2 ^ k := zpow_pos (by norm_num) k
  have hsplit (j k : Int) : (2 : ℚ) ^ (j + k) = 2 ^ j * 2 ^ k := zpow_add₀ (by norm_num) j k
  constructor
  · rw [le_div_iff₀ hden']
    calc (2 : ℚ) ^ ((num.log2 : Int) - den.log2 - 1) * den
        ≤ 2 ^ ((num.log2 : Int) - den.log2 - 1) * 2 ^ ((den.log2 : Int) + 1) :=
          mul_le_mul_of_nonneg_left hhigh'.le (hpos _).le
      _ = 2 ^ (num.log2 : Int) := by rw [← hsplit]; congr 1; ring
      _ ≤ num := hlow
  · rw [div_lt_iff₀ hden']
    calc (num : ℚ) < 2 ^ ((num.log2 : Int) + 1) := hhigh
      _ = 2 ^ ((num.log2 : Int) - den.log2 + 1) * 2 ^ (den.log2 : Int) := by
          rw [← hsplit]; congr 1; ring
      _ ≤ 2 ^ ((num.log2 : Int) - den.log2 + 1) * den :=
          mul_le_mul_of_nonneg_left hlow' (hpos _).le

/-- The exponent is that of the binary logarithm, but for the least one. -/
lemma exponentFor_eq :
    exponentFor num den = max (Int.log 2 ((num : ℚ) / den) - 52) leastExponent := by
  have hquotient : (0 : ℚ) < num / den := by positivity
  obtain ⟨hlow, hhigh⟩ := zpow_log2_bounds hnum hden
  have hone : 1 < 2 := by norm_num
  set guess : Int := (num.log2 : Int) - den.log2 with hguess
  have hfrom : guess - 1 ≤ Int.log 2 ((num : ℚ) / den) :=
    (Int.zpow_le_iff_le_log hone hquotient).mp hlow
  have hto : Int.log 2 ((num : ℚ) / den) < guess + 1 :=
    (Int.lt_zpow_iff_log_lt hone hquotient).mp hhigh
  obtain ⟨hpos, hscaled⟩ := scaleRatio_spec two_pos num hden (-guess)
  have htop : (if (scaleRatio 2 (-guess) num den).2 ≤ (scaleRatio 2 (-guess) num den).1 then guess
      else guess - 1) = Int.log 2 ((num : ℚ) / den) := by
    have hiff : (scaleRatio 2 (-guess) num den).2 ≤ (scaleRatio 2 (-guess) num den).1 ↔
        guess ≤ Int.log 2 ((num : ℚ) / den) := by
      have hpos' : (0 : ℚ) < (scaleRatio 2 (-guess) num den).2 := Nat.cast_pos.mpr hpos
      have hguess' : (0 : ℚ) < 2 ^ guess := zpow_pos (by norm_num) guess
      rw [← Int.zpow_le_iff_le_log hone hquotient, ← Nat.cast_le (α := ℚ), ← one_le_div hpos',
        hscaled, Nat.cast_ofNat, zpow_neg, ← div_eq_mul_inv, one_le_div hguess']
    split
    next h => have := hiff.mp h; omega
    next h => have := mt hiff.mpr h; omega
  unfold exponentFor
  simp only [← hguess]
  rw [htop]

end Exponents

/-! ## Values near a quotient -/

section Values

variable {num den m : Nat} {e : Int} (negative : Bool)

/-- What a quotient is rounded to with a given exponent. -/
lemma ofRatio_eq (hnum : 0 < num) (he : exponentFor num den = e)
    (hm : roundHalfEven (scaleRatio 2 (-e) num den).1 (scaleRatio 2 (-e) num den).2 = m) :
    ofRatio negative num den =
      if m = 2 ^ 53 then
        if greatestExponent < e + 1 then .infinite negative else .finite negative (2 ^ 52) (e + 1)
      else if greatestExponent < e then .infinite negative else .finite negative m e := by
  subst he
  subst hm
  unfold ofRatio
  rw [if_neg hnum.ne']
  dsimp only
  split
  next h =>
    rw [if_pos (show _ = 2 ^ 53 from h)]
    rfl
  next h =>
    rw [if_neg (show ¬_ = 2 ^ 53 from h)]

/-- The sign is no matter of the rounding. -/
lemma ofRatio_of_positive (hnum : 0 < num) (h : ofRatio false num den = .finite false m e) :
    ofRatio negative num den = .finite negative m e := by
  rw [ofRatio_eq false hnum rfl rfl] at h
  rw [ofRatio_eq negative hnum rfl rfl]
  split at h
  next hpower =>
    rw [if_pos hpower]
    split at h
    next => cases h
    next hle => cases h; rw [if_neg hle]
  next hpower =>
    rw [if_neg hpower]
    split at h
    next => cases h
    next hle => cases h; rw [if_neg hle]

/-- **Rounding depends on the quotient alone.** -/
theorem ofRatio_congr {num' den' : Nat} (hnum : 0 < num) (hden : 0 < den) (hnum' : 0 < num')
    (hden' : 0 < den') (h : (num : ℚ) / den = num' / den') :
    ofRatio negative num den = ofRatio negative num' den' := by
  have he : exponentFor num' den' = exponentFor num den := by
    rw [exponentFor_eq hnum hden, exponentFor_eq hnum' hden', h]
  obtain ⟨hpos, hscaled⟩ := scaleRatio_spec two_pos num hden
    (-exponentFor num den)
  obtain ⟨hpos', hscaled'⟩ := scaleRatio_spec two_pos num' hden'
    (-exponentFor num den)
  have hround := roundHalfEven_congr hpos hpos' (by rw [hscaled, hscaled', h])
  rw [ofRatio_eq negative hnum rfl rfl, ofRatio_eq negative hnum' he hround.symm]

/-- A finite value of the format, as mantissa and exponent: the mantissa has 53 bits, or less with
the least exponent. -/
structure IsValue (m : Nat) (e : Int) : Prop where
  mantissa_lt : m < 2 ^ 53
  least_le : leastExponent ≤ e
  le_greatest : e ≤ greatestExponent
  normal : 2 ^ 52 ≤ m ∨ e = leastExponent

/-- A finite value of the format with its sign. -/
def IsFinite : Binary64 → Prop
  | .finite _ m e => IsValue m e
  | .infinite _ => False
  | .nan => False

/-- How near a quotient is to a value: nearer than sixteen digits tell. -/
def IsNear (q x : ℚ) : Prop :=
  |q - x| ≤ x / (2 * 10 ^ 16)

/-- There are less than `2 ^ 53` mantissas, so nearness is less than half a unit. -/
lemma IsValue.nearness_lt (hvalue : IsValue m e) : (m : ℚ) / (2 * 10 ^ 16) < 1 / 2 := by
  have hm : (m : ℚ) < 2 ^ 53 := by exact_mod_cast hvalue.mantissa_lt
  rw [div_lt_iff₀ (by norm_num)]
  linarith

section Near

variable {q : ℚ}

/-- What a quotient near a value is in units of the last place. -/
lemma IsNear.scaled (h : IsNear q (m * 2 ^ e)) : |q * 2 ^ (-e) - m| ≤ m / (2 * 10 ^ 16) := by
  have hpos : (0 : ℚ) < 2 ^ e := zpow_pos (by norm_num) e
  have hunit : q * 2 ^ (-e) - m = (q - m * 2 ^ e) / 2 ^ e := by
    rw [zpow_neg, sub_div, mul_div_cancel_right₀ _ hpos.ne', div_eq_mul_inv]
  rw [hunit, abs_div, abs_of_pos hpos, div_le_iff₀ hpos]
  calc |q - m * 2 ^ e| ≤ m * 2 ^ e / (2 * 10 ^ 16) := h
    _ = m / (2 * 10 ^ 16) * 2 ^ e := by ring

/-- The binary logarithm in units of the last place. -/
lemma log_lt_add_iff (hq : 0 < q) (j e : Int) : Int.log 2 q < j + e ↔ q * 2 ^ (-e) < 2 ^ j := by
  rw [← Int.lt_zpow_iff_log_lt (by norm_num) hq, zpow_neg, ← div_eq_mul_inv,
    div_lt_iff₀ (zpow_pos (by norm_num) e), ← zpow_add₀ (by norm_num), Nat.cast_ofNat]

/-- A quotient near a value has no greater logarithm than the value can have. -/
lemma IsNear.log_lt (hvalue : IsValue m e) (hq : 0 < q) (h : IsNear q (m * 2 ^ e)) :
    Int.log 2 q < 53 + e := by
  have hm : (m : ℚ) ≤ 2 ^ 53 - 1 := by
    have hle : ((m + 1 : ℕ) : ℚ) ≤ ((2 ^ 53 : ℕ) : ℚ) := Nat.cast_le.mpr hvalue.mantissa_lt
    push_cast at hle
    linarith
  have hnear := (abs_le.mp h.scaled).2
  have hless := hvalue.nearness_lt
  rw [log_lt_add_iff hq, show (2 : ℚ) ^ (53 : Int) = 2 ^ 53 from zpow_natCast 2 53]
  linarith

end Near

section OfRatio

variable (hvalue : IsValue m e) (hnum : 0 < num) (hden : 0 < den)
  (h : IsNear (num / den) (m * 2 ^ e))
include hvalue hnum hden h

/-- A quotient near a value has its exponent, or the next lower one if it is below a power of
two. -/
lemma exponentFor_of_near :
    exponentFor num den = e ∨ (m = 2 ^ 52 ∧ exponentFor num den = e - 1) := by
  have hquotient : (0 : ℚ) < num / den := by positivity
  have htop := h.log_lt hvalue hquotient
  have hlow := log_lt_add_iff hquotient 52 e
  have hlower := log_lt_add_iff hquotient 51 e
  have hleast := hvalue.least_le
  rw [exponentFor_eq hnum hden]
  by_cases hbelow : Int.log 2 ((num : ℚ) / den) < 52 + e ∧ e ≠ leastExponent
  · obtain ⟨hlog, hnormal⟩ := hbelow
    have hnear := abs_le.mp h.scaled
    have hless := hvalue.nearness_lt
    have hscaled := hlow.mp hlog
    rw [show (2 : ℚ) ^ (52 : Int) = 2 ^ 52 from zpow_natCast 2 52] at hscaled
    have hpower : m = 2 ^ 52 := by
      have hle : 2 ^ 52 ≤ m := hvalue.normal.resolve_right hnormal
      have hlt : (m : ℚ) < 2 ^ 52 + 1 := by linarith
      have hlt : m < 2 ^ 52 + 1 := by exact_mod_cast hlt
      omega
    subst hpower
    have hfrom : ¬Int.log 2 ((num : ℚ) / den) < 51 + e := by
      rw [hlower, show (2 : ℚ) ^ (51 : Int) = 2 ^ 51 from zpow_natCast 2 51, not_lt]
      push_cast at hnear
      linarith
    exact .inr ⟨rfl, by omega⟩
  · rcases not_and_or.mp hbelow with hlog | hnormal
    · exact .inl (by omega)
    · have hsame := not_not.mp hnormal
      exact .inl (by omega)

/-- **A quotient near a value becomes the value.** -/
theorem ofRatio_eq_of_near : ofRatio negative num den = .finite negative m e := by
  rcases exponentFor_of_near hvalue hnum hden h with he | ⟨rfl, he⟩
  · obtain ⟨hpos, hscaled⟩ := scaleRatio_spec two_pos num hden (-e)
    have hround :
        roundHalfEven (scaleRatio 2 (-e) num den).1 (scaleRatio 2 (-e) num den).2 = m := by
      refine roundHalfEven_eq_of_near hpos ?_
      rw [hscaled, Nat.cast_ofNat]
      exact lt_of_le_of_lt h.scaled hvalue.nearness_lt
    rw [ofRatio_eq negative hnum he hround, if_neg hvalue.mantissa_lt.ne,
      if_neg (not_lt.mpr hvalue.le_greatest)]
  · -- with the lower exponent it is rounded up to the power of two
    obtain ⟨hpos, hscaled⟩ := scaleRatio_spec two_pos num hden (-(e - 1))
    have hdouble : (num : ℚ) / den * 2 ^ (-(e - 1)) = 2 * (num / den * 2 ^ (-e)) := by
      rw [show -(e - 1) = -e + 1 by ring, zpow_add_one₀ (by norm_num)]
      ring
    have hround :
        roundHalfEven (scaleRatio 2 (-(e - 1)) num den).1 (scaleRatio 2 (-(e - 1)) num den).2 =
          2 ^ 53 := by
      have hnear := abs_le.mp h.scaled
      push_cast at hnear
      refine roundHalfEven_eq_of_near hpos ?_
      rw [hscaled, Nat.cast_ofNat, hdouble, abs_lt]
      push_cast
      constructor <;> linarith
    rw [ofRatio_eq negative hnum he hround, if_pos rfl, sub_add_cancel,
      if_neg (not_lt.mpr hvalue.le_greatest)]

end OfRatio

end Values

/-! ## What rounding gives -/

/-- A floating-point number as rounding gives it: a value of the format, or none that is finite. -/
def IsRounded : Binary64 → Prop
  | .finite _ m e => IsValue m e
  | .infinite _ => True
  | .nan => True

lemma isValue_zero : IsValue 0 leastExponent where
  mantissa_lt := by decide
  least_le := le_refl _
  le_greatest := by decide
  normal := .inr rfl

section Rounded

variable {num den : Nat} (hnum : 0 < num) (hden : 0 < den)
include hnum hden

/-- With the exponent of a quotient, its integer part has no more bits than a mantissa, and as many
unless the exponent is the least one. -/
lemma scaled_bounds {e : Int} (he : exponentFor num den = e) :
    (scaleRatio 2 (-e) num den).1 / (scaleRatio 2 (-e) num den).2 < 2 ^ 53 ∧
      (e ≠ leastExponent →
        2 ^ 52 ≤ (scaleRatio 2 (-e) num den).1 / (scaleRatio 2 (-e) num den).2) := by
  have hquotient : (0 : ℚ) < num / den := by positivity
  rw [exponentFor_eq hnum hden] at he
  obtain ⟨hpos, hscaled⟩ := scaleRatio_spec two_pos num hden (-e)
  have hpos' : (0 : ℚ) < (scaleRatio 2 (-e) num den).2 := Nat.cast_pos.mpr hpos
  rw [Nat.cast_ofNat] at hscaled
  constructor
  · have hlog : Int.log 2 ((num : ℚ) / den) < 53 + e := by omega
    rw [log_lt_add_iff hquotient, ← hscaled, div_lt_iff₀ hpos'] at hlog
    rw [Nat.div_lt_iff_lt_mul hpos]
    exact_mod_cast hlog
  · intro hne
    have hlog : ¬Int.log 2 ((num : ℚ) / den) < 52 + e := by omega
    rw [log_lt_add_iff hquotient, ← hscaled, not_lt, le_div_iff₀ hpos'] at hlog
    rw [Nat.le_div_iff_mul_le hpos]
    exact_mod_cast hlog

end Rounded

/-- **Rounding gives a value of the format**, or an infinity. -/
theorem isRounded_ofRatio (negative : Bool) (num : Nat) {den : Nat} (hden : 0 < den) :
    (ofRatio negative num den).IsRounded := by
  rcases Nat.eq_zero_or_pos num with rfl | hnum
  · exact isValue_zero
  obtain ⟨hhigh, hlow⟩ := scaled_bounds hnum hden rfl
  have hround := roundHalfEven_cases
    (scaleRatio 2 (-exponentFor num den) num den).1 (scaleRatio 2 (-exponentFor num den) num den).2
  have hleast : leastExponent ≤ exponentFor num den := le_max_right _ _
  rw [ofRatio_eq negative hnum rfl rfl]
  generalize (scaleRatio 2 (-exponentFor num den) num den).1 = n at hhigh hlow hround ⊢
  generalize (scaleRatio 2 (-exponentFor num den) num den).2 = d at hhigh hlow hround ⊢
  generalize exponentFor num den = e at hlow hleast ⊢
  split
  next hcarry =>
    split
    next => trivial
    next hle => exact ⟨by decide, by omega, by omega, .inl (le_refl _)⟩
  next hcarry =>
    split
    next => trivial
    next hle =>
      refine ⟨by omega, hleast, by omega, ?_⟩
      by_cases he : e = leastExponent
      · exact .inr he
      · have := hlow he
        exact .inl (by omega)

/-- What a decimal is read as is a value of the format too. -/
theorem isRounded_ofDecimal (negative : Bool) (digits : Nat) (power : Int) :
    (ofDecimal negative digits power).IsRounded := by
  obtain ⟨hden, -⟩ := scaleRatio_spec (show 0 < 10 by decide) digits Nat.one_pos power
  unfold ofDecimal
  split
  next => exact isValue_zero
  split
  next => trivial
  split
  next => exact isValue_zero
  next => exact isRounded_ofRatio negative _ hden

end Binary64

end HoneypotAudit.Number
