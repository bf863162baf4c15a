import HoneypotAudit.Number.Decimal
import HoneypotAudit.Proofs.Number.Rounding
import HoneypotAudit.Proofs.Text.Integer
import Mathlib.Data.Nat.Cast.Order.Field

/-!
# The fewest digits of a floating-point number

`shortest?` finds a decimal for every positive value of the format, and the decimal is read as that
value, however its digits and its power are split up (`shortest?_spec`): at the latest the nearest
decimal of seventeen digits is near enough.
-/

namespace HoneypotAudit.Number

open HoneypotAudit.Text Binary64

/-- The rational number that a decimal is. -/
def decimalValue (digits : Nat) (power : Int) : ℚ :=
  digits * 10 ^ power

lemma decimalValue_succ (digits : Nat) (power : Int) :
    decimalValue (digits + 1) power = decimalValue digits power + 10 ^ power := by
  rw [decimalValue, decimalValue, Nat.cast_add_one, add_one_mul]

/-! ## Decimals in the range of the format -/

/-- A positive number far inside what is read without a shortcut. -/
def InRange (q : ℚ) : Prop :=
  (10 : ℚ) ^ (-400 : Int) ≤ q ∧ q ≤ 10 ^ (400 : Int)

/-- Of the decimal digits of a number there are enough for three tenths of its binary digits. -/
lemma ten_pow_le_of_log2 {n : Nat} (hn : 0 < n) : 10 ^ (3 * n.log2 / 10) ≤ n := by
  have hpow : 10 ^ (3 * n.log2 / 10) ≤ 2 ^ n.log2 := by
    rw [← Nat.pow_le_pow_iff_left (show 10 ≠ 0 by decide)]
    calc (10 ^ (3 * n.log2 / 10)) ^ 10 = 10 ^ (3 * n.log2 / 10 * 10) := (pow_mul _ _ _).symm
      _ ≤ 10 ^ (3 * n.log2) := Nat.pow_le_pow_right (by decide) (Nat.div_mul_le_self _ _)
      _ = (10 ^ 3) ^ n.log2 := pow_mul _ _ _
      _ ≤ (2 ^ 10) ^ n.log2 := Nat.pow_le_pow_left (by decide) _
      _ = (2 ^ n.log2) ^ 10 := by rw [← pow_mul, ← pow_mul, Nat.mul_comm]
  exact hpow.trans (Nat.log2_self_le hn.ne')

/-- Of the decimal digits of a number there are no more than a third of its binary digits. -/
lemma lt_ten_pow_of_log2 (n : Nat) : n < 10 ^ (n.log2 / 3 + 1) := by
  calc n < 2 ^ (n.log2 + 1) := Nat.lt_log2_self
    _ ≤ 2 ^ (3 * (n.log2 / 3 + 1)) := Nat.pow_le_pow_right (by decide) (by omega)
    _ = (2 ^ 3) ^ (n.log2 / 3 + 1) := pow_mul _ _ _
    _ ≤ 10 ^ (n.log2 / 3 + 1) := Nat.pow_le_pow_left (by decide) _

lemma le_decimalValue {digits k : Nat} (hk : 10 ^ k ≤ digits) (power : Int) :
    (10 : ℚ) ^ (power + k) ≤ decimalValue digits power := by
  have hk' : (10 : ℚ) ^ k ≤ digits := by exact_mod_cast hk
  rw [decimalValue, add_comm, zpow_add₀ (by norm_num), zpow_natCast]
  exact mul_le_mul_of_nonneg_right hk' (zpow_pos (by norm_num) _).le

lemma decimalValue_lt {digits k : Nat} (hk : digits < 10 ^ k) (power : Int) :
    decimalValue digits power < (10 : ℚ) ^ (power + k) := by
  have hk' : (digits : ℚ) < (10 : ℚ) ^ k := by exact_mod_cast hk
  rw [decimalValue, add_comm, zpow_add₀ (by norm_num), zpow_natCast]
  exact mul_lt_mul_of_pos_right hk' (zpow_pos (by norm_num) _)

section Decimals

variable {digits : Nat} {power : Int} (hdigits : 0 < digits)
include hdigits

/-- In that range a decimal is read as what its quotient is rounded to. -/
lemma ofDecimal_eq_ofRatio (negative : Bool) (h : InRange (decimalValue digits power)) :
    ofDecimal negative digits power =
      ofRatio negative (scaleRatio 10 power digits 1).1 (scaleRatio 10 power digits 1).2 := by
  have hten : (1 : ℚ) < 10 := by norm_num
  have hlarge : ¬400 < power + (3 * digits.log2 / 10 : Nat) := by
    intro hlarge
    have hfrom := le_decimalValue (ten_pow_le_of_log2 hdigits) power
    exact absurd (hfrom.trans h.2) (not_le.mpr (zpow_lt_zpow_right₀ hten hlarge))
  have hsmall : ¬power + (digits.log2 / 3 + 1 : Nat) < -400 := by
    intro hsmall
    have hto := decimalValue_lt (lt_ten_pow_of_log2 digits) power
    exact absurd (h.1.trans_lt hto) (not_lt.mpr (zpow_lt_zpow_right₀ hten hsmall).le)
  rw [ofDecimal, if_neg hdigits.ne', if_neg hlarge, if_neg hsmall]

lemma scaleRatio_decimal (power : Int) : 0 < (scaleRatio 10 power digits 1).1 ∧
    0 < (scaleRatio 10 power digits 1).2 ∧
      ((scaleRatio 10 power digits 1).1 : ℚ) / (scaleRatio 10 power digits 1).2 =
        decimalValue digits power := by
  obtain ⟨hpos, hscaled⟩ := scaleRatio_spec (show 0 < 10 by decide) digits Nat.one_pos power
  refine ⟨scaleRatio_pos (by decide) hdigits power, hpos, ?_⟩
  rw [hscaled, decimalValue, Nat.cast_one, div_one, Nat.cast_ofNat]

lemma ofDecimal_of_positive (negative : Bool) {m : Nat} {e : Int}
    (hrange : InRange (decimalValue digits power))
    (h : ofDecimal false digits power = .finite false m e) :
    ofDecimal negative digits power = .finite negative m e := by
  obtain ⟨hnum, -, -⟩ := scaleRatio_decimal hdigits power
  rw [ofDecimal_eq_ofRatio hdigits _ hrange] at h ⊢
  exact ofRatio_of_positive negative hnum h

/-- **A decimal is read as its value alone says.** -/
theorem ofDecimal_congr (negative : Bool) {digits' : Nat} {power' : Int} (hdigits' : 0 < digits')
    (h : InRange (decimalValue digits power))
    (hvalue : decimalValue digits' power' = decimalValue digits power) :
    ofDecimal negative digits' power' = ofDecimal negative digits power := by
  obtain ⟨hnum, hden, hscaled⟩ := scaleRatio_decimal hdigits power
  obtain ⟨hnum', hden', hscaled'⟩ := scaleRatio_decimal hdigits' power'
  rw [ofDecimal_eq_ofRatio hdigits negative h, ofDecimal_eq_ofRatio hdigits' negative (hvalue ▸ h)]
  exact ofRatio_congr negative hnum' hden' hnum hden (by rw [hscaled, hscaled', hvalue])

/-- A decimal near a value is read as the value. -/
lemma ofDecimal_eq_of_near (negative : Bool) {m : Nat} {e : Int} (hm : IsValue m e)
    (hrange : InRange (decimalValue digits power))
    (h : IsNear (decimalValue digits power) (m * 2 ^ e)) :
    ofDecimal negative digits power = .finite negative m e := by
  obtain ⟨hnum, hden, hscaled⟩ := scaleRatio_decimal hdigits power
  rw [ofDecimal_eq_ofRatio hdigits negative hrange]
  exact ofRatio_eq_of_near negative hm hnum hden (by rwa [hscaled])

end Decimals

/-! ## The first digit -/

/-- A number has no more digits than it needs. -/
lemma ten_pow_digitCount_le {n : Nat} (hn : 0 < n) : 10 ^ (digitCount n - 1) ≤ n := by
  rcases Nat.eq_zero_or_pos (digitCount n - 1) with hone | hmore
  · rw [hone]
    exact hn
  · by_contra hlt
    have hlength := length_decimal_le hmore (Nat.lt_of_not_le hlt)
    rw [digitCount] at hmore hlength
    omega

/-- The search for the first digit comes to a place behind it, if there is one in reach. -/
lemma le_mul_pow_leadingZeros {num den k fuel : Nat}
    (h : ∃ j, k ≤ j ∧ j < k + fuel ∧ den ≤ num * 10 ^ j) :
    den ≤ num * 10 ^ leadingZeros num den k fuel := by
  induction fuel generalizing k with
  | zero =>
    obtain ⟨j, hfrom, hto, -⟩ := h
    omega
  | succ fuel ih =>
    rw [leadingZeros]
    split
    next hfound => exact hfound
    next hmissed =>
      obtain ⟨j, hfrom, hto, hj⟩ := h
      refine ih ⟨j, ?_, by omega, hj⟩
      rcases Nat.lt_or_ge k j with hlt | hge
      · exact hlt
      · obtain rfl : j = k := Nat.le_antisymm hge hfrom
        exact absurd hj hmissed

/-- The power of the first digit is no greater than the number. -/
lemma zpow_leadingPower_le {num den : Nat} (hnum : 0 < num) (hden : 0 < den)
    (h : (10 : ℚ) ^ (-400 : Int) ≤ num / den) : (10 : ℚ) ^ leadingPower num den ≤ num / den := by
  have hden' : (0 : ℚ) < den := Nat.cast_pos.mpr hden
  rw [leadingPower]
  split
  next hle =>
    have hwhole : 0 < num / den := Nat.div_pos hle hden
    calc (10 : ℚ) ^ ((digitCount (num / den) : Int) - 1)
        = ((10 ^ (digitCount (num / den) - 1) : ℕ) : ℚ) := by
          have hpos : 0 < digitCount (num / den) := List.length_pos_iff.mpr (decimal_ne_nil _)
          rw [Nat.cast_pow, Nat.cast_ofNat, ← zpow_natCast, Nat.cast_sub hpos, Nat.cast_one]
      _ ≤ ((num / den : ℕ) : ℚ) := Nat.cast_le.mpr (ten_pow_digitCount_le hwhole)
      _ ≤ num / den := Nat.cast_div_le
  next hlt =>
    have hreach : den ≤ num * 10 ^ 400 := by
      rw [zpow_neg, inv_le_comm₀ (zpow_pos (by norm_num) _) (by positivity), inv_div,
        div_le_iff₀ (by positivity)] at h
      have hreach : (den : ℚ) ≤ num * 10 ^ 400 := by
        rw [mul_comm]
        exact h
      exact_mod_cast hreach
    have hfound : den ≤ num * 10 ^ leadingZeros num den 1 400 :=
      le_mul_pow_leadingZeros ⟨400, by decide, by decide, hreach⟩
    rw [zpow_neg, zpow_natCast, inv_le_comm₀ (by positivity) (by positivity), inv_div,
      div_le_iff₀ (by positivity), mul_comm]
    exact_mod_cast hfound

/-! ## Neighbours on a grid -/

section Grid

variable {num den : Nat} (hden : 0 < den) (power : Int)

/-- The digits of the neighbour below a quotient on a grid. -/
def digitsBelow (num den : Nat) (power : Int) : Nat :=
  (scaleRatio 10 (-power) num den).1 / (scaleRatio 10 (-power) num den).2

/-- The digits of the neighbours of a quotient on a grid. -/
def IsNeighbour (num den : Nat) (power : Int) (digits : Nat) : Prop :=
  digits = digitsBelow num den power ∨ digits = digitsBelow num den power + 1

/-- What is found on a grid is a neighbour that passes the test. -/
lemma nearestOnGrid?_eq_some {accept : Scaled → Bool} {s : Scaled}
    (h : nearestOnGrid? accept num den power = some s) :
    accept s = true ∧ s.power = power ∧ IsNeighbour num den power s.digits := by
  unfold nearestOnGrid? at h
  dsimp only at h
  split at h
  next hbelow habove =>
    split at h
    next => cases h; exact ⟨hbelow, rfl, .inl rfl⟩
    next => cases h; exact ⟨habove, rfl, .inr rfl⟩
  next hbelow _ => cases h; exact ⟨hbelow, rfl, .inl rfl⟩
  next _ habove => cases h; exact ⟨habove, rfl, .inr rfl⟩
  next => cases h

/-- If nothing is found, no neighbour passes the test. -/
lemma nearestOnGrid?_eq_none {accept : Scaled → Bool}
    (h : nearestOnGrid? accept num den power = none) {digits : Nat}
    (hdigits : IsNeighbour num den power digits) :
    accept ⟨digits, power⟩ = false := by
  unfold nearestOnGrid? at h
  dsimp only at h
  split at h
  next =>
    split at h
    next => cases h
    next => cases h
  next => cases h
  next => cases h
  next hbelow habove =>
    rcases hdigits with rfl | rfl
    · exact hbelow
    · exact habove

include hden

/-- A quotient lies between its neighbours. -/
lemma decimalValue_digitsBelow :
    decimalValue (digitsBelow num den power) power ≤ num / den ∧
      (num : ℚ) / den < decimalValue (digitsBelow num den power + 1) power := by
  obtain ⟨hpos, hscaled⟩ := scaleRatio_spec (show 0 < 10 by decide) num hden (-power)
  have hpos' : (0 : ℚ) < (scaleRatio 10 (-power) num den).2 := Nat.cast_pos.mpr hpos
  have hten : (0 : ℚ) < 10 ^ power := zpow_pos (by norm_num) power
  have hquotient : (num : ℚ) / den =
      (scaleRatio 10 (-power) num den).1 / (scaleRatio 10 (-power) num den).2 * 10 ^ power := by
    rw [hscaled, Nat.cast_ofNat, zpow_neg, inv_mul_cancel_right₀ hten.ne']
  rw [hquotient, decimalValue, decimalValue]
  constructor
  · exact mul_le_mul_of_nonneg_right Nat.cast_div_le hten.le
  · refine mul_lt_mul_of_pos_right ?_ hten
    rw [div_lt_iff₀ hpos']
    exact_mod_cast Nat.lt_mul_of_div_lt (Nat.lt_succ_self _) hpos

/-- One neighbour is no farther away than half the distance of both. -/
lemma exists_near_digits : ∃ digits, IsNeighbour num den power digits ∧
    2 * |decimalValue digits power - num / den| ≤ 10 ^ power := by
  obtain ⟨hbelow, habove⟩ := decimalValue_digitsBelow hden power
  rcases le_total (2 * ((num : ℚ) / den - decimalValue (digitsBelow num den power) power))
    (10 ^ power) with hnear | hfar
  · refine ⟨_, .inl rfl, ?_⟩
    rwa [abs_sub_comm, abs_of_nonneg (sub_nonneg.mpr hbelow)]
  · refine ⟨_, .inr rfl, ?_⟩
    rw [abs_of_pos (sub_pos.mpr habove), decimalValue_succ]
    linarith

/-- On a grid that is no coarser than the quotient its neighbours are of its size. -/
lemma decimalValue_of_neighbour (hgrid : (10 : ℚ) ^ power ≤ num / den) {digits : Nat}
    (hdigits : IsNeighbour num den power digits) :
    0 < digits ∧ (num : ℚ) / den / 2 ≤ decimalValue digits power ∧
      decimalValue digits power ≤ 2 * (num / den) := by
  obtain ⟨hbelow, habove⟩ := decimalValue_digitsBelow hden power
  have hten : (0 : ℚ) < 10 ^ power := zpow_pos (by norm_num) power
  rw [decimalValue_succ] at habove
  have hone : 0 < digitsBelow num den power := by
    by_contra hzero
    rw [Nat.eq_zero_of_not_pos hzero, decimalValue, Nat.cast_zero, zero_mul, zero_add] at habove
    exact absurd hgrid (not_le.mpr habove)
  have hleast : (10 : ℚ) ^ power ≤ decimalValue (digitsBelow num den power) power :=
    le_mul_of_one_le_left hten.le (Nat.one_le_cast.mpr hone)
  rcases hdigits with rfl | rfl
  · exact ⟨hone, by linarith, by linarith⟩
  · rw [decimalValue_succ]
    exact ⟨Nat.succ_pos _, by linarith, by linarith⟩

end Grid

/-! ## Dropping zeros -/

/-- Zeros at the end of the digits are no matter of the value. -/
lemma decimalValue_trim (fuel : Nat) {s : Scaled} (hs : 0 < s.digits) :
    0 < (s.trim fuel).digits ∧
      decimalValue (s.trim fuel).digits (s.trim fuel).power = decimalValue s.digits s.power := by
  induction fuel generalizing s with
  | zero => exact ⟨hs, rfl⟩
  | succ fuel ih =>
    rw [Scaled.trim]
    split
    next hzero =>
      obtain ⟨d, hd⟩ : ∃ d, s.digits = 10 * d := ⟨s.digits / 10, by omega⟩
      obtain ⟨hpos, hvalue⟩ :=
        ih (s := ⟨s.digits / 10, s.power + 1⟩) (show 0 < s.digits / 10 by omega)
      refine ⟨hpos, hvalue.trans ?_⟩
      rw [decimalValue, decimalValue, hd, Nat.mul_div_cancel_left d (by decide),
        zpow_add_one₀ (by norm_num), Nat.cast_mul, Nat.cast_ofNat]
      ring
    next => exact ⟨hs, rfl⟩

/-! ## The fewest digits -/

section Shortest

variable {m : Nat} {e : Int} (hvalue : IsValue m e) (hm : 0 < m)
include hvalue hm

/-- Values of the format are far inside the range. -/
lemma value_bounds :
    2 * (10 : ℚ) ^ (-400 : Int) ≤ m * 2 ^ e ∧ 2 * ((m : ℚ) * 2 ^ e) ≤ 10 ^ (400 : Int) := by
  have hone : (1 : ℚ) ≤ 2 := by norm_num
  have hpow : (2 : ℚ) ^ (1200 : Int) ≤ 10 ^ (400 : Int) := by
    rw [show (1200 : Int) = 3 * 400 from rfl, zpow_mul]
    exact zpow_le_zpow_left₀ (by norm_num) (by norm_num) (by norm_num)
  have hm' : (1 : ℚ) ≤ m := Nat.one_le_cast.mpr hm
  have hm'' : (m : ℚ) ≤ 2 ^ (53 : Int) := by
    exact_mod_cast hvalue.mantissa_lt.le
  have hpos : (0 : ℚ) < 2 ^ e := zpow_pos (by norm_num) e
  constructor
  · calc 2 * (10 : ℚ) ^ (-400 : Int) = 2 * (10 ^ (400 : Int))⁻¹ := by rw [zpow_neg]
      _ ≤ 2 * (2 ^ (1200 : Int))⁻¹ := by
          refine mul_le_mul_of_nonneg_left ?_ (by norm_num)
          exact inv_anti₀ (zpow_pos (by norm_num) _) hpow
      _ = 2 ^ (-1199 : Int) := by rw [← zpow_neg, ← zpow_one_add₀ (by norm_num)]; rfl
      _ ≤ 2 ^ e := zpow_le_zpow_right₀ hone ((by decide : (-1199 : Int) ≤ leastExponent).trans
          hvalue.least_le)
      _ ≤ m * 2 ^ e := le_mul_of_one_le_left hpos.le hm'
  · calc 2 * ((m : ℚ) * 2 ^ e) ≤ 2 * (2 ^ (53 : Int) * 2 ^ e) := by
          refine mul_le_mul_of_nonneg_left ?_ (by norm_num)
          exact mul_le_mul_of_nonneg_right hm'' hpos.le
      _ = 2 ^ (1 + (53 + e)) := by rw [zpow_one_add₀ (by norm_num), zpow_add₀ (by norm_num)]
      _ ≤ 2 ^ (1200 : Int) := by
          refine zpow_le_zpow_right₀ hone ?_
          have hle := hvalue.le_greatest
          rw [greatestExponent] at hle
          omega
      _ ≤ 10 ^ (400 : Int) := hpow

section Neighbours

variable {num den : Nat} (hnum : 0 < num) (hden : 0 < den)
  (hquotient : (num : ℚ) / den = m * 2 ^ e)
include hnum hden hquotient

/-- The first digit of a value has no greater power than the value. -/
lemma zpow_leadingPower_le_value : (10 : ℚ) ^ leadingPower num den ≤ num / den := by
  obtain ⟨hfrom, -⟩ := value_bounds hvalue hm
  refine zpow_leadingPower_le hnum hden ?_
  rw [hquotient]
  exact (le_mul_of_one_le_left (zpow_pos (by norm_num) _).le (by norm_num)).trans hfrom

/-- On a grid no coarser than its first digit, the neighbours of a value are in the range. -/
lemma inRange_of_neighbour {k digits : Nat}
    (h : IsNeighbour num den (leadingPower num den - k) digits) :
    0 < digits ∧ InRange (decimalValue digits (leadingPower num den - k)) := by
  obtain ⟨hfrom, hto⟩ := value_bounds hvalue hm
  rw [← hquotient] at hfrom hto
  have hgrid : (10 : ℚ) ^ (leadingPower num den - k) ≤ num / den :=
    (zpow_le_zpow_right₀ (by norm_num) (by omega)).trans
      (zpow_leadingPower_le_value hvalue hm hnum hden hquotient)
  obtain ⟨hpos, hlow, hhigh⟩ := decimalValue_of_neighbour hden _ hgrid h
  exact ⟨hpos, ((le_div_iff₀' two_pos).mpr hfrom).trans hlow, hhigh.trans hto⟩

/-- Seventeen digits are enough: one of the neighbours is read as the value. -/
lemma exists_neighbour_readsBack : ∃ digits,
    IsNeighbour num den (leadingPower num den - (16 : Nat)) digits ∧
      ofDecimal false digits (leadingPower num den - (16 : Nat)) = .finite false m e := by
  obtain ⟨digits, hdigits, hnear⟩ := exists_near_digits hden (leadingPower num den - (16 : Nat))
  obtain ⟨hpos, hin⟩ := inRange_of_neighbour hvalue hm hnum hden hquotient hdigits
  have htop := zpow_leadingPower_le_value hvalue hm hnum hden hquotient
  refine ⟨digits, hdigits, ofDecimal_eq_of_near hpos false hvalue hin ?_⟩
  rw [IsNear, ← hquotient, ← div_div]
  calc _ ≤ (10 : ℚ) ^ (leadingPower num den - (16 : Nat)) / 2 := (le_div_iff₀' two_pos).mpr hnear
    _ = 10 ^ leadingPower num den / 10 ^ 16 / 2 := by rw [zpow_sub₀ (by norm_num), zpow_natCast]
    _ ≤ num / den / 10 ^ 16 / 2 := by gcongr
    _ = num / den / 2 / 10 ^ 16 := by rw [div_right_comm]

end Neighbours

/-- **The fewest digits are read back**, also if they are written with another power. -/
theorem shortest?_spec : ∃ s, shortest? m e = some s ∧ 0 < s.digits ∧
    ∀ negative digits power, 0 < digits →
      decimalValue digits power = decimalValue s.digits s.power →
      ofDecimal negative digits power = .finite negative m e := by
  obtain ⟨hden, hquotient⟩ := scaleRatio_spec two_pos m Nat.one_pos e
  have hnum : 0 < (scaleRatio 2 e m 1).1 := scaleRatio_pos two_pos hm e
  have hshortest : shortest? m e = ((List.range 17).findSome? fun (k : Nat) =>
      nearestOnGrid? (fun s => ofDecimal false s.digits s.power == .finite false m e)
        (scaleRatio 2 e m 1).1 (scaleRatio 2 e m 1).2
        (leadingPower (scaleRatio 2 e m 1).1 (scaleRatio 2 e m 1).2 - k)).map (Scaled.trim 20) :=
    rfl
  rw [Nat.cast_one, div_one, Nat.cast_ofNat] at hquotient
  generalize (scaleRatio 2 e m 1).1 = num at hnum hquotient hshortest
  generalize (scaleRatio 2 e m 1).2 = den at hden hquotient hshortest
  rw [hshortest]
  cases hfound : (List.range 17).findSome? fun (k : Nat) =>
      nearestOnGrid? (fun s => ofDecimal false s.digits s.power == .finite false m e) num den
        (leadingPower num den - k) with
  | none =>
    exfalso
    have hnone := List.findSome?_eq_none_iff.mp hfound 16 (by decide)
    obtain ⟨digits, hdigits, hread⟩ := exists_neighbour_readsBack hvalue hm hnum hden hquotient
    exact Bool.false_ne_true
      ((nearestOnGrid?_eq_none _ hnone hdigits).symm.trans (beq_iff_eq.mpr hread))
  | some s =>
    obtain ⟨k, -, hk⟩ := List.exists_of_findSome?_eq_some hfound
    obtain ⟨haccept, hpower, hdigits⟩ := nearestOnGrid?_eq_some _ hk
    obtain ⟨hpos, hin⟩ := inRange_of_neighbour hvalue hm hnum hden hquotient hdigits
    rw [← hpower] at hin
    obtain ⟨hpos', htrim⟩ := decimalValue_trim 20 hpos
    refine ⟨s.trim 20, rfl, hpos', fun negative digits power hdigits' hsame => ?_⟩
    rw [ofDecimal_congr hpos negative hdigits' hin (hsame.trans htrim)]
    exact ofDecimal_of_positive hpos negative hin (beq_iff_eq.mp haccept)

end Shortest

end HoneypotAudit.Number
