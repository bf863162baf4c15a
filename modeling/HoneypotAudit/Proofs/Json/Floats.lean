import HoneypotAudit.Proofs.Json.ValueTexts
import HoneypotAudit.Proofs.Number.Shortest

/-!
# Floating-point numbers in JSON

A finite floating-point number is read back from whichever layout it is written in
(`readsAs_floatText`): each layout writes the fewest digits with zeros, a point and an exponent
such that the value stays the same (`readsDecimal_scaled`), and a decimal is read as its value alone
says.
-/

namespace HoneypotAudit.Json

open HoneypotAudit.Text HoneypotAudit.Number

lemma isAsciiDigit_of_mem_zeros {n : Nat} {c : Char} (h : c ∈ List.replicate n '0') :
    isAsciiDigit c = true := by
  rw [List.eq_of_mem_replicate h]
  rfl

/-! ## Exponents -/

/-- An exponent is read back. -/
lemma readExponent?_exponent (l : Layout) (p : Int) {tail : List Char} (htail : EndsNumber tail) :
    readExponent? (l.exponent p ++ tail) = some (p, tail) := by
  obtain ⟨ds, hds⟩ : ∃ ds, padLeft l.exponentWidth '0' (decimal p.natAbs) = ds := ⟨_, rfl⟩
  have hdigits : ∀ d ∈ ds, isAsciiDigit d = true := by
    intro d hd
    rw [← hds, padLeft, List.mem_append] at hd
    exact hd.elim isAsciiDigit_of_mem_zeros isAsciiDigit_of_mem_decimal
  have hvalue : spelled ds = p.natAbs := by
    rw [← hds, padLeft, spelled_replicate_append, spelled_decimal]
  have hne : ds ≠ [] := by
    rw [← hds, padLeft]
    exact List.append_ne_nil_of_right_ne_nil _ (decimal_ne_nil _)
  obtain ⟨d, rest, rfl⟩ := List.exists_cons_of_ne_nil hne
  have hspan := spanDigits_digits hdigits fun c hc => (htail c hc).1
  have hbody {sign : List Char} (negative : Bool)
      (hsplit : Integer.splitSign (sign ++ (d :: rest ++ tail)) = (negative, d :: rest ++ tail))
      (hsign : negative = decide (p < 0)) :
      readExponent? ('e' :: (sign ++ (d :: rest ++ tail))) = some (p, tail) := by
    simp only [readExponent?, hsplit, hspan, digitsValue_eq, hvalue, hsign, Integer.withSign_natAbs]
    rfl
  have hminus : d ≠ '-' ∧ d ≠ '+' := by
    have hd := hdigits d List.mem_cons_self
    constructor <;> (rintro rfl; cases hd)
  have htext : l.exponent p ++ tail =
      'e' :: ((if p < 0 then ['-'] else if l.plus then ['+'] else []) ++ (d :: rest ++ tail)) := by
    rw [Layout.exponent, hds]
    simp
  rw [htext]
  split
  next hneg => exact hbody true rfl (by simp [hneg])
  next hpos =>
    split
    next => exact hbody false rfl (by simp [hpos])
    next => exact hbody false (by simp [Integer.splitSign, hminus]) (by simp [hpos])

/-! ## Decimals in a layout -/

/-- A text of digits and marks is read as a decimal of the same value. -/
def ReadsDecimal (negative : Bool) (text : List Char) (s : Scaled) : Prop :=
  (∃ d ds, text = d :: ds ∧ isAsciiDigit d = true) ∧
  ∀ tail, EndsNumber tail → ∃ digits power, 0 < digits ∧
    decimalValue digits power = decimalValue s.digits s.power ∧
    readNumber negative (text ++ tail) =
      .ok (.float (Binary64.ofDecimal negative digits power), tail)

/-- Digits that hold the value of a decimal without being zero. -/
lemma pos_of_decimalValue_eq {s : Scaled} (hs : 0 < s.digits) {digits : Nat} {power : Int}
    (h : decimalValue digits power = decimalValue s.digits s.power) : 0 < digits := by
  by_contra hzero
  have hpos : (0 : ℚ) < decimalValue s.digits s.power :=
    mul_pos (Nat.cast_pos.mpr hs) (zpow_pos (by norm_num) _)
  rw [← h, Nat.eq_zero_of_not_pos hzero, decimalValue, Nat.cast_zero, zero_mul] at hpos
  exact lt_irrefl _ hpos

/-- Digits begin with one, whatever is behind them. -/
lemma exists_digit_cons {ds : List Char} (hds : ∀ d ∈ ds, isAsciiDigit d = true) (hne : ds ≠ [])
    (behind : List Char) : ∃ d rest, ds ++ behind = d :: rest ∧ isAsciiDigit d = true := by
  obtain ⟨d, rest, rfl⟩ := List.exists_cons_of_ne_nil hne
  exact ⟨d, rest ++ behind, rfl, hds d List.mem_cons_self⟩

lemma spelled_append_zeros (ds : List Char) (k : Nat) :
    spelled (ds ++ List.replicate k '0') = spelled ds * 10 ^ k := by
  induction k with
  | zero => simp
  | succ k ih =>
    rw [List.replicate_succ', ← List.append_assoc, spelled_append_singleton, ih, pow_succ,
      mul_assoc]
    rfl

/-- Zeros behind digits count for the power. -/
lemma decimalValue_append_zeros (ds : List Char) (k : Nat) (power : Int) :
    decimalValue (spelled (ds ++ List.replicate k '0')) power =
      decimalValue (spelled ds) (power + k) := by
  rw [spelled_append_zeros, decimalValue, decimalValue, add_comm power, zpow_add₀ (by norm_num),
    zpow_natCast, ← mul_assoc, Nat.cast_mul, Nat.cast_pow, Nat.cast_ofNat]

section Layouts

variable {s : Scaled} (hs : 0 < s.digits) (negative : Bool) {ds fs : List Char}
include hs

section Parts

variable (hds : ∀ d ∈ ds, isAsciiDigit d = true) (hne : ds ≠ [])
  (hzero : ds.head? = some '0' → ds = ['0'])
include hds hne hzero

/-- Digits with an exponent. -/
lemma readsDecimal_exponent (l : Layout) {p : Int}
    (hvalue : decimalValue (spelled ds) p = decimalValue s.digits s.power) :
    ReadsDecimal negative (ds ++ l.exponent p) s := by
  refine ⟨exists_digit_cons hds hne _, fun tail htail => ?_⟩
  refine ⟨_, p, pos_of_decimalValue_eq hs hvalue, hvalue, ?_⟩
  rw [List.append_assoc]
  exact readNumber_exponent negative hds hne hzero rfl (readExponent?_exponent l p htail)

variable (hfs : ∀ d ∈ fs, isAsciiDigit d = true) (hfs' : fs ≠ [])
include hfs hfs'

/-- Digits with a fraction. -/
lemma readsDecimal_fraction
    (hvalue : decimalValue (spelled (ds ++ fs)) (-fs.length) = decimalValue s.digits s.power) :
    ReadsDecimal negative (ds ++ '.' :: fs) s := by
  refine ⟨exists_digit_cons hds hne _, fun tail htail => ?_⟩
  have hnone : readExponent? tail = none := readExponent?_of_ne fun c hc => (htail c hc).2.2
  have hread :=
    readNumber_fraction negative hds hne hzero hfs hfs' (fun c hc => (htail c hc).1) hnone
  refine ⟨_, _, pos_of_decimalValue_eq hs hvalue, hvalue, ?_⟩
  rw [List.append_assoc, List.cons_append, hread]
  simp

/-- Digits with a fraction and an exponent. -/
lemma readsDecimal_fraction_exponent (l : Layout) {p : Int}
    (hvalue : decimalValue (spelled (ds ++ fs)) (p - fs.length) = decimalValue s.digits s.power) :
    ReadsDecimal negative (ds ++ '.' :: (fs ++ l.exponent p)) s := by
  refine ⟨exists_digit_cons hds hne _, fun tail htail => ?_⟩
  have hbehind : ∀ c ∈ (l.exponent p ++ tail).head?, isAsciiDigit c = false := by
    rintro c ⟨⟩
    decide
  have hread := readNumber_fraction negative hds hne hzero hfs hfs' hbehind
    (readExponent?_exponent l p htail)
  refine ⟨_, _, pos_of_decimalValue_eq hs hvalue, hvalue, ?_⟩
  rw [List.append_assoc, List.cons_append, List.append_assoc, hread]
  simp

end Parts

section Digits

variable (hds : ∀ d ∈ ds, isAsciiDigit d = true) (hne : ds ≠ []) (hhead : ds.head? ≠ some '0')
  (hspelled : spelled ds = s.digits)
include hds hne hspelled

/-- All digits stand behind the point, and zeros in front of them. -/
lemma readsDecimal_behind {k : Nat} (hpower : s.power = -(k + ds.length)) :
    ReadsDecimal negative ('0' :: '.' :: (List.replicate k '0' ++ ds)) s := by
  have hmore : ∀ d ∈ List.replicate k '0' ++ ds, isAsciiDigit d = true :=
    List.forall_mem_append.mpr ⟨fun d => isAsciiDigit_of_mem_zeros, hds⟩
  refine readsDecimal_fraction hs negative (List.forall_mem_singleton.mpr rfl)
    (List.cons_ne_nil '0' []) (fun _ => rfl) hmore (List.append_ne_nil_of_right_ne_nil _ hne) ?_
  rw [← List.append_assoc, List.singleton_append, ← List.replicate_succ,
    spelled_replicate_append, hspelled, List.length_append, List.length_replicate, hpower,
    Nat.cast_add]

include hhead

/-- All digits stand in front of the point, and zeros behind them. -/
lemma readsDecimal_before {k : Nat} (hpower : s.power = k) :
    ReadsDecimal negative (ds ++ List.replicate k '0' ++ ['.', '0']) s := by
  have hmore : ∀ d ∈ ds ++ List.replicate k '0', isAsciiDigit d = true :=
    List.forall_mem_append.mpr ⟨hds, fun d => isAsciiDigit_of_mem_zeros⟩
  have hhead' : (ds ++ List.replicate k '0').head? ≠ some '0' := by
    rwa [List.head?_append_of_ne_nil _ hne]
  refine readsDecimal_fraction hs negative hmore (List.append_ne_nil_of_left_ne_nil hne _)
    (fun h => absurd h hhead') (List.forall_mem_singleton.mpr rfl) (List.cons_ne_nil _ _) ?_
  rw [List.append_assoc, ← List.replicate_succ', decimalValue_append_zeros, hspelled, hpower]
  congr 1
  rw [List.length_singleton]
  omega

/-- The point stands between the digits. -/
lemma readsDecimal_between {k : Nat} (hpos : 0 < k) (hlt : k < ds.length)
    (hpower : s.power = k - ds.length) :
    ReadsDecimal negative (ds.take k ++ '.' :: ds.drop k) s := by
  have htake : ds.take k ≠ [] := by
    rw [Ne, List.take_eq_nil_iff]
    exact not_or.mpr ⟨hpos.ne', hne⟩
  have hdrop : ds.drop k ≠ [] := by
    rw [Ne, List.drop_eq_nil_iff]
    omega
  have hhead' : (ds.take k).head? ≠ some '0' := by
    rwa [List.head?_take, if_neg hpos.ne']
  refine readsDecimal_fraction hs negative (fun d hd => hds d (List.mem_of_mem_take hd)) htake
    (fun h => absurd h hhead') (fun d hd => hds d (List.mem_of_mem_drop hd)) hdrop ?_
  rw [List.take_append_drop, hspelled, List.length_drop, hpower]
  congr 1
  omega

end Digits

/-- **Whatever its layout, a decimal is read as one of its value.** -/
lemma readsDecimal_scaled (l : Layout) : ReadsDecimal negative (l.scaled s) s := by
  have hdigits : ∀ d ∈ decimal s.digits, isAsciiDigit d = true :=
    fun d => isAsciiDigit_of_mem_decimal
  have hne : decimal s.digits ≠ [] := decimal_ne_nil _
  have hhead : (decimal s.digits).head? ≠ some '0' := head?_decimal hs
  have hspelled := spelled_decimal s.digits
  rw [Layout.scaled]
  generalize decimal s.digits = ds at hdigits hne hhead hspelled ⊢
  split
  next hrange =>
    split
    next hpower => exact readsDecimal_before hs negative hdigits hne hhead hspelled (by omega)
    next hpower =>
      split
      next htop =>
        exact readsDecimal_between hs negative hdigits hne hhead hspelled (Nat.succ_pos _)
          (by omega) (by omega)
      next htop => exact readsDecimal_behind hs negative hdigits hne hspelled (by omega)
  next hrange =>
    match ds with
    | [] => exact absurd rfl hne
    | [d] =>
      refine readsDecimal_exponent hs negative hdigits hne (fun h => absurd h hhead) l ?_
      rw [hspelled]
      congr 1
      simp
    | d :: e :: rest =>
      have hrest : ∀ c ∈ e :: rest, isAsciiDigit c = true := fun c hc => hdigits c (.tail d hc)
      have hone : ∀ c ∈ [d], isAsciiDigit c = true :=
        List.forall_mem_singleton.mpr (hdigits d List.mem_cons_self)
      refine readsDecimal_fraction_exponent hs negative hone (List.cons_ne_nil d [])
        (fun h => absurd h hhead) hrest (List.cons_ne_nil _ _) l ?_
      rw [List.singleton_append, hspelled]
      congr 1
      simp only [List.length_cons]
      omega

end Layouts

/-! ## Numbers -/

lemma finite_zero (l : Layout) (negative : Bool) (e : Int) :
    l.finite negative 0 e = (if negative then ['-'] else []) ++ ['0', '.', '0'] := by
  cases negative <;> rfl

lemma finite_of_shortest? (l : Layout) (negative : Bool) {m : Nat} {e : Int} {s : Scaled}
    (hm : 0 < m) (h : shortest? m e = some s) :
    l.finite negative m e = (if negative then ['-'] else []) ++ l.scaled s := by
  rw [Layout.finite, if_neg hm.ne', h]
  cases negative <;> rfl

/-- **A finite floating-point number is read back.** -/
theorem readsAs_floatText (style : Style) {x : Binary64} (hx : x.IsFinite) :
    ReadsAs (floatText style x) (.float x) := by
  match x, hx with
  | .finite negative m e, hvalue =>
    rw [Binary64.IsFinite] at hvalue
    rw [floatText]
    rcases Nat.eq_zero_or_pos m with rfl | hm
    · obtain rfl : e = Binary64.leastExponent := hvalue.normal.resolve_left (by decide)
      rw [finite_zero]
      have hzero : ∀ d ∈ ['0'], isAsciiDigit d = true := List.forall_mem_singleton.mpr rfl
      refine readsAs_number rfl fun tail htail => ?_
      have hnone : readExponent? tail = none := readExponent?_of_ne fun c hc => (htail c hc).2.2
      exact readNumber_fraction negative hzero (List.cons_ne_nil _ _) (fun _ => rfl) hzero
        (List.cons_ne_nil _ _) (fun c hc => (htail c hc).1) hnone
    · obtain ⟨s, hs, hpos, hread⟩ := shortest?_spec hvalue hm
      obtain ⟨⟨d, ds, htext, hd⟩, hdecimal⟩ := readsDecimal_scaled hpos negative style.layout
      rw [finite_of_shortest? style.layout negative hm hs, htext]
      refine readsAs_number hd fun tail htail => ?_
      obtain ⟨digits, power, hdigits, hsame, hnumber⟩ := hdecimal tail htail
      rw [← htext, hnumber, hread negative digits power hdigits hsame]

end HoneypotAudit.Json
