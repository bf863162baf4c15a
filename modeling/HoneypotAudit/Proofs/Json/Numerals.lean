import HoneypotAudit.Proofs.Json.Tokens
import HoneypotAudit.Proofs.Text.Integer
import Mathlib.Data.List.TakeWhile

/-!
# Numerals of JSON

How the reader takes a numeral apart that ends where its text says: digits, a fraction, an exponent,
and a tail with which no number goes on.  Integers that are not too long are read back
(`readNumber_decimal`).
-/

namespace HoneypotAudit.Json

open HoneypotAudit.Text HoneypotAudit.Number

/-! ## Ends of numbers -/

/-- A text with which no number goes on. -/
def EndsNumber (tail : List Char) : Prop :=
  ∀ c ∈ tail.head?, isAsciiDigit c = false ∧ c ≠ '.' ∧ c ≠ 'e' ∧ c ≠ 'E'

instance (tail : List Char) : Decidable (EndsNumber tail) :=
  inferInstanceAs (Decidable (∀ c ∈ tail.head?, _))

section Digits

variable {ds tail : List Char} (hds : ∀ d ∈ ds, isAsciiDigit d = true)
include hds

lemma spanDigits_digits (htail : ∀ c ∈ tail.head?, isAsciiDigit c = false) :
    spanDigits (ds ++ tail) = (ds, tail) := by
  have htake : ds.takeWhile isAsciiDigit = ds := List.takeWhile_eq_self_iff.mpr hds
  have hdrop : ds.dropWhile isAsciiDigit = [] := List.dropWhile_eq_nil_iff.mpr hds
  rw [spanDigits, takeWhile_append_tail htail, dropWhile_append_tail htail, htake, hdrop,
    List.nil_append]

lemma readDigits?_digits (hne : ds ≠ []) (htail : ∀ c ∈ tail.head?, isAsciiDigit c = false) :
    readDigits? (ds ++ tail) = some (ds, tail) := by
  obtain ⟨d, ds, rfl⟩ := List.exists_cons_of_ne_nil hne
  rw [readDigits?, spanDigits_digits hds htail]

/-- The whole part of a number: a zero does not begin a longer one. -/
lemma readWhole?_digits (hne : ds ≠ []) (hzero : ds.head? = some '0' → ds = ['0'])
    (htail : ∀ c ∈ tail.head?, isAsciiDigit c = false) :
    readWhole? (ds ++ tail) = some (ds, tail) := by
  by_cases hhead : ds.head? = some '0'
  · rw [hzero hhead]
    rfl
  · have hhead' : (ds ++ tail).head? ≠ some '0' := by
      obtain ⟨d, ds, rfl⟩ := List.exists_cons_of_ne_nil hne
      exact hhead
    rw [readWhole?, if_neg hhead', readDigits?_digits hds hne htail]

lemma readFraction?_digits (hne : ds ≠ []) (htail : ∀ c ∈ tail.head?, isAsciiDigit c = false) :
    readFraction? ('.' :: (ds ++ tail)) = some (ds, tail) :=
  readDigits?_digits hds hne htail

end Digits

lemma digitsValue_eq (ds : List Char) : digitsValue ds = spelled ds :=
  Integer.ofDigits_map ds

lemma readFraction?_of_ne {tail : List Char} (h : ∀ c ∈ tail.head?, c ≠ '.') :
    readFraction? tail = none := by
  cases tail with
  | nil => rfl
  | cons c tail => simp [readFraction?, h c rfl]

lemma readExponent?_of_ne {tail : List Char} (h : ∀ c ∈ tail.head?, c ≠ 'e' ∧ c ≠ 'E') :
    readExponent? tail = none := by
  cases tail with
  | nil => rfl
  | cons c tail => simp [readExponent?, h c rfl]

/-! ## Numbers -/

section Numbers

variable {ds fs tail : List Char} (negative : Bool)

/-- A numeral without a fraction and an exponent. -/
lemma readNumber_whole (hds : ∀ d ∈ ds, isAsciiDigit d = true) (hne : ds ≠ [])
    (hzero : ds.head? = some '0' → ds = ['0']) (hlength : ds.length ≤ Integer.maxDigits)
    (htail : EndsNumber tail) :
    readNumber negative (ds ++ tail) =
      .ok (.int (Integer.withSign negative (spelled ds)), tail) := by
  rw [readNumber_eq, readWhole?_digits hds hne hzero fun c hc => (htail c hc).1]
  simp only [readFraction?_of_ne fun c hc => (htail c hc).2.1,
    readExponent?_of_ne fun c hc => (htail c hc).2.2, digitsValue_eq,
    if_neg (Nat.not_lt.mpr hlength)]

/-- A numeral with an exponent alone. -/
lemma readNumber_exponent {es : List Char} {p : Int} (hds : ∀ d ∈ ds, isAsciiDigit d = true)
    (hne : ds ≠ []) (hzero : ds.head? = some '0' → ds = ['0']) (hhead : es.head? = some 'e')
    (hexponent : readExponent? es = some (p, tail)) :
    readNumber negative (ds ++ es) =
      .ok (.float (Binary64.ofDecimal negative (spelled ds) p), tail) := by
  have hstops : ∀ c ∈ es.head?, isAsciiDigit c = false ∧ c ≠ '.' := by
    rw [hhead]
    rintro c ⟨⟩
    decide
  rw [readNumber_eq, readWhole?_digits hds hne hzero fun c hc => (hstops c hc).1]
  simp only [readFraction?_of_ne fun c hc => (hstops c hc).2, hexponent, digitsValue_eq]

/-- A numeral with a fraction, and perhaps with an exponent. -/
lemma readNumber_fraction {behind : List Char} {found : Option (Int × List Char)}
    (hds : ∀ d ∈ ds, isAsciiDigit d = true) (hne : ds ≠ [])
    (hzero : ds.head? = some '0' → ds = ['0']) (hfs : ∀ d ∈ fs, isAsciiDigit d = true)
    (hfs' : fs ≠ []) (hbehind : ∀ c ∈ behind.head?, isAsciiDigit c = false)
    (hexponent : readExponent? behind = found) :
    readNumber negative (ds ++ '.' :: (fs ++ behind)) =
      .ok (.float (Binary64.ofDecimal negative (spelled (ds ++ fs))
        ((found.getD (0, behind)).1 - fs.length)), (found.getD (0, behind)).2) := by
  have hpoint : ∀ c ∈ ('.' :: (fs ++ behind)).head?, isAsciiDigit c = false := by
    rintro c ⟨⟩
    decide
  rw [readNumber_eq, readWhole?_digits hds hne hzero hpoint]
  simp only [readFraction?_digits hfs hfs' hbehind, hexponent, digitsValue_eq]

end Numbers

/-! ## Values that begin with a digit -/

/-- No name begins with a digit. -/
lemma readName?_of_digit {d : Char} (hd : isAsciiDigit d = true) (cs : List Char) :
    readName? (d :: cs) = none ∧ readName? ('-' :: d :: cs) = none := by
  have hne : ∀ c : Char, isAsciiDigit c = false → c ≠ d := by
    rintro c hc rfl
    exact Bool.false_ne_true (hc.symm.trans hd)
  have hn := hne 'n' (by decide)
  have ht := hne 't' (by decide)
  have hf := hne 'f' (by decide)
  have hN := hne 'N' (by decide)
  have hI := hne 'I' (by decide)
  have hminus := hne '-' (by decide)
  constructor <;> simp [readName?, names, dropWord?, hn, ht, hf, hN, hI, hminus]

/-- A sign is read in front of a number. -/
lemma readScalar_of_digit {d : Char} (hd : isAsciiDigit d = true) (cs : List Char)
    (negative : Bool) :
    readScalar ((if negative then ['-'] else []) ++ d :: cs) = readNumber negative (d :: cs) := by
  obtain ⟨hplain, hsigned⟩ := readName?_of_digit hd cs
  cases negative with
  | true => simp [readScalar, hsigned]
  | false =>
    have hminus : d ≠ '-' := by
      rintro rfl
      cases hd
    simp [readScalar, hplain, hminus]

/-- **An integer is read back**, if it is not too long. -/
theorem readNumber_decimal {n : Int} (h : Integer.isWritable n = true) {tail : List Char}
    (htail : EndsNumber tail) :
    readNumber (decide (n < 0)) (decimal n.natAbs ++ tail) = .ok (.int n, tail) := by
  have hzero : (decimal n.natAbs).head? = some '0' → decimal n.natAbs = ['0'] := by
    intro hhead
    rcases Nat.eq_zero_or_pos n.natAbs with h0 | hpos
    · rw [h0, decimal, if_pos (by decide)]
      rfl
    · exact absurd hhead (head?_decimal hpos)
  have hnumber := readNumber_whole (decide (n < 0)) (fun d => isAsciiDigit_of_mem_decimal)
    (decimal_ne_nil _) hzero (Integer.length_le_of_isWritable h) htail
  rwa [spelled_decimal, Integer.withSign_natAbs] at hnumber

end HoneypotAudit.Json
