import HoneypotAudit.Json.Printer
import HoneypotAudit.Proofs.Json.Tokens
import HoneypotAudit.Proofs.Text.Utf8

/-!
# Texts of JSON

What a document writes between quotes is read back, whichever characters it keeps, as long as it
keeps no control character: `readText_quoted` for the reader of texts, character by character
(`readText_escapeChar`).
-/

namespace HoneypotAudit.Json

open HoneypotAudit.Text HoneypotAudit.Outcome

/-! ## Units -/

/-- The four digits of a UTF-16 unit. -/
lemma padded_four {n : Nat} (h : n < 0x10000) : Hex.padded 4 n =
    [Hex.digit (n / 0x1000), Hex.digit (n / 0x100 % 16), Hex.digit (n / 0x10 % 16),
      Hex.digit (n % 16)] := by
  have hzero : Hex.digit 0 = '0' := rfl
  by_cases h₁ : n < 0x10
  · rw [Hex.padded, Hex.ofNat, if_pos h₁, show n / 0x1000 = 0 by omega,
      show n / 0x100 % 16 = 0 by omega, show n / 0x10 % 16 = 0 by omega,
      show n % 16 = n by omega, hzero]
    rfl
  by_cases h₂ : n < 0x100
  · rw [Hex.padded, Hex.ofNat, if_neg h₁, Hex.ofNat, if_pos (by omega),
      show n / 0x1000 = 0 by omega, show n / 0x100 % 16 = 0 by omega,
      show n / 0x10 % 16 = n / 16 by omega, hzero]
    rfl
  by_cases h₃ : n < 0x1000
  · rw [Hex.padded, Hex.ofNat, if_neg h₁, Hex.ofNat, if_neg (by omega), Hex.ofNat,
      if_pos (by omega), show n / 0x1000 = 0 by omega,
      show n / 0x100 % 16 = n / 16 / 16 by omega, hzero]
    rfl
  · rw [Hex.padded, Hex.ofNat, if_neg h₁, Hex.ofNat, if_neg (by omega), Hex.ofNat,
      if_neg (by omega), Hex.ofNat, if_pos (by omega), show n / 0x1000 = n / 16 / 16 / 16 by omega,
      show n / 0x100 % 16 = n / 16 / 16 % 16 by omega]
    rfl

lemma readUnit?_padded {n : Nat} (h : n < 0x10000) (rest : List Char) :
    readUnit? (Hex.padded 4 n ++ rest) = some (n, rest) := by
  rw [padded_four h]
  simp only [List.cons_append, List.nil_append, readUnit?,
    Hex.value?_digit (show n / 0x1000 < 16 by omega),
    Hex.value?_digit (show n / 0x100 % 16 < 16 by omega),
    Hex.value?_digit (show n / 0x10 % 16 < 16 by omega),
    Hex.value?_digit (show n % 16 < 16 by omega)]
  congr 2
  omega

lemma utf16Units_of_lt {c : Char} (h : c.toNat < 0x10000) : utf16Units c = [c.toNat] :=
  if_pos h

lemma utf16Units_of_le {c : Char} (h : 0x10000 ≤ c.toNat) : utf16Units c =
    [0xD800 + (c.toNat - 0x10000) / 0x400, 0xDC00 + (c.toNat - 0x10000) % 0x400] :=
  if_neg (Nat.not_lt.mpr h)

lemma exists_utf16Units_eq (c : Char) : ∃ n ns, utf16Units c = n :: ns := by
  rcases Nat.lt_or_ge c.toNat 0x10000 with hsmall | hlarge
  · exact ⟨_, _, utf16Units_of_lt hsmall⟩
  · exact ⟨_, _, utf16Units_of_le hlarge⟩

/-- The escape of a unit that is no half of a pair. -/
lemma readEscape_unit {n : Nat} (h : n < 0x10000) (hpair : ¬(0xD800 ≤ n ∧ n ≤ 0xDBFF))
    (rest : List Char) : readEscape ('u' :: (Hex.padded 4 n ++ rest)) = .ok (n, rest) := by
  simp only [readEscape, readUnit?_padded h, if_neg hpair]

/-- The escapes of the two halves of a pair. -/
lemma readEscape_pair {n : Nat} (h : n < 0x100000) (rest : List Char) :
    readEscape ('u' :: (Hex.padded 4 (0xD800 + n / 0x400) ++
      (unitEscape (0xDC00 + n % 0x400) ++ rest))) = .ok (0x10000 + n, rest) := by
  have hhigh : 0xD800 ≤ 0xD800 + n / 0x400 ∧ 0xD800 + n / 0x400 ≤ 0xDBFF := by omega
  have hlow : 0xDC00 ≤ 0xDC00 + n % 0x400 ∧ 0xDC00 + n % 0x400 ≤ 0xDFFF := by omega
  have hfollows : readLowUnit? (unitEscape (0xDC00 + n % 0x400) ++ rest) =
      some (0xDC00 + n % 0x400, rest) := by
    simp only [unitEscape, List.cons_append, readLowUnit?,
      readUnit?_padded (show 0xDC00 + n % 0x400 < 0x10000 by omega), if_pos hlow]
  have hcode : 0x10000 + (0xD800 + n / 0x400 - 0xD800) * 0x400 + (0xDC00 + n % 0x400 - 0xDC00) =
      0x10000 + n := by omega
  simp only [readEscape, readUnit?_padded (show 0xD800 + n / 0x400 < 0x10000 by omega),
    if_pos hhigh, hfollows, hcode]

/-! ## Characters -/

/-- No control character stands for itself. -/
def Style.EscapesControls (style : Style) : Prop :=
  ∀ c, style.keeps c = true → 0x20 ≤ c.toNat

lemma escapesControls_reportStyle : reportStyle.EscapesControls :=
  fun _ hc => of_decide_eq_true hc

lemma escapesControls_lineStyle : lineStyle.EscapesControls :=
  fun _ hc => of_decide_eq_true (Bool.and_eq_true_iff.mp hc).1

/-- A letter escapes the character that it is read as. -/
lemma lookup_of_shortEscape? {c e : Char} (h : shortEscape? c = some e) :
    e ≠ 'u' ∧ letterEscapes.lookup e = some c := by
  unfold shortEscape? at h
  split at h
  next => cases h; decide
  next => cases h; decide
  next => cases h; decide
  next => cases h; decide
  next => cases h; decide
  next =>
    split at h
    next hc =>
      cases h
      have hback : c = '\x08' := Char.toNat_inj.mp hc
      subst hback
      decide
    next =>
      split at h
      next hc =>
        cases h
        have hfeed : c = '\x0c' := Char.toNat_inj.mp hc
        subst hfeed
        decide
      next => cases h

lemma shortEscape?_ne {c : Char} (h : shortEscape? c = none) : c ≠ '"' ∧ c ≠ '\\' := by
  constructor <;> (rintro rfl; cases h)

/-- One step of the reader reads an escape. -/
lemma readText_escape {escape : List Char} {code : Nat} {cs : List Char}
    (h : readEscape (escape ++ cs) = .ok (code, cs)) (fuel : Nat) :
    readText (fuel + 1) ('\\' :: (escape ++ cs)) =
      (readText fuel cs).map fun found => (code :: found.1, found.2) := by
  simp only [readText, h, ok_bind]
  cases readText fuel cs <;> rfl

/-- The units of a character are read as the character. -/
lemma readText_units (c : Char) (fuel : Nat) (cs : List Char) :
    readText (fuel + 1) ((utf16Units c).flatMap unitEscape ++ cs) =
      (readText fuel cs).map fun found => (c.toNat :: found.1, found.2) := by
  have hrange := Utf8.toNat_range c
  rcases Nat.lt_or_ge c.toNat 0x10000 with hsmall | hlarge
  · have hpair : ¬(0xD800 ≤ c.toNat ∧ c.toNat ≤ 0xDBFF) := by omega
    rw [utf16Units_of_lt hsmall, List.flatMap_cons, List.flatMap_nil, List.append_nil]
    exact readText_escape (readEscape_unit hsmall hpair cs) fuel
  · obtain ⟨n, hn, hbound⟩ : ∃ n, c.toNat = 0x10000 + n ∧ n < 0x100000 :=
      ⟨c.toNat - 0x10000, by omega, by omega⟩
    have hunits : utf16Units c = [0xD800 + n / 0x400, 0xDC00 + n % 0x400] := by
      rw [utf16Units_of_le hlarge, hn, Nat.add_sub_cancel_left]
    have hread : readEscape ('u' :: (Hex.padded 4 (0xD800 + n / 0x400) ++
        unitEscape (0xDC00 + n % 0x400)) ++ cs) = .ok (0x10000 + n, cs) := by
      rw [List.cons_append, List.append_assoc]
      exact readEscape_pair hbound cs
    rw [hunits, hn, List.flatMap_cons, List.flatMap_cons, List.flatMap_nil, List.append_nil]
    exact readText_escape hread fuel

lemma escapeChar_ne_nil (style : Style) (c : Char) : escapeChar style c ≠ [] := by
  unfold escapeChar
  split
  · exact List.cons_ne_nil _ _
  split
  · exact List.cons_ne_nil _ _
  · obtain ⟨n, ns, hunits⟩ := exists_utf16Units_eq c
    rw [hunits, List.flatMap_cons]
    exact List.append_ne_nil_of_left_ne_nil (List.cons_ne_nil _ _) _

/-- What writes something for each part writes at least as many characters as there are parts. -/
lemma length_le_flatMap {α : Type} {f : α → List Char} (h : ∀ a, f a ≠ []) (as : List α) :
    as.length ≤ (as.flatMap f).length := by
  induction as with
  | nil => exact Nat.le_refl _
  | cons a as ih =>
    have hpos := List.length_pos_iff.mpr (h a)
    rw [List.flatMap_cons, List.length_append, List.length_cons]
    omega

section Characters

variable {style : Style} (hstyle : style.EscapesControls)
include hstyle

/-- One step of the reader reads what was written for one character. -/
lemma readText_escapeChar (c : Char) (fuel : Nat) (cs : List Char) :
    readText (fuel + 1) (escapeChar style c ++ cs) =
      (readText fuel cs).map fun found => (c.toNat :: found.1, found.2) := by
  unfold escapeChar
  split
  next e hshort =>
    obtain ⟨hne, hmeant⟩ := lookup_of_shortEscape? hshort
    have hread : readEscape ([e] ++ cs) = .ok (c.toNat, cs) := by
      rw [List.cons_append, List.nil_append, readEscape_of_ne cs hne, hmeant]
      rfl
    exact readText_escape hread fuel
  next hshort =>
    obtain ⟨hquote, hbackslash⟩ := shortEscape?_ne hshort
    by_cases hkeeps : style.keeps c = true
    · rw [if_pos hkeeps, List.cons_append, List.nil_append]
      simp only [readText, if_neg (Nat.not_lt.mpr (hstyle c hkeeps))]
      cases readText fuel cs <;> rfl
    rw [if_neg hkeeps]
    exact readText_units c fuel cs

/-! ## Quoted texts -/

lemma readText_escaped (cs rest : List Char) {fuel : Nat} (hfuel : cs.length < fuel) :
    readText fuel (cs.flatMap (escapeChar style) ++ '"' :: rest) =
      .ok (cs.map Char.toNat, rest) := by
  induction cs generalizing fuel with
  | nil =>
    obtain ⟨fuel, rfl⟩ := Nat.exists_eq_add_one.mpr hfuel
    rfl
  | cons c cs ih =>
    obtain ⟨fuel, rfl⟩ : ∃ k, fuel = k + 1 := Nat.exists_eq_add_one.mpr (Nat.zero_lt_of_lt hfuel)
    rw [List.flatMap_cons, List.append_assoc, readText_escapeChar hstyle,
      ih (Nat.lt_of_succ_lt_succ hfuel)]
    rfl

/-- **What stands between quotes is read back** by the reader of values and names. -/
theorem readText_quoted (cs rest : List Char) :
    readText ((cs.flatMap (escapeChar style) ++ '"' :: rest).length + 1)
        (cs.flatMap (escapeChar style) ++ '"' :: rest) =
      .ok (cs.map Char.toNat, rest) := by
  refine readText_escaped hstyle cs rest ?_
  have hlength := length_le_flatMap (escapeChar_ne_nil style) cs
  rw [List.length_append]
  omega

end Characters

/-! ## Code numbers of texts -/

lemma charOfCode_toNat (c : Char) : charOfCode c.toNat = c := by
  have hvalid : c.toNat.isValidChar := c.valid
  rw [charOfCode, if_pos hvalid, Char.ofNat_toNat]

lemma textOfCodes_toNat (s : String) : textOfCodes (s.toList.map Char.toNat) = s := by
  have hback : charOfCode ∘ Char.toNat = id := funext charOfCode_toNat
  rw [textOfCodes, List.map_map, hback, List.map_id, String.ofList_toList]

/-- The code numbers of a text are those of no other value. -/
lemma ofCodes_toNat (s : String) : ofCodes (s.toList.map Char.toNat) = .str s := by
  have hvalid : (s.toList.map Char.toNat).all (fun n => n.isValidChar) = true := by
    rw [List.all_map, List.all_eq_true]
    exact fun c _ => decide_eq_true c.valid
  rw [ofCodes, if_pos hvalid, textOfCodes_toNat]

end HoneypotAudit.Json
