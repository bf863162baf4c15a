import HoneypotAudit.Json.Reader
import HoneypotAudit.Proofs.Outcome
import HoneypotAudit.Proofs.Text.Decimal
import HoneypotAudit.Proofs.Text.Spans
import Mathlib.Data.List.Basic

/-!
# Tokens of JSON

No token of JSON has a raw control character in it.  So whatever reads a token makes the same of a
text with a tail that begins with one as of the text alone, but for the rest behind the token
(`readScalar_append`, `readText_append`).
-/

namespace HoneypotAudit.Json

open HoneypotAudit.Text HoneypotAudit.Outcome

/-! ## Tails -/

/-- A text in which no token goes on: it is empty or begins with a control character. -/
def IsTail (tail : List Char) : Prop :=
  ∀ c ∈ tail.head?, c.toNat < 0x20

/-- What was read, with more text behind the rest. -/
def extend {α : Type} (tail : List Char) (found : α × List Char) : α × List Char :=
  (found.1, found.2 ++ tail)

section Tails

variable {tail : List Char}

lemma IsTail.head_ne {c : Char} {cs : List Char} (h : IsTail (c :: cs)) {d : Char}
    (hd : 0x20 ≤ d.toNat) : c ≠ d := by
  rintro rfl
  exact absurd (h c rfl) (Nat.not_lt.mpr hd)

/-- A tail is passed over in no class of printed characters. -/
lemma IsTail.stop (h : IsTail tail) {p : Char → Bool} (hp : ∀ c, p c = true → 0x20 ≤ c.toNat) :
    ∀ c ∈ tail.head?, p c = false := by
  intro c hc
  by_contra hpc
  exact absurd (h c hc) (Nat.not_lt.mpr (hp c (by simpa using hpc)))

end Tails

/-! ## Tokens -/

section Tokens

variable {tail : List Char} (h : IsTail tail) (cs : List Char)
include h

lemma spanDigits_append : spanDigits (cs ++ tail) = extend tail (spanDigits cs) := by
  have hstop := h.stop (p := isAsciiDigit) fun c hc => by
    have hdigit := isAsciiDigit_iff.mp hc
    omega
  rw [spanDigits, takeWhile_append_tail hstop, dropWhile_append_tail hstop]
  rfl

/-- Digits at the front of a text, at least one. -/
def readDigits? (cs : List Char) : Option (List Char × List Char) :=
  match spanDigits cs with
  | ([], _) => none
  | (ds, rest) => some (ds, rest)

lemma readDigits?_append : readDigits? (cs ++ tail) = (readDigits? cs).map (extend tail) := by
  rw [readDigits?, readDigits?, spanDigits_append h]
  cases spanDigits cs with
  | mk ds rest => cases ds <;> rfl

lemma readFraction?_append :
    readFraction? (cs ++ tail) = (readFraction? cs).map (extend tail) := by
  cases cs with
  | nil =>
    cases tail with
    | nil => rfl
    | cons c tail => simp [readFraction?, h.head_ne (d := '.') (by decide)]
  | cons c cs =>
    by_cases hc : c = '.'
    · subst hc
      exact readDigits?_append h cs
    · simp [readFraction?, hc]

lemma splitSign_append :
    Integer.splitSign (cs ++ tail) = extend tail (Integer.splitSign cs) := by
  cases cs with
  | nil =>
    cases tail with
    | nil => rfl
    | cons c tail =>
      simp [Integer.splitSign, h.head_ne (d := '-') (by decide), h.head_ne (d := '+') (by decide),
        extend]
  | cons c cs =>
    by_cases hminus : c = '-'
    · subst hminus
      rfl
    · by_cases hplus : c = '+'
      · subst hplus
        rfl
      · simp [Integer.splitSign, hminus, hplus, extend]

lemma readExponent?_append :
    readExponent? (cs ++ tail) = (readExponent? cs).map (extend tail) := by
  cases cs with
  | nil =>
    cases tail with
    | nil => rfl
    | cons c tail =>
      simp [readExponent?, h.head_ne (d := 'e') (by decide), h.head_ne (d := 'E') (by decide)]
  | cons c cs =>
    by_cases hc : c = 'e' ∨ c = 'E'
    · simp only [List.cons_append, readExponent?, if_pos hc, splitSign_append h]
      cases Integer.splitSign cs with
      | mk negative body =>
        simp only [extend, spanDigits_append h]
        cases spanDigits body with
        | mk ds rest => cases ds <;> rfl
    · simp [readExponent?, hc]

/-- The whole part of a number: a zero, or digits of which the first one is no zero. -/
def readWhole? (cs : List Char) : Option (List Char × List Char) :=
  if cs.head? = some '0' then some (['0'], cs.tail) else readDigits? cs

lemma readWhole?_append : readWhole? (cs ++ tail) = (readWhole? cs).map (extend tail) := by
  have hhead : (cs ++ tail).head? = some '0' ↔ cs.head? = some '0' := by
    cases cs with
    | nil =>
      cases tail with
      | nil => rfl
      | cons c tail => simp [h.head_ne (d := '0') (by decide)]
    | cons c cs => rfl
  by_cases hzero : cs.head? = some '0'
  · rw [readWhole?, readWhole?, if_pos (hhead.mpr hzero), if_pos hzero]
    cases cs with
    | nil => cases hzero
    | cons c cs => rfl
  · rw [readWhole?, readWhole?, if_neg (mt hhead.mp hzero), if_neg hzero, readDigits?_append h]

omit h in
lemma readNumber_eq (negative : Bool) : readNumber negative cs =
    match readWhole? cs with
    | none => .error .malformed
    | some (ds, rest) =>
      match readFraction? rest, readExponent? rest with
      | none, none =>
        if Integer.maxDigits < ds.length then .error (.oversized ds.length)
        else .ok (.int (Integer.withSign negative (digitsValue ds)), rest)
      | none, some (e, rest) =>
        .ok (.float (Number.Binary64.ofDecimal negative (digitsValue ds) e), rest)
      | some (fs, rest), _ =>
        let (e, rest) := (readExponent? rest).getD (0, rest)
        .ok (.float (Number.Binary64.ofDecimal negative (digitsValue (ds ++ fs)) (e - fs.length)),
          rest) := by
  unfold readNumber readWhole?
  split
  next => rfl
  next hne =>
    have hhead : cs.head? ≠ some '0' := by
      cases cs with
      | nil => simp
      | cons c cs =>
        rintro hc
        exact hne cs (by simpa using hc)
    rw [if_neg hhead]
    rfl

lemma readNumber_append (negative : Bool) :
    readNumber negative (cs ++ tail) = (readNumber negative cs).map (extend tail) := by
  rw [readNumber_eq, readNumber_eq, readWhole?_append h]
  cases readWhole? cs with
  | none => rfl
  | some found =>
    obtain ⟨ds, rest⟩ := found
    simp only [Option.map_some, extend, readFraction?_append h, readExponent?_append h]
    cases readFraction? rest with
    | none =>
      cases readExponent? rest with
      | none =>
        simp only [Option.map_none]
        split <;> rfl
      | some found => rfl
    | some found =>
      simp only [Option.map_some, extend, readExponent?_append h]
      cases readExponent? found.2 <;> rfl

omit h in
lemma readUnit?_of_length (hcs : cs.length < 4) : readUnit? cs = none := by
  match cs with
  | [] | [_] | [_, _] | [_, _, _] => rfl
  | _ :: _ :: _ :: _ :: _ => simp at hcs; omega

omit h in
lemma readUnit?_of_mem {c : Char} (hc : c ∈ cs.take 4) (hvalue : Hex.value? c = none) :
    readUnit? cs = none := by
  match cs with
  | [] | [_] | [_, _] | [_, _, _] => rfl
  | x :: y :: z :: w :: rest =>
    simp only [List.take_succ_cons, List.take_zero, List.mem_cons, List.not_mem_nil, or_false] at hc
    simp only [readUnit?]
    split
    next hx hy hz hw =>
      rcases hc with rfl | rfl | rfl | rfl
      · cases hvalue.symm.trans hx
      · cases hvalue.symm.trans hy
      · cases hvalue.symm.trans hz
      · cases hvalue.symm.trans hw
    next => rfl

lemma readUnit?_append : readUnit? (cs ++ tail) = (readUnit? cs).map (extend tail) := by
  by_cases hlength : cs.length < 4
  · rw [readUnit?_of_length cs hlength]
    cases tail with
    | nil => rw [List.append_nil, readUnit?_of_length cs hlength]; rfl
    | cons c tail =>
      have hvalue : Hex.value? c = none := by
        have hlow := h c rfl
        rw [Hex.value?, if_neg (by omega), if_neg (by omega), if_neg (by omega)]
      refine readUnit?_of_mem _ (c := c) ?_ hvalue
      rw [List.take_append, List.mem_append]
      obtain ⟨n, hn⟩ : ∃ n, 4 - cs.length = n + 1 := ⟨3 - cs.length, by omega⟩
      exact .inr (by simp [hn])
  · match cs with
    | [] | [_] | [_, _] | [_, _, _] => simp at hlength
    | x :: y :: z :: w :: rest =>
      simp only [List.cons_append, readUnit?]
      cases Hex.value? x <;> cases Hex.value? y <;> cases Hex.value? z <;>
        cases Hex.value? w <;> rfl

lemma readLowUnit?_append :
    readLowUnit? (cs ++ tail) = (readLowUnit? cs).map (extend tail) := by
  have hnone : ∀ c cs, c ≠ '\\' → readLowUnit? (c :: cs) = none := by
    intro c cs hc
    simp [readLowUnit?, hc]
  have hnone' : ∀ c cs, c ≠ 'u' → readLowUnit? ('\\' :: c :: cs) = none := by
    intro c cs hc
    simp [readLowUnit?, hc]
  cases cs with
  | nil =>
    cases tail with
    | nil => rfl
    | cons c tail => exact hnone c tail (h.head_ne (by decide))
  | cons c cs =>
    by_cases hc : c = '\\'
    · subst hc
      cases cs with
      | nil =>
        cases tail with
        | nil => rfl
        | cons c tail => exact hnone' c tail (h.head_ne (by decide))
      | cons d cs =>
        by_cases hd : d = 'u'
        · subst hd
          simp only [List.cons_append, readLowUnit?, readUnit?_append h]
          cases readUnit? cs with
          | none => rfl
          | some found =>
            simp only [Option.map_some, extend]
            split <;> rfl
        · rw [hnone' d cs hd]
          exact hnone' d _ hd
    · rw [hnone c cs hc]
      exact hnone c _ hc

omit h in
lemma readEscape_of_ne {c : Char} (hc : c ≠ 'u') : readEscape (c :: cs) =
    (letterEscapes.lookup c).elim (.error .malformed) fun meant => .ok (meant.toNat, cs) := by
  unfold readEscape
  split
  next heq => exact absurd (List.cons.inj heq).1 hc
  next heq =>
    cases heq
    cases letterEscapes.lookup c <;> rfl
  next heq => cases heq

omit h in
/-- All escapes are printed characters. -/
lemma lookup_letterEscapes_eq_none {c : Char} (hlow : c.toNat < 0x20) :
    letterEscapes.lookup c = none := by
  have hprinted : letterEscapes.all (fun p => decide (0x20 ≤ p.1.toNat)) = true := by decide
  rw [List.lookup_eq_none_iff]
  intro p hp
  have hle : 0x20 ≤ p.1.toNat := of_decide_eq_true (List.all_eq_true.mp hprinted p hp)
  exact bne_iff_ne.mpr fun hc => absurd hle (by rw [← hc]; omega)

lemma readEscape_append : readEscape (cs ++ tail) = (readEscape cs).map (extend tail) := by
  cases cs with
  | nil =>
    cases tail with
    | nil => rfl
    | cons c tail =>
      rw [List.nil_append, readEscape_of_ne tail (h.head_ne (by decide)),
        lookup_letterEscapes_eq_none (h c rfl)]
      rfl
  | cons c cs =>
    by_cases hc : c = 'u'
    · subst hc
      simp only [List.cons_append, readEscape, readUnit?_append h]
      cases readUnit? cs with
      | none => rfl
      | some found =>
        simp only [Option.map_some, extend, readLowUnit?_append h]
        split
        next =>
          cases readLowUnit? found.2 <;> rfl
        next => rfl
    · rw [List.cons_append, readEscape_of_ne _ hc, readEscape_of_ne _ hc]
      cases letterEscapes.lookup c <;> rfl

lemma readText_append (fuel : Nat) :
    readText fuel (cs ++ tail) = (readText fuel cs).map (extend tail) := by
  induction fuel generalizing cs with
  | zero => rfl
  | succ fuel ih =>
    cases cs with
    | nil =>
      cases tail with
      | nil => rfl
      | cons c tail =>
        simp [readText, h.head_ne (d := '"') (by decide), h.head_ne (d := '\\') (by decide),
          h c rfl, Except.map]
    | cons c cs =>
      by_cases hquote : c = '"'
      · subst hquote
        rfl
      · by_cases hescape : c = '\\'
        · subst hescape
          simp only [List.cons_append, readText, readEscape_append h]
          cases readEscape cs with
          | error fault => rfl
          | ok found =>
            simp only [Except.map, extend, ok_bind, ih]
            cases readText fuel found.2 <;> rfl
        · simp only [List.cons_append, readText]
          by_cases hlow : c.toNat < 0x20
          · rw [if_pos hlow, if_pos hlow]
            rfl
          · rw [if_neg hlow, if_neg hlow, ih]
            cases readText fuel cs <;> rfl

lemma dropWord?_append {word : List Char} (hword : ∀ c ∈ word, 0x20 ≤ c.toNat) :
    dropWord? word (cs ++ tail) = (dropWord? word cs).map (· ++ tail) := by
  induction word generalizing cs with
  | nil => rfl
  | cons w word ih =>
    obtain ⟨hw, hword⟩ := List.forall_mem_cons.mp hword
    cases cs with
    | nil =>
      cases tail with
      | nil => rfl
      | cons c tail => exact if_neg (h.head_ne hw).symm
    | cons c cs =>
      by_cases hc : w = c
      · simp only [List.cons_append, dropWord?, if_pos hc, ih cs hword]
      · simp only [List.cons_append, dropWord?, if_neg hc, Option.map_none]

lemma readName?_append : readName? (cs ++ tail) = (readName? cs).map (extend tail) := by
  have hprinted : names.all (fun p => p.1.all fun c => decide (0x20 ≤ c.toNat)) = true := by
    decide +kernel
  have hwords : ∀ p ∈ names, ∀ c ∈ p.1, 0x20 ≤ c.toNat := by
    intro p hp c hc
    exact of_decide_eq_true (List.all_eq_true.mp (List.all_eq_true.mp hprinted p hp) c hc)
  unfold readName?
  revert hwords
  generalize names = list
  intro hwords
  induction list with
  | nil => rfl
  | cons p list ih =>
    obtain ⟨hp, hlist⟩ := List.forall_mem_cons.mp hwords
    simp only [List.findSome?_cons, dropWord?_append h cs hp, ih hlist]
    cases dropWord? p.1 cs <;> rfl

/-- A name or a number. -/
def readScalar (cs : List Char) : Except ReadFault (Json × List Char) :=
  match readName? cs with
  | some found => .ok found
  | none =>
    match cs with
    | '-' :: rest => readNumber true rest
    | _ => readNumber false cs

lemma readScalar_append : readScalar (cs ++ tail) = (readScalar cs).map (extend tail) := by
  unfold readScalar
  rw [readName?_append h]
  cases readName? cs with
  | some found => rfl
  | none =>
    cases cs with
    | nil =>
      cases tail with
      | nil => rfl
      | cons c tail =>
        have hnumber := readNumber_append h [] false
        simpa [h.head_ne (d := '-') (by decide)] using hnumber
    | cons c cs =>
      by_cases hc : c = '-'
      · subst hc
        exact readNumber_append h cs true
      · simpa [hc] using readNumber_append h (c :: cs) false

end Tokens

lemma readText_mono {fuel fuel' : Nat} (hle : fuel ≤ fuel') {cs : List Char}
    {found : List Nat × List Char} (h : readText fuel cs = .ok found) :
    readText fuel' cs = .ok found := by
  induction fuel generalizing fuel' cs found with
  | zero => cases h
  | succ fuel ih =>
    obtain ⟨fuel', rfl⟩ : ∃ k, fuel' = k + 1 := ⟨fuel' - 1, by omega⟩
    have hle : fuel ≤ fuel' := by omega
    unfold readText at h ⊢
    split at h
    next => cases h
    next => exact h
    next =>
      obtain ⟨⟨code, rest⟩, hcode, h⟩ := bind_eq_ok_iff.mp h
      obtain ⟨⟨codes, rest⟩, hcodes, h⟩ := bind_eq_ok_iff.mp h
      exact bind_eq_ok_iff.mpr ⟨_, hcode, bind_eq_ok_iff.mpr ⟨_, ih hle hcodes, h⟩⟩
    next c rest hquote hescape =>
      by_cases hlow : c.toNat < 0x20
      · rw [if_pos hlow] at h
        cases h
      · rw [if_neg hlow] at h ⊢
        obtain ⟨⟨codes, rest⟩, hcodes, h⟩ := bind_eq_ok_iff.mp h
        exact bind_eq_ok_iff.mpr ⟨_, ih hle hcodes, h⟩

end HoneypotAudit.Json
