import HoneypotAudit.Proofs.Text.Hexadecimal
import HoneypotAudit.Proofs.Text.Integer

/-!
# Numbers in source texts

A source text spells a number in base ten or, behind `0x`, in base sixteen, and may put underscores
between digits.  `NumberText` is this grammar, and `readLiteral?_of_numberText` says that numbers
are read back from it.

A number in base ten is read only if it has no more digits than are written
(`readLiteral?_decimal_eq_none`).  In base sixteen there is no such limit.
-/

namespace HoneypotAudit.Text

/-! ## The grammar -/

/-- Digits in a text that has underscores in some places between two digits. -/
inductive Grouped : List Char → List Char → Prop
  | last (d : Char) : Grouped [d] [d]
  | next (d : Char) {ds cs : List Char} (h : Grouped ds cs) : Grouped (d :: ds) (d :: cs)
  | apart (d : Char) {ds cs : List Char} (h : Grouped ds cs) : Grouped (d :: ds) (d :: '_' :: cs)

/-- The number that hexadecimal digits spell. -/
def hexSpelled (ds : List Char) : Nat :=
  ds.foldl (fun n d => n * 16 + (Hex.value? d).getD 0) 0

/-- A text spells a number. -/
inductive NumberText : List Char → Nat → Prop
  | decimal {n : Nat} {cs : List Char} (h : Grouped (decimal n) cs) : NumberText cs n
  | hex {ds cs : List Char} (h : Grouped ds cs) (hds : ∀ d ∈ ds, Hex.isDigit d = true) :
      NumberText ('0' :: 'x' :: cs) (hexSpelled ds)

lemma grouped_self {ds : List Char} (h : ds ≠ []) : Grouped ds ds := by
  induction ds with
  | nil => exact absurd rfl h
  | cons d ds ih =>
    by_cases hds : ds = []
    · rw [hds]
      exact .last d
    · exact .next d (ih hds)

lemma Grouped.head?_eq {ds cs : List Char} (h : Grouped ds cs) : cs.head? = ds.head? := by
  cases h <;> rfl

lemma Grouped.mem {ds cs : List Char} (h : Grouped ds cs) {c : Char} (hc : c ∈ cs) :
    c ∈ ds ∨ c = '_' := by
  induction h with
  | last d => exact .inl hc
  | next d h ih =>
    rcases List.mem_cons.mp hc with rfl | hc
    · exact .inl List.mem_cons_self
    · exact (ih hc).imp_left (List.mem_cons_of_mem d)
  | apart d h ih =>
    rcases List.mem_cons.mp hc with rfl | hc
    · exact .inl List.mem_cons_self
    · rcases List.mem_cons.mp hc with rfl | hc
      · exact .inr rfl
      · exact (ih hc).imp_left (List.mem_cons_of_mem d)

namespace Integer

/-! ## Characters of literals -/

/-- The characters that a number is spelled with. -/
def isLiteralChar (c : Char) : Bool :=
  Hex.isDigit c || c == 'x' || c == '_'

/-- What the reader makes of the characters of a literal: they are no blanks, digits keep their
form, and they have the values of hexadecimal digits. -/
structure ReadsPlainly (c : Char) : Prop where
  margin : isMargin c = false
  unsigned : c ≠ '-' ∧ c ≠ '+'
  form : ∀ d ∈ digitValue? c, digitChar d = c
  value : hexValue? c = Hex.value? c

instance (c : Char) : Decidable (ReadsPlainly c) :=
  decidable_of_iff
    (isMargin c = false ∧ (c ≠ '-' ∧ c ≠ '+') ∧ (∀ d ∈ digitValue? c, digitChar d = c) ∧
      hexValue? c = Hex.value? c)
    ⟨fun ⟨h₁, h₂, h₃, h₄⟩ => ⟨h₁, h₂, h₃, h₄⟩, fun ⟨h₁, h₂, h₃, h₄⟩ => ⟨h₁, h₂, h₃, h₄⟩⟩

lemma readsPlainly {c : Char} (h : isLiteralChar c = true) : ReadsPlainly c := by
  have hascii : ∀ k : Fin 128,
      isLiteralChar (Char.ofNat k) = true → ReadsPlainly (Char.ofNat k) := by
    decide +kernel
  have hlt : c.toNat < 128 := by
    simp only [isLiteralChar, Hex.isDigit, Hex.value?, Bool.or_eq_true, beq_iff_eq] at h
    rcases h with (h | rfl) | rfl
    · by_contra hlarge
      rw [if_neg (by omega), if_neg (by omega), if_neg (by omega)] at h
      cases h
    · decide
    · decide
  have hc := hascii ⟨c.toNat, hlt⟩
  rw [show Char.ofNat c.toNat = c from Char.ofNat_toNat c] at hc
  exact hc h

section Literals

variable {cs : List Char}

/-- A text of such characters is read as it stands. -/
lemma readLiteral?_eq (h : ∀ c ∈ cs, isLiteralChar c = true) :
    readLiteral? cs = match splitBase cs with
      | some (base, digits) =>
        (groupedDigits? base false digits).map fun ds => (ofDigits base ds : Int)
      | none =>
        match groupedDigits? 10 false cs with
        | none => none
        | some ds =>
          if maxDigits < ds.length then none
          else if ds.head? = some 0 ∧ ds.any (· ≠ 0) then none
          else some (ofDigits 10 ds : Int) := by
  have htrim : trim cs = cs := trim_of_forall fun c hc => (readsPlainly (h c hc)).margin
  have hsign : splitSign cs = (false, cs) := by
    cases cs with
    | nil => rfl
    | cons c cs =>
      obtain ⟨hminus, hplus⟩ := (readsPlainly (h c List.mem_cons_self)).unsigned
      unfold splitSign
      split
      next heq => exact absurd (List.cons.inj heq).1 hminus
      next heq => exact absurd (List.cons.inj heq).1 hplus
      next => rfl
  have hmap : ∀ {f : Char → Char}, (∀ c ∈ cs, f c = c) → cs.map f = cs := by
    intro f hf
    rw [List.map_congr_left hf, List.map_id']
  unfold readLiteral?
  rw [htrim, hsign]
  simp only []
  rw [hmap]
  · rfl
  · intro c hc
    have hform := (readsPlainly (h c hc)).form
    cases hvalue : digitValue? c with
    | none => rfl
    | some d => exact hform d hvalue

/-- Digits are read with the underscores between them passed over. -/
lemma groupedDigits?_of_grouped {base : Nat} {val : Char → Nat} {ds : List Char}
    (h : Grouped ds cs) (hds : ∀ d ∈ ds, digitBelow? base d = some (val d)) (before : Bool) :
    groupedDigits? base before cs = some (ds.map val) := by
  have hunderscore : ∀ {d : Char}, digitBelow? base d = some (val d) → d ≠ '_' := by
    rintro d hd rfl
    have hnone : digitBelow? base '_' = none := by
      rw [digitBelow?, show hexValue? '_' = none by decide]
      rfl
    rw [hnone] at hd
    cases hd
  induction h generalizing before with
  | last d =>
    have hd := hds d List.mem_cons_self
    rw [groupedDigits?, if_neg (hunderscore hd), hd]
    rfl
  | next d h ih =>
    obtain ⟨hd, hds⟩ := List.forall_mem_cons.mp hds
    rw [groupedDigits?, if_neg (hunderscore hd), hd]
    simp only [ih hds, Option.map_some, List.map_cons]
  | apart d h ih =>
    obtain ⟨hd, hds⟩ := List.forall_mem_cons.mp hds
    rw [groupedDigits?, if_neg (hunderscore hd), hd]
    simp only [groupedDigits?, if_pos, ih hds, Option.map_some, List.map_cons]

/-! ## Base ten -/

lemma isLiteralChar_of_isAsciiDigit {c : Char} (h : isAsciiDigit c = true) :
    isLiteralChar c = true := by
  obtain ⟨hlow, hhigh⟩ := isAsciiDigit_iff.mp h
  simp [isLiteralChar, Hex.isDigit, Hex.value?, hlow, hhigh]

/-- A number in base ten has no prefix of another base. -/
lemma splitBase_of_grouped {n : Nat} (h : Grouped (decimal n) cs) : splitBase cs = none := by
  by_cases hn : n = 0
  · rw [hn, show decimal 0 = ['0'] by rw [decimal]; rfl] at h
    cases h with
    | last => rfl
    | next _ h => cases h
    | apart _ h => cases h
  · have hhead := head?_decimal (Nat.pos_of_ne_zero hn)
    rw [← h.head?_eq] at hhead
    unfold splitBase
    split
    next => exact absurd rfl hhead
    next => rfl

lemma grouped_isLiteralChar {ds : List Char} (h : Grouped ds cs)
    (hds : ∀ d ∈ ds, isLiteralChar d = true) : ∀ c ∈ cs, isLiteralChar c = true := by
  intro c hc
  rcases h.mem hc with hd | rfl
  · exact hds c hd
  · decide

/-- What is read of a number in base ten, up to the limit on its digits. -/
lemma readLiteral?_of_grouped {n : Nat} (h : Grouped (decimal n) cs) :
    readLiteral? cs = if maxDigits < (decimal n).length then none else some (n : Int) := by
  have hdigits : ∀ d ∈ decimal n, isAsciiDigit d = true := fun d => isAsciiDigit_of_mem_decimal
  have hread := groupedDigits?_of_grouped h
    (fun d hd => digitBelow?_of_isAsciiDigit (hdigits d hd)) false
  have hzero : ¬(((decimal n).map fun d => d.toNat - 0x30).head? = some 0 ∧
      ((decimal n).map fun d => d.toNat - 0x30).any (· ≠ 0) = true) := by
    rintro ⟨hhead, hany⟩
    by_cases hn : n = 0
    · rw [hn, show decimal 0 = ['0'] by rw [decimal]; rfl] at hany
      exact absurd hany (by decide)
    · obtain ⟨d, ds, hcons⟩ := List.exists_cons_of_ne_nil (decimal_ne_nil n)
      have hdigit := hdigits d (by simp [hcons])
      obtain ⟨hlow, -⟩ := isAsciiDigit_iff.mp hdigit
      have hvalue : d.toNat - 0x30 = 0 := by simpa [hcons] using hhead
      have hd : d = '0' := Char.toNat_inj.mp (show d.toNat = 0x30 by omega)
      exact head?_decimal (Nat.pos_of_ne_zero hn) (by rw [hcons, hd, List.head?_cons])
  have hall := grouped_isLiteralChar h fun d hd => isLiteralChar_of_isAsciiDigit (hdigits d hd)
  rw [readLiteral?_eq hall, splitBase_of_grouped h, hread]
  simp only [List.length_map, if_neg hzero, ofDigits_map, spelled_decimal]

/-- A number that is not written is not read in base ten either. -/
lemma readLiteral?_decimal_eq_none {n : Nat} (h : isWritable n = false) :
    readLiteral? (decimal n) = none := by
  rw [readLiteral?_of_grouped (grouped_self (decimal_ne_nil n)), if_pos]
  by_contra hle
  have hlt := lt_pow_of_length_decimal_le (Nat.not_lt.mp hle)
  unfold isWritable at h
  -- the power itself is never computed
  generalize maxDigits = most at h hlt
  exact of_decide_eq_false h hlt

/-! ## Base sixteen -/

lemma isLiteralChar_of_isHexDigit {c : Char} (h : Hex.isDigit c = true) :
    isLiteralChar c = true := by
  simp [isLiteralChar, h]

/-- A number in base sixteen is known by its prefix, as no underscore stands behind that. -/
lemma splitBase_of_hex {ds : List Char} (h : Grouped ds cs)
    (hds : ∀ d ∈ ds, Hex.isDigit d = true) : splitBase ('0' :: 'x' :: cs) = some (16, cs) := by
  cases cs with
  | nil => rfl
  | cons c cs =>
    have hc : c ≠ '_' := by
      rintro rfl
      obtain ⟨d, ds', rfl⟩ : ∃ d ds', ds = d :: ds' := by cases h <;> exact ⟨_, _, rfl⟩
      obtain rfl : '_' = d := by simpa using h.head?_eq
      exact absurd (hds '_' List.mem_cons_self) (by decide)
    simp only [splitBase, true_or, if_true, Option.map_some]
    split
    next heq => exact absurd (List.cons.inj heq).1 hc
    next => rfl

lemma digitBelow?_of_isHexDigit {d : Char} (h : Hex.isDigit d = true) :
    digitBelow? 16 d = some ((Hex.value? d).getD 0) := by
  obtain ⟨n, hn⟩ := Option.isSome_iff_exists.mp h
  rw [digitBelow?, (readsPlainly (isLiteralChar_of_isHexDigit h)).value, hn, Option.filter_some,
    if_pos (decide_eq_true (Hex.value?_lt hn)), Option.getD_some]

/-- **A number in base sixteen is read**, whatever its size. -/
lemma readLiteral?_of_hex {ds : List Char} (h : Grouped ds cs)
    (hds : ∀ d ∈ ds, Hex.isDigit d = true) :
    readLiteral? ('0' :: 'x' :: cs) = some (hexSpelled ds : Int) := by
  have hdigits := grouped_isLiteralChar h fun d hd => isLiteralChar_of_isHexDigit (hds d hd)
  have hchars : ∀ c ∈ '0' :: 'x' :: cs, isLiteralChar c = true := by
    intro c hc
    rcases List.mem_cons.mp hc with rfl | hc
    · decide
    rcases List.mem_cons.mp hc with rfl | hc
    · decide
    · exact hdigits c hc
  rw [readLiteral?_eq hchars, splitBase_of_hex h hds]
  simp only [groupedDigits?_of_grouped h fun d hd => digitBelow?_of_isHexDigit (hds d hd),
    Option.map_some]
  rw [ofDigits, List.foldl_map, hexSpelled]

end Literals

/-- **Numbers are read back from their texts**, if they are written at all. -/
theorem readLiteral?_of_numberText {cs : List Char} {n : Nat} (h : NumberText cs n)
    (hn : isWritable n = true) : readLiteral? cs = some (n : Int) := by
  cases h with
  | decimal h =>
    have hlength : (decimal n).length ≤ maxDigits := length_le_of_isWritable hn
    rw [readLiteral?_of_grouped h, if_neg (Nat.not_lt.mpr hlength)]
  | hex h hds => exact readLiteral?_of_hex h hds

end Integer

end HoneypotAudit.Text
