import HoneypotAudit.Proofs.Json.Numerals
import HoneypotAudit.Proofs.Json.Reading
import HoneypotAudit.Proofs.Json.Texts

/-!
# Texts of JSON values

`ReadsAs` says of a text that it is read as a value in front of whatever ends a number.  Names,
integers and texts are read so, and lists and objects are put together from such texts with any
blanks between them (`ItemsText`, `MembersText`).  So it does not matter how a document is laid out.
-/

namespace HoneypotAudit.Json

open HoneypotAudit.Text HoneypotAudit.Outcome

/-! ## Blanks -/

/-- A text of blanks. -/
def IsGaps (gap : List Char) : Prop :=
  ∀ c ∈ gap, isGap c = true

section Gaps

variable {gap : List Char} (h : IsGaps gap)
include h

lemma skipGap_gap_append (cs : List Char) : skipGap (gap ++ cs) = skipGap cs :=
  List.dropWhile_append_of_pos h

lemma skipGap_gap_cons {c : Char} (hc : isGap c = false) (cs : List Char) :
    skipGap (gap ++ c :: cs) = c :: cs := by
  rw [skipGap_gap_append h, skipGap, List.dropWhile_cons_of_neg (by simp [hc])]

/-- No number goes on with a blank, a comma or a closing mark. -/
lemma endsNumber_gap_cons {c : Char} (hc : c ∈ [',', ']', '}']) (cs : List Char) :
    EndsNumber (gap ++ c :: cs) := by
  cases gap with
  | nil =>
    rintro d ⟨⟩
    simp only [List.mem_cons, List.not_mem_nil, or_false] at hc
    rcases hc with rfl | rfl | rfl <;> decide
  | cons g gap =>
    rintro d ⟨⟩
    have hgap := h g List.mem_cons_self
    simp only [isGap, Bool.or_eq_true, beq_iff_eq] at hgap
    rcases hgap with ((rfl | rfl) | rfl) | rfl <;> decide

end Gaps

/-! ## Texts of values -/

/-- A text is read as a value, in front of whatever ends a number. -/
structure ReadsAs (text : List Char) (v : Json) : Prop where
  head : ∃ c cs, text = c :: cs ∧ isGap c = false ∧ c ≠ ']'
  value : ∀ {fuel room : Nat} {tail : List Char}, 2 * text.length ≤ fuel → text.length ≤ room →
    EndsNumber tail → readValue textOfCodes fuel room (text ++ tail) = .ok (v, tail)

lemma ReadsAs.skipGap_append {text gap : List Char} {v : Json} (h : ReadsAs text v)
    (hgap : IsGaps gap) (tail : List Char) : skipGap (gap ++ (text ++ tail)) = text ++ tail := by
  obtain ⟨c, cs, rfl, hc, -⟩ := h.head
  exact skipGap_gap_cons hgap hc (cs ++ tail)

/-- Names and numbers. -/
lemma readsAs_scalar {text : List Char} {v : Json} {c : Char} (hc : text.head? = some c)
    (hhead : isGap c = false ∧ c ∉ [']', '"', '[', '{'])
    (h : ∀ tail, EndsNumber tail → readScalar (text ++ tail) = .ok (v, tail)) : ReadsAs text v := by
  obtain ⟨cs, rfl⟩ := List.head?_eq_some_iff.mp hc
  simp only [List.mem_cons, List.not_mem_nil, or_false, not_or] at hhead
  obtain ⟨hgap, hclose, hquote, hbracket, hbrace⟩ := hhead
  refine ⟨⟨c, cs, rfl, hgap, hclose⟩, fun {fuel room tail} hfuel _ htail => ?_⟩
  rw [List.length_cons] at hfuel
  obtain ⟨fuel, rfl⟩ := Nat.exists_eq_add_one.mpr (show 0 < fuel by omega)
  refine readValue_eq_ok_iff.mpr (.scalar ?_ (h tail htail))
  rintro d ⟨⟩
  exact ⟨hquote, hbracket, hbrace⟩

lemma readsAs_null : ReadsAs "null".toList .null :=
  readsAs_scalar rfl (by decide) fun _ _ => rfl

lemma readsAs_bool (b : Bool) :
    ReadsAs (if b then "true".toList else "false".toList) (.bool b) := by
  cases b
  · exact readsAs_scalar rfl (by decide) fun _ _ => rfl
  · exact readsAs_scalar rfl (by decide) fun _ _ => rfl

/-- A digit is no blank and no mark. -/
lemma not_mark_of_digit {c : Char} (hc : isAsciiDigit c = true) :
    isGap c = false ∧ c ∉ [']', '"', '[', '{'] := by
  have hne : ∀ x : Char, isAsciiDigit x = false → c ≠ x := by
    rintro x hx rfl
    exact Bool.false_ne_true (hx.symm.trans hc)
  simp [isGap, hne ' ' (by decide), hne '\t' (by decide), hne '\n' (by decide),
    hne '\r' (by decide), hne ']' (by decide), hne '"' (by decide), hne '[' (by decide),
    hne '{' (by decide)]

/-- Numerals with or without a sign. -/
lemma readsAs_number {negative : Bool} {d : Char} {ds : List Char} {v : Json}
    (hd : isAsciiDigit d = true)
    (h : ∀ tail, EndsNumber tail → readNumber negative (d :: ds ++ tail) = .ok (v, tail)) :
    ReadsAs ((if negative then ['-'] else []) ++ d :: ds) v := by
  have hscalar : ∀ tail, EndsNumber tail →
      readScalar ((if negative then ['-'] else []) ++ d :: ds ++ tail) = .ok (v, tail) := by
    intro tail htail
    rw [List.append_assoc, List.cons_append, readScalar_of_digit hd]
    exact h tail htail
  cases negative with
  | true => exact readsAs_scalar (c := '-') rfl (by decide) hscalar
  | false => exact readsAs_scalar (c := d) rfl (not_mark_of_digit hd) hscalar

lemma readsAs_int {n : Int} (h : Integer.isWritable n = true) :
    ReadsAs (signedDecimal n) (.int n) := by
  obtain ⟨d, ds, hds⟩ := List.exists_cons_of_ne_nil (decimal_ne_nil n.natAbs)
  have hd : isAsciiDigit d = true := isAsciiDigit_of_mem_decimal (n := n.natAbs) (by simp [hds])
  have hsign : (if n < 0 then ['-'] else []) = if decide (n < 0) then ['-'] else [] := by simp
  rw [signedDecimal_eq, hsign, hds]
  refine readsAs_number hd fun tail htail => ?_
  rw [← hds]
  exact readNumber_decimal h htail

/-- Texts, whatever they look like. -/
lemma readsAs_str {style : Style} (hstyle : style.EscapesControls) (s : String) :
    ReadsAs (quote style s.toList) (.str s) := by
  refine ⟨⟨'"', _, rfl, by decide, by decide⟩, fun {fuel room tail} hfuel _ _ => ?_⟩
  obtain ⟨fuel, rfl⟩ := Nat.exists_eq_add_one.mpr (show 0 < fuel by simp [quote] at hfuel; omega)
  have htext := readText_quoted hstyle s.toList tail
  rw [← ofCodes_toNat s, readValue_eq_ok_iff]
  have hquote : quote style s.toList ++ tail =
      '"' :: (s.toList.flatMap (escapeChar style) ++ '"' :: tail) := by
    simp [quote]
  rw [hquote]
  exact .text htext

/-! ## Texts of items and members -/

/-- Texts of items with commas between them, and any blanks in front of each. -/
inductive ItemsText : List Char → List Json → Prop
  | last {gap text : List Char} {v : Json} (hgap : IsGaps gap) (h : ReadsAs text v) :
      ItemsText (gap ++ text) [v]
  | more {gap text body : List Char} {v : Json} {vs : List Json} (hgap : IsGaps gap)
      (h : ReadsAs text v) (hmore : ItemsText body vs) :
      ItemsText (gap ++ (text ++ ',' :: body)) (v :: vs)

/-- The text of a member. -/
inductive MemberText (style : Style) : List Char → String × Json → Prop
  | intro {gap text : List Char} {v : Json} (k : String) (hgap : IsGaps gap) (h : ReadsAs text v) :
      MemberText style (quote style k.toList ++ ':' :: (gap ++ text)) (k, v)

/-- Texts of members with commas between them, and any blanks in front of each. -/
inductive MembersText (style : Style) : List Char → Members → Prop
  | last {gap text : List Char} {m : String × Json} (hgap : IsGaps gap)
      (h : MemberText style text m) : MembersText style (gap ++ text) [m]
  | more {gap text body : List Char} {m : String × Json} {ms : Members} (hgap : IsGaps gap)
      (h : MemberText style text m) (hmore : MembersText style body ms) :
      MembersText style (gap ++ (text ++ ',' :: body)) (m :: ms)

/-- Items begin with a value. -/
lemma ItemsText.skipGap_append {body : List Char} {items : List Json} (h : ItemsText body items)
    (tail : List Char) : ∃ c cs, skipGap (body ++ tail) = c :: cs ∧ c ≠ ']' := by
  cases h with
  | last hgap hvalue =>
    obtain ⟨c, cs, rfl, -, hne⟩ := hvalue.head
    rw [List.append_assoc, hvalue.skipGap_append hgap]
    exact ⟨c, _, rfl, hne⟩
  | more hgap hvalue _ =>
    obtain ⟨c, cs, rfl, -, hne⟩ := hvalue.head
    rw [List.append_assoc, List.append_assoc, hvalue.skipGap_append hgap]
    exact ⟨c, _, rfl, hne⟩

lemma MemberText.skipGap_append {style : Style} {gap text : List Char} {m : String × Json}
    (h : MemberText style text m) (hgap : IsGaps gap) (tail : List Char) :
    skipGap (gap ++ (text ++ tail)) = text ++ tail := by
  cases h
  exact skipGap_gap_cons hgap (by decide) _

/-- Members begin with a quote. -/
lemma MembersText.skipGap_append {style : Style} {body : List Char} {ms : Members}
    (h : MembersText style body ms) (tail : List Char) :
    ∃ cs, skipGap (body ++ tail) = '"' :: cs := by
  cases h with
  | last hgap hm =>
    rw [List.append_assoc, hm.skipGap_append hgap]
    cases hm
    exact ⟨_, rfl⟩
  | more hgap hm _ =>
    rw [List.append_assoc, List.append_assoc, hm.skipGap_append hgap]
    cases hm
    exact ⟨_, rfl⟩

section Read

variable {gap tail body : List Char} (hgap : IsGaps gap) {fuel room : Nat}
include hgap

/-- Items are read up to the closing bracket. -/
lemma ItemsText.read {items : List Json} (h : ItemsText body items)
    (hfuel : 2 * body.length + 1 ≤ fuel) (hroom : body.length ≤ room) :
    readItems textOfCodes fuel room (skipGap (body ++ (gap ++ ']' :: tail))) =
      .ok (items, tail) := by
  induction h generalizing fuel with
  | @last before text v hbefore hvalue =>
    rw [List.length_append] at hfuel hroom
    obtain ⟨fuel, rfl⟩ := Nat.exists_eq_add_one.mpr (show 0 < fuel by omega)
    rw [List.append_assoc, hvalue.skipGap_append hbefore, readItems_eq_ok_iff]
    exact .last (hvalue.value (by omega) (by omega) (endsNumber_gap_cons hgap (by decide) tail))
      (skipGap_gap_cons hgap (by decide) tail)
  | @more before text body v vs hbefore hvalue _ ih =>
    simp only [List.length_append, List.length_cons] at hfuel hroom
    obtain ⟨fuel, rfl⟩ := Nat.exists_eq_add_one.mpr (show 0 < fuel by omega)
    rw [List.append_assoc, List.append_assoc, hvalue.skipGap_append hbefore, readItems_eq_ok_iff]
    have hnone : IsGaps [] := fun c hc => nomatch hc
    exact .more (hvalue.value (by omega) (by omega) (endsNumber_gap_cons hnone (by decide) _))
      (skipGap_gap_cons hnone (by decide) _) (ih (by omega) (by omega))

end Read

section Members

variable {style : Style} (hstyle : style.EscapesControls) {fuel room : Nat}
include hstyle

omit hstyle in
lemma quote_append (style : Style) (cs tail : List Char) :
    quote style cs ++ tail = '"' :: (cs.flatMap (escapeChar style) ++ '"' :: tail) := by
  simp [quote]

/-- A member is read up to what is behind its value. -/
lemma MemberText.step {text rest : List Char} {m : String × Json} (h : MemberText style text m)
    (hfuel : 2 * text.length ≤ fuel) (hroom : text.length ≤ room) (hrest : EndsNumber rest) :
    MemberStep textOfCodes fuel room (text ++ rest) m rest := by
  cases h with
  | @intro gap text v k hgap hvalue =>
    simp only [List.length_append, List.length_cons] at hfuel hroom
    have hnone : IsGaps [] := fun c hc => nomatch hc
    have hread : readValue textOfCodes fuel room (text ++ rest) = .ok (v, rest) :=
      hvalue.value (by omega) (by omega) hrest
    have hskip := hvalue.skipGap_append hgap rest
    have hname := readText_quoted hstyle k.toList (':' :: (gap ++ (text ++ rest)))
    have hstep :
        MemberStep textOfCodes fuel room _ (textOfCodes (k.toList.map Char.toNat), v) rest :=
      .intro hname (skipGap_gap_cons hnone (by decide) _) (by rwa [hskip])
    rw [textOfCodes_toNat] at hstep
    rw [List.append_assoc, List.cons_append, List.append_assoc, quote_append style]
    exact hstep

/-- Members are read up to the closing brace. -/
lemma MembersText.read {gap tail body : List Char} (hgap : IsGaps gap) {ms : Members}
    (h : MembersText style body ms) (hfuel : 2 * body.length + 1 ≤ fuel)
    (hroom : body.length ≤ room) :
    readMembers textOfCodes fuel room (skipGap (body ++ (gap ++ '}' :: tail))) =
      .ok (ms, tail) := by
  induction h generalizing fuel with
  | @last before text m hbefore hm =>
    rw [List.length_append] at hfuel hroom
    obtain ⟨fuel, rfl⟩ := Nat.exists_eq_add_one.mpr (show 0 < fuel by omega)
    rw [List.append_assoc, hm.skipGap_append hbefore, readMembers_eq_ok_iff]
    exact .last (hm.step hstyle (by omega) (by omega) (endsNumber_gap_cons hgap (by decide) tail))
      (skipGap_gap_cons hgap (by decide) tail)
  | @more before text body m ms hbefore hm _ ih =>
    simp only [List.length_append, List.length_cons] at hfuel hroom
    obtain ⟨fuel, rfl⟩ := Nat.exists_eq_add_one.mpr (show 0 < fuel by omega)
    rw [List.append_assoc, List.append_assoc, hm.skipGap_append hbefore, readMembers_eq_ok_iff]
    have hnone : IsGaps [] := fun c hc => nomatch hc
    exact .more (hm.step hstyle (by omega) (by omega) (endsNumber_gap_cons hnone (by decide) _))
      (skipGap_gap_cons hnone (by decide) _) (ih (by omega) (by omega))

end Members

/-! ## Lists and objects -/

section Nested

variable {gap body : List Char} (hgap : IsGaps gap)

lemma readsAs_emptyList : ReadsAs "[]".toList (.arr []) := by
  refine ⟨⟨'[', [']'], rfl, by decide, by decide⟩, fun {fuel room tail} hfuel hroom _ => ?_⟩
  obtain ⟨fuel, rfl⟩ := Nat.exists_eq_add_one.mpr (Nat.lt_of_lt_of_le (by decide) hfuel)
  obtain ⟨room, rfl⟩ := Nat.exists_eq_add_one.mpr (Nat.lt_of_lt_of_le (by decide) hroom)
  exact readValue_eq_ok_iff.mpr (.emptyList rfl)

lemma readsAs_emptyObject : ReadsAs ['{', '}'] (.obj []) := by
  refine ⟨⟨'{', ['}'], rfl, by decide, by decide⟩, fun {fuel room tail} hfuel hroom _ => ?_⟩
  obtain ⟨fuel, rfl⟩ := Nat.exists_eq_add_one.mpr (Nat.lt_of_lt_of_le (by decide) hfuel)
  obtain ⟨room, rfl⟩ := Nat.exists_eq_add_one.mpr (Nat.lt_of_lt_of_le (by decide) hroom)
  exact readValue_eq_ok_iff.mpr (.emptyObject rfl)

include hgap

lemma ItemsText.readsAs {items : List Json} (h : ItemsText body items) :
    ReadsAs ('[' :: body ++ gap ++ [']']) (.arr items) := by
  refine ⟨⟨'[', _, rfl, by decide, by decide⟩, fun {fuel room tail} hfuel hroom _ => ?_⟩
  simp only [List.length_append, List.length_cons, List.length_nil] at hfuel hroom
  obtain ⟨fuel, rfl⟩ := Nat.exists_eq_add_one.mpr (show 0 < fuel by omega)
  obtain ⟨room, rfl⟩ := Nat.exists_eq_add_one.mpr (show 0 < room by omega)
  have htext : '[' :: body ++ gap ++ [']'] ++ tail = '[' :: (body ++ (gap ++ ']' :: tail)) := by
    simp
  rw [htext, readValue_eq_ok_iff]
  refine .list (fun rest hclose => ?_) (h.read hgap (by omega) (by omega))
  obtain ⟨c, cs, hc, hne⟩ := h.skipGap_append (gap ++ ']' :: tail)
  exact hne (List.cons.inj (hc.symm.trans hclose)).1

lemma MembersText.readsAs {style : Style} (hstyle : style.EscapesControls) {ms : Members}
    (h : MembersText style body ms) :
    ReadsAs ('{' :: body ++ gap ++ ['}']) (.obj (ofPairs ms)) := by
  refine ⟨⟨'{', _, rfl, by decide, by decide⟩, fun {fuel room tail} hfuel hroom _ => ?_⟩
  simp only [List.length_append, List.length_cons, List.length_nil] at hfuel hroom
  obtain ⟨fuel, rfl⟩ := Nat.exists_eq_add_one.mpr (show 0 < fuel by omega)
  obtain ⟨room, rfl⟩ := Nat.exists_eq_add_one.mpr (show 0 < room by omega)
  have htext : '{' :: body ++ gap ++ ['}'] ++ tail = '{' :: (body ++ (gap ++ '}' :: tail)) := by
    simp
  rw [htext, readValue_eq_ok_iff]
  refine .object (fun rest hclose => ?_) (h.read hstyle hgap (by omega) (by omega))
  obtain ⟨cs, hcs⟩ := h.skipGap_append (gap ++ '}' :: tail)
  cases hcs.symm.trans hclose

end Nested

/-! ## Documents -/

/-- A text that is read as a value is read as it alone. -/
lemma ReadsAs.read_eq {text : List Char} {v : Json} (h : ReadsAs text v) : read text = .ok v := by
  have hnone : IsGaps [] := fun c hc => nomatch hc
  have hskip := h.skipGap_append hnone []
  rw [List.nil_append, List.append_nil] at hskip
  have hvalue :
      readValue textOfCodes (2 * text.length + 2) text.length (text ++ []) = .ok (v, []) :=
    h.value (Nat.le_add_right _ _) (Nat.le_refl _) fun c hc => nomatch hc
  rw [List.append_nil] at hvalue
  exact readWithin_eq_ok_iff.mpr ⟨[], by rwa [hskip], rfl⟩

end HoneypotAudit.Json
