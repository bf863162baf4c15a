import HoneypotAudit.Proofs.Json.HeldValues
import HoneypotAudit.Proofs.Json.RoundTrip

/-!
# Reading log lines

A proper value whose integers are short is read back from its line (`read_lineOf`), so these values
are just the ones that texts hold (`isHeld_iff`).  This goes for texts with halves of pairs and for
numbers that are not finite, too.
-/

namespace HoneypotAudit.Json

open HoneypotAudit.Text HoneypotAudit.Number HoneypotAudit.Outcome

/-! ## Texts with halves of pairs -/

section Codes

variable {style : Style} {n : Nat} {rest : List Char}

lemma escapeCode_of_valid (hn : n.isValidChar) :
    escapeCode style n = escapeChar style (Char.ofNat n) :=
  if_pos hn

lemma escapeCode_of_invalid (hn : ¬n.isValidChar) : escapeCode style n = unitEscape n :=
  if_neg hn

/-- What is no character is a half of a pair. -/
lemma half_of_invalid (hbound : n < 0x110000) (hn : ¬n.isValidChar) :
    0xD800 ≤ n ∧ n ≤ 0xDFFF := by
  unfold Nat.isValidChar at hn
  omega

lemma readLowUnit?_unitEscape (hbound : n < 0x10000) (hlow : ¬IsLowHalf n) :
    readLowUnit? (unitEscape n ++ rest) = none := by
  simp only [unitEscape, List.cons_append, readLowUnit?, readUnit?_padded hbound]
  exact if_neg hlow

/-- No character begins with a second half. -/
lemma readLowUnit?_escapeChar (c : Char) : readLowUnit? (escapeChar style c ++ rest) = none := by
  unfold escapeChar
  split
  next e hshort =>
    obtain ⟨hne, -⟩ := lookup_of_shortEscape? hshort
    simp [readLowUnit?, hne]
  next hshort =>
    obtain ⟨-, hbackslash⟩ := shortEscape?_ne hshort
    split
    next => simp [readLowUnit?, hbackslash]
    next =>
      have hrange := Utf8.toNat_range c
      rcases Nat.lt_or_ge c.toNat 0x10000 with hsmall | hlarge
      · rw [utf16Units_of_lt hsmall, List.flatMap_cons, List.append_assoc]
        exact readLowUnit?_unitEscape hsmall (toNat_no_half c).2
      · rw [utf16Units_of_le hlarge, List.flatMap_cons, List.append_assoc]
        refine readLowUnit?_unitEscape (by omega) ?_
        rintro ⟨hlow, -⟩
        omega

lemma readLowUnit?_escapeCode (hbound : n < 0x110000) (hlow : ¬IsLowHalf n) :
    readLowUnit? (escapeCode style n ++ rest) = none := by
  by_cases hvalid : n.isValidChar
  · rw [escapeCode_of_valid hvalid]
    exact readLowUnit?_escapeChar _
  · have hhalf := half_of_invalid hbound hvalid
    rw [escapeCode_of_invalid hvalid]
    exact readLowUnit?_unitEscape (by omega) hlow

/-- One step of the reader reads what was written for one code number, unless it is a first half in
front of a second one. -/
lemma readText_escapeCode (hstyle : style.EscapesControls) (hbound : n < 0x110000)
    (hapart : IsHighHalf n → readLowUnit? rest = none) (fuel : Nat) :
    readText (fuel + 1) (escapeCode style n ++ rest) =
      (readText fuel rest).map fun found => (n :: found.1, found.2) := by
  by_cases hvalid : n.isValidChar
  · have hchar : (Char.ofNat n).toNat = n := by
      rw [Char.ofNat, dif_pos hvalid]
      rfl
    rw [escapeCode_of_valid hvalid, readText_escapeChar hstyle, hchar]
  · have hhalf := half_of_invalid hbound hvalid
    rw [escapeCode_of_invalid hvalid]
    have hread : readEscape ('u' :: Hex.padded 4 n ++ rest) = .ok (n, rest) := by
      by_cases hhigh : 0xD800 ≤ n ∧ n ≤ 0xDBFF
      · simp only [List.cons_append, readEscape, readUnit?_padded (show n < 0x10000 by omega),
          if_pos hhigh, hapart hhigh]
      · exact readEscape_unit (by omega) hhigh rest
    exact readText_escape hread fuel

lemma escapeCode_ne_nil (style : Style) (n : Nat) : escapeCode style n ≠ [] := by
  unfold escapeCode
  split
  · exact escapeChar_ne_nil style _
  · exact List.cons_ne_nil _ _

/-- Code numbers without pairs in halves are read back. -/
lemma readText_codes (hstyle : style.EscapesControls) {codes : List Nat} (h : Unpaired codes)
    {fuel : Nat} (hfuel : codes.length < fuel) :
    readText fuel (codes.flatMap (escapeCode style) ++ '"' :: rest) = .ok (codes, rest) := by
  induction codes generalizing fuel with
  | nil =>
    obtain ⟨fuel, rfl⟩ := Nat.exists_eq_add_one.mpr hfuel
    rfl
  | cons n codes ih =>
    obtain ⟨fuel, rfl⟩ : ∃ k, fuel = k + 1 := Nat.exists_eq_add_one.mpr (Nat.zero_lt_of_lt hfuel)
    obtain ⟨hbound, hbounded⟩ := List.forall_mem_cons.mp h.bounded
    obtain ⟨hhead, hchain⟩ := List.isChain_cons.mp h.apart
    -- behind a first half there is the closing quote, or a number that is no second half
    have hapart : IsHighHalf n →
        readLowUnit? (codes.flatMap (escapeCode style) ++ '"' :: rest) = none := by
      intro hhigh
      cases codes with
      | nil => rfl
      | cons k codes =>
        rw [List.flatMap_cons, List.append_assoc]
        exact readLowUnit?_escapeCode (hbounded k List.mem_cons_self) (hhead k rfl hhigh)
    rw [List.flatMap_cons, List.append_assoc, readText_escapeCode hstyle hbound hapart,
      ih ⟨hbounded, hchain⟩ (Nat.lt_of_succ_lt_succ hfuel)]
    rfl

end Codes

/-! ## Values without parts -/

section Leaves

variable {style : Style}

lemma readsAs_garbled (hstyle : style.EscapesControls) {codes : List Nat} (h : Unpaired codes)
    (hhalf : ∃ n ∈ codes, ¬n.isValidChar) :
    ReadsAs (quoteCodes style codes) (.garbled codes) := by
  refine ⟨⟨'"', _, rfl, by decide, by decide⟩, fun {fuel room tail} hfuel _ _ => ?_⟩
  obtain ⟨fuel, rfl⟩ := Nat.exists_eq_add_one.mpr
    (show 0 < fuel by simp [quoteCodes] at hfuel; omega)
  have hgarbled : ofCodes codes = .garbled codes := by
    obtain ⟨n, hn, hinvalid⟩ := hhalf
    refine if_neg fun hall => hinvalid ?_
    simpa using List.all_eq_true.mp hall n hn
  have hlength := length_le_flatMap (escapeCode_ne_nil style) codes
  have hshort : codes.length < (codes.flatMap (escapeCode style) ++ '"' :: tail).length + 1 := by
    rw [List.length_append]
    omega
  have hquote : quoteCodes style codes ++ tail =
      '"' :: (codes.flatMap (escapeCode style) ++ '"' :: tail) := by
    simp [quoteCodes]
  rw [← hgarbled, readValue_eq_ok_iff, hquote]
  exact .text (readText_codes hstyle h hshort)

/-- Log lines name the values that are not finite. -/
lemma readsAs_rounded {x : Binary64} (h : x.IsRounded) :
    ReadsAs (floatText lineStyle x) (.float x) := by
  match x, h with
  | .nan, _ => exact readsAs_scalar (c := 'N') rfl (by decide) fun _ _ => rfl
  | .infinite true, _ => exact readsAs_scalar (c := '-') rfl (by decide) fun _ _ => rfl
  | .infinite false, _ => exact readsAs_scalar (c := 'I') rfl (by decide) fun _ _ => rfl
  | .finite negative m e, h => exact readsAs_floatText lineStyle h

end Leaves

/-! ## Reading lines back -/

section Lines

variable {style : Style} {gap : List Char}

/-- Items are one behind the other if each of them is read as it is. -/
lemma itemsText_line {items : List Json} (hgap : IsGaps gap) (hne : items ≠ [])
    (h : ∀ v ∈ items, ReadsAs (lineOf style v) v) :
    ItemsText (gap ++ lineOfItems style items) items := by
  induction items generalizing gap with
  | nil => exact absurd rfl hne
  | cons v items ih =>
    obtain ⟨hv, hitems⟩ := List.forall_mem_cons.mp h
    cases items with
    | nil =>
      rw [lineOfItems]
      exact .last hgap hv
    | cons w items =>
      have hmore := ih isGaps_blank (List.cons_ne_nil _ _) hitems
      rw [lineOfItems]
      · exact .more hgap hv hmore
      · exact List.cons_ne_nil _ _

/-- Members likewise, if each value is read as it is. -/
lemma membersText_line {members : Members} (hgap : IsGaps gap) (hne : members ≠ [])
    (h : ∀ m ∈ members, ReadsAs (lineOf style m.2) m.2) :
    MembersText style (gap ++ lineOfMembers style members) members := by
  induction members generalizing gap with
  | nil => exact absurd rfl hne
  | cons m members ih =>
    obtain ⟨k, v⟩ := m
    obtain ⟨hv, hmembers⟩ := List.forall_mem_cons.mp h
    have hmember : MemberText style _ (k, v) := .intro k isGaps_blank hv
    cases members with
    | nil =>
      rw [lineOfMembers]
      exact .last hgap hmember
    | cons m members =>
      have hmore := ih isGaps_blank (List.cons_ne_nil _ _) hmembers
      rw [lineOfMembers]
      · simpa using MembersText.more hgap hmember hmore
      · exact List.cons_ne_nil _ _

end Lines

lemma readsAs_lineOf {v : Json} (h : Proper v)
    (hshort : ∀ n ∈ v.integers, Integer.isWritable n = true) : ReadsAs (lineOf lineStyle v) v := by
  have hstyle := escapesControls_lineStyle
  have hnone : IsGaps [] := nofun
  induction h with
  | null =>
    rw [lineOf]
    exact readsAs_null
  | bool b =>
    rw [lineOf]
    exact readsAs_bool b
  | int n =>
    rw [lineOf]
    exact readsAs_int (hshort n (by simp [integers]))
  | float h =>
    rw [lineOf]
    exact readsAs_rounded h
  | str s =>
    rw [lineOf]
    exact readsAs_str hstyle s
  | garbled h hhalf =>
    rw [lineOf]
    exact readsAs_garbled hstyle h hhalf
  | @arr items _ ih =>
    have hread : ∀ v ∈ items, ReadsAs (lineOf lineStyle v) v := fun v hv =>
      ih v hv fun n hn => hshort n (mem_integers_arr.mpr ⟨v, hv, hn⟩)
    rw [lineOf]
    cases items with
    | nil => exact readsAs_emptyList
    | cons v items =>
      have hitems := itemsText_line hnone (List.cons_ne_nil v items) hread
      simpa using hitems.readsAs hnone
  | @obj members hkeys _ ih =>
    have hread : ∀ m ∈ members, ReadsAs (lineOf lineStyle m.2) m.2 := fun m hm =>
      ih m hm fun n hn => hshort n (mem_integers_obj.mpr ⟨m, hm, hn⟩)
    rw [lineOf]
    cases members with
    | nil => exact readsAs_emptyObject
    | cons m members =>
      have hmembers := membersText_line hnone (List.cons_ne_nil m members) hread
      have hobject := hmembers.readsAs hnone hstyle
      rw [ofPairs_of_nodup hkeys] at hobject
      simpa using hobject

/-- **A proper value whose integers are short is read back from its line.** -/
theorem read_lineOf {v : Json} (h : Held v) : read (lineOf lineStyle v) = .ok v :=
  (readsAs_lineOf h.proper h.short).read_eq

lemma read_line {v : Json} (h : Held v) : read (line v).toList = .ok v := by
  rw [line, String.toList_ofList]
  exact read_lineOf h

/-- **The values that texts hold are the proper ones whose integers are short.** -/
theorem isHeld_iff {v : Json} : IsHeld v ↔ Held v :=
  ⟨held_of_isHeld, fun h => ⟨_, read_lineOf h⟩⟩

end HoneypotAudit.Json
