import HoneypotAudit.Proofs.Json.Numerals
import HoneypotAudit.Proofs.Json.Reading
import HoneypotAudit.Proofs.Json.Writing
import HoneypotAudit.Proofs.Number.Rounding
import HoneypotAudit.Proofs.Text.Hexadecimal
import HoneypotAudit.Proofs.Text.Utf8
import Mathlib.Data.List.Chain

/-!
# What texts of JSON hold

Not every value is read of a text.  Floating-point numbers that are read are rounded, keys are set
once, and no text has the two halves of a UTF-16 pair side by side, since the reader puts them
together.  `Proper` says all this of a value.  Integers that are read have not too many digits
either, which `Held` adds; every value that some text holds is so (`held_of_isHeld`).
-/

namespace HoneypotAudit.Json

open HoneypotAudit.Text HoneypotAudit.Number HoneypotAudit.Outcome

/-! ## Halves of pairs -/

/-- The first half of a pair of UTF-16 units. -/
def IsHighHalf (n : Nat) : Prop :=
  0xD800 ≤ n ∧ n ≤ 0xDBFF

instance (n : Nat) : Decidable (IsHighHalf n) :=
  inferInstanceAs (Decidable (_ ∧ _))

/-- The second half of a pair of UTF-16 units. -/
def IsLowHalf (n : Nat) : Prop :=
  0xDC00 ≤ n ∧ n ≤ 0xDFFF

instance (n : Nat) : Decidable (IsLowHalf n) :=
  inferInstanceAs (Decidable (_ ∧ _))

/-- Code numbers of a text in which no pair is left in halves. -/
structure Unpaired (codes : List Nat) : Prop where
  bounded : ∀ n ∈ codes, n < 0x110000
  apart : codes.IsChain fun first second => IsHighHalf first → ¬IsLowHalf second

lemma toNat_no_half (c : Char) : ¬IsHighHalf c.toNat ∧ ¬IsLowHalf c.toNat := by
  have hrange := Utf8.toNat_range c
  constructor <;> (rintro ⟨hlow, hhigh⟩; omega)

lemma readUnit?_lt {cs rest : List Char} {n : Nat} (h : readUnit? cs = some (n, rest)) :
    n < 0x10000 := by
  unfold readUnit? at h
  split at h
  next =>
    split at h
    next ha hb hc hd =>
      cases h
      have := Hex.value?_lt ha
      have := Hex.value?_lt hb
      have := Hex.value?_lt hc
      have := Hex.value?_lt hd
      omega
    next => cases h
  next => cases h

lemma isLowHalf_of_readLowUnit? {cs rest : List Char} {n : Nat}
    (h : readLowUnit? cs = some (n, rest)) : IsLowHalf n := by
  unfold readLowUnit? at h
  split at h
  next =>
    split at h
    next =>
      split at h
      next hrange =>
        cases h
        exact hrange
      next => cases h
    next => cases h
  next => cases h

/-- A code number that is spelled by an escape.  It is a half of a pair only if the other half is
not next to it. -/
structure Escapes (cs rest : List Char) (n : Nat) : Prop where
  bounded : n < 0x110000
  high : IsHighHalf n → readLowUnit? rest = none
  low : IsLowHalf n → readLowUnit? ('\\' :: cs) ≠ none

lemma escapes_of_readEscape {cs rest : List Char} {n : Nat}
    (h : readEscape cs = .ok (n, rest)) : Escapes cs rest n := by
  unfold readEscape at h
  split at h
  next cs =>
    split at h
    next => cases h
    next unit behind hunit =>
      have hbound := readUnit?_lt hunit
      split at h
      next hhigh =>
        split at h
        next low behind hlow =>
          -- both halves are there, and make one number
          obtain ⟨hfrom, hto⟩ := isLowHalf_of_readLowUnit? hlow
          obtain ⟨hn, -⟩ := Prod.mk.inj (Except.ok.inj h)
          refine ⟨by omega, ?_, ?_⟩ <;> (rintro ⟨-, hless⟩; omega)
        next hnone =>
          cases h
          refine ⟨by omega, fun _ => hnone, ?_⟩
          rintro ⟨hless, -⟩
          omega
      next hhigh =>
        cases h
        refine ⟨by omega, fun hn => absurd hn hhigh, fun hn => ?_⟩
        simp [readLowUnit?, hunit, if_pos (show 0xDC00 ≤ n ∧ n ≤ 0xDFFF from hn)]
  next =>
    split at h
    next meant _ =>
      cases h
      obtain ⟨hhigh, hlow⟩ := toNat_no_half meant
      have hrange := Utf8.toNat_range meant
      exact ⟨by omega, fun hn => absurd hn hhigh, fun hn => absurd hn hlow⟩
    next => cases h
  next => cases h

/-- A code number in front of others. -/
lemma Unpaired.cons {codes : List Nat} {n : Nat} (h : Unpaired codes) (hn : n < 0x110000)
    (hapart : IsHighHalf n → ∀ k ∈ codes.head?, ¬IsLowHalf k) : Unpaired (n :: codes) where
  bounded := List.forall_mem_cons.mpr ⟨hn, h.bounded⟩
  apart := List.isChain_cons.mpr ⟨fun k hk hhigh => hapart hhigh k hk, h.apart⟩

/-- The reader leaves no pair in halves, and begins with a second half only where one is spelled. -/
lemma unpaired_of_readText {fuel : Nat} {cs rest : List Char} {codes : List Nat}
    (h : readText fuel cs = .ok (codes, rest)) :
    Unpaired codes ∧ (readLowUnit? cs = none → ∀ n ∈ codes.head?, ¬IsLowHalf n) := by
  -- the second part is what a first half in front of the text needs to know of it
  induction fuel generalizing cs codes rest with
  | zero => cases h
  | succ fuel ih =>
    unfold readText at h
    split at h
    next => cases h
    next =>
      cases h
      exact ⟨⟨nofun, .nil⟩, fun _ => nofun⟩
    next escaped =>
      obtain ⟨⟨n, behind⟩, hcode, h⟩ := bind_eq_ok_iff.mp h
      obtain ⟨⟨more, rest⟩, hmore, h⟩ := bind_eq_ok_iff.mp h
      cases h
      have hescape := escapes_of_readEscape hcode
      obtain ⟨hunpaired, hhead⟩ := ih hmore
      refine ⟨hunpaired.cons hescape.bounded fun hn => hhead (hescape.high hn), ?_⟩
      rintro hnone _ ⟨⟩ hn
      exact hescape.low hn hnone
    next c behind _ _ =>
      split at h
      next => cases h
      next =>
        obtain ⟨⟨more, rest⟩, hmore, h⟩ := bind_eq_ok_iff.mp h
        cases h
        obtain ⟨hhigh, hlow⟩ := toNat_no_half c
        have hrange := Utf8.toNat_range c
        refine ⟨(ih hmore).1.cons (by omega) fun hn => absurd hn hhigh, ?_⟩
        rintro _ _ ⟨⟩
        exact hlow

/-! ## Values -/

/-- A value as texts hold it, however long its integers are. -/
inductive Proper : Json → Prop
  | null : Proper .null
  | bool (b : Bool) : Proper (.bool b)
  | int (n : Int) : Proper (.int n)
  | float {x : Binary64} (h : x.IsRounded) : Proper (.float x)
  | str (s : String) : Proper (.str s)
  | garbled {codes : List Nat} (h : Unpaired codes) (hhalf : ∃ n ∈ codes, ¬n.isValidChar) :
      Proper (.garbled codes)
  | arr {items : List Json} (h : ∀ v ∈ items, Proper v) : Proper (.arr items)
  | obj {members : Members} (hkeys : (members.map (·.1)).Nodup)
      (h : ∀ m ∈ members, Proper m.2) : Proper (.obj members)

/-- A proper value without integers of too many digits. -/
structure Held (v : Json) : Prop where
  proper : Proper v
  short : ∀ n ∈ v.integers, Integer.isWritable n = true

/-- Some text holds a value. -/
def IsHeld (v : Json) : Prop :=
  ∃ cs, read cs = .ok v

lemma Proper.held {v : Json} (h : Proper v) (hnone : v.integers = []) : Held v :=
  ⟨h, by simp [hnone]⟩

lemma held_int {n : Int} (h : Integer.isWritable n = true) : Held (.int n) :=
  ⟨.int n, by simpa [integers] using h⟩

lemma held_arr {items : List Json} (h : ∀ v ∈ items, Held v) : Held (.arr items) where
  proper := .arr fun v hv => (h v hv).proper
  short n hn := by
    obtain ⟨v, hv, hn⟩ := mem_integers_arr.mp hn
    exact (h v hv).short n hn

lemma held_obj {members : Members} (hkeys : (members.map (·.1)).Nodup)
    (h : ∀ m ∈ members, Held m.2) : Held (.obj members) where
  proper := .obj hkeys fun m hm => (h m hm).proper
  short n hn := by
    obtain ⟨m, hm, hn⟩ := mem_integers_obj.mp hn
    exact (h m hm).short n hn

lemma held_ofCodes {codes : List Nat} (h : Unpaired codes) : Held (ofCodes codes) := by
  unfold ofCodes
  split
  next => exact (Proper.str _).held (by simp [integers])
  next hhalf =>
    rw [List.all_eq_true] at hhalf
    push Not at hhalf
    obtain ⟨n, hn, hinvalid⟩ := hhalf
    exact (Proper.garbled h ⟨n, hn, by simpa using hinvalid⟩).held (by simp [integers])

/-! ### Numbers and names -/

lemma isAsciiDigit_of_readDigits? {cs ds rest : List Char} (h : readDigits? cs = some (ds, rest)) :
    ∀ d ∈ ds, isAsciiDigit d = true := by
  unfold readDigits? at h
  split at h
  next => cases h
  next hspan =>
    cases h
    have hdigits : cs.takeWhile isAsciiDigit = ds := congrArg Prod.fst hspan
    rw [← hdigits]
    exact fun d hd => List.mem_takeWhile_imp hd

lemma isAsciiDigit_of_readWhole? {cs ds rest : List Char} (h : readWhole? cs = some (ds, rest)) :
    ∀ d ∈ ds, isAsciiDigit d = true := by
  unfold readWhole? at h
  split at h
  next =>
    cases h
    exact List.forall_mem_singleton.mpr rfl
  next => exact isAsciiDigit_of_readDigits? h

lemma held_float {x : Binary64} (h : x.IsRounded) : Held (.float x) :=
  (Proper.float h).held (by simp [integers])

lemma held_of_readNumber {negative : Bool} {cs rest : List Char} {v : Json}
    (h : readNumber negative cs = .ok (v, rest)) : Held v := by
  rw [readNumber_eq] at h
  split at h
  next => cases h
  next ds behind hwhole =>
    split at h
    next =>
      split at h
      next => cases h
      next hlength =>
        cases h
        rw [digitsValue_eq]
        exact held_int (Integer.isWritable_spelled (isAsciiDigit_of_readWhole? hwhole)
          (Nat.not_lt.mp hlength) negative)
    next =>
      cases h
      exact held_float (Binary64.isRounded_ofDecimal _ _ _)
    next =>
      cases h
      exact held_float (Binary64.isRounded_ofDecimal _ _ _)

lemma held_of_readScalar {cs rest : List Char} {v : Json} (h : readScalar cs = .ok (v, rest)) :
    Held v := by
  unfold readScalar at h
  split at h
  next found hname =>
    cases h
    obtain ⟨⟨word, named⟩, hmem, hword⟩ := List.exists_of_findSome?_eq_some hname
    obtain ⟨_, -, hvalue⟩ := Option.map_eq_some_iff.mp hword
    cases hvalue
    simp only [names, List.mem_cons, Prod.mk.injEq, List.not_mem_nil, or_false] at hmem
    rcases hmem with ⟨-, rfl⟩ | ⟨-, rfl⟩ | ⟨-, rfl⟩ | ⟨-, rfl⟩ | ⟨-, rfl⟩ | ⟨-, rfl⟩
    · exact Proper.null.held (by simp [integers])
    · exact (Proper.bool true).held (by simp [integers])
    · exact (Proper.bool false).held (by simp [integers])
    · exact held_float trivial
    · exact held_float trivial
    · exact held_float trivial
  next =>
    split at h
    next => exact held_of_readNumber h
    next => exact held_of_readNumber h

/-! ### Members -/

lemma mem_of_find? {key : String} {v : Json} {ms : Members} (h : find? key ms = some v) :
    (key, v) ∈ ms := by
  induction ms with
  | nil => cases h
  | cons m ms ih =>
    obtain ⟨k, w⟩ := m
    rw [find?] at h
    split at h
    next heq =>
      cases h
      subst heq
      exact List.mem_cons_self
    next => exact List.mem_cons_of_mem _ (ih h)

lemma find?_of_mem {key : String} {v : Json} {ms : Members} (hkeys : (ms.map (·.1)).Nodup)
    (h : (key, v) ∈ ms) : find? key ms = some v := by
  induction ms with
  | nil => cases h
  | cons m ms ih =>
    obtain ⟨k, w⟩ := m
    obtain ⟨hk, hkeys⟩ := List.nodup_cons.mp hkeys
    rw [find?]
    rcases List.mem_cons.mp h with heq | hmem
    · cases heq
      exact if_pos rfl
    · have hne : k ≠ key := by
        rintro rfl
        exact hk (List.mem_map.mpr ⟨_, hmem, rfl⟩)
      rw [if_neg hne, ih hkeys hmem]

lemma find?_eq_some_iff_mem {key : String} {v : Json} {ms : Members}
    (hkeys : (ms.map (·.1)).Nodup) :
    find? key ms = some v ↔ (key, v) ∈ ms :=
  ⟨mem_of_find?, find?_of_mem hkeys⟩

lemma mem_keys_insert {k key : String} {v : Json} {ms : Members}
    (h : key ∈ (insert k v ms).map (·.1)) : key = k ∨ key ∈ ms.map (·.1) := by
  induction ms with
  | nil => exact .inl (by simpa [insert] using h)
  | cons m ms ih =>
    obtain ⟨k', v'⟩ := m
    rw [insert] at h
    split at h
    next heq =>
      subst heq
      exact .inr h
    next =>
      rw [List.map_cons, List.mem_cons] at h ⊢
      rcases h with rfl | h
      · exact .inr (.inl rfl)
      · exact (ih h).imp_right .inr

lemma nodup_keys_insert {k : String} {v : Json} {ms : Members} (h : (ms.map (·.1)).Nodup) :
    ((insert k v ms).map (·.1)).Nodup := by
  induction ms with
  | nil => exact List.nodup_cons.mpr ⟨List.not_mem_nil, List.nodup_nil⟩
  | cons m ms ih =>
    obtain ⟨k', v'⟩ := m
    rw [List.map_cons, List.nodup_cons] at h
    rw [insert]
    split
    next heq =>
      subst heq
      exact List.nodup_cons.mpr h
    next hne =>
      refine List.nodup_cons.mpr ⟨fun hmem => ?_, ih h.2⟩
      exact (mem_keys_insert hmem).elim hne h.1

lemma mem_insert {k : String} {v : Json} {ms : Members} {m : String × Json}
    (h : m ∈ insert k v ms) : m = (k, v) ∨ m ∈ ms := by
  induction ms with
  | nil => exact .inl (List.mem_singleton.mp h)
  | cons m' ms ih =>
    obtain ⟨k', v'⟩ := m'
    rw [insert] at h
    split at h
    next heq =>
      subst heq
      exact (List.mem_cons.mp h).imp_right (List.mem_cons_of_mem _)
    next =>
      rcases List.mem_cons.mp h with rfl | h
      · exact .inr List.mem_cons_self
      · exact (ih h).imp_right (List.mem_cons_of_mem _)

/-- Members that are set one after another are an object of theirs. -/
lemma held_ofPairs {ms : Members} (h : ∀ m ∈ ms, Held m.2) : Held (.obj (ofPairs ms)) := by
  have hset : ∀ front : Members, (front.map (·.1)).Nodup → (∀ m ∈ front, Held m.2) →
      Held (.obj (ms.foldl (fun ms m => insert m.1 m.2 ms) front)) := by
    induction ms with
    | nil => exact fun front hkeys hfront => held_obj hkeys hfront
    | cons m ms ih =>
      intro front hkeys hfront
      obtain ⟨hm, hms⟩ := List.forall_mem_cons.mp h
      refine ih hms _ (nodup_keys_insert hkeys) fun m' hm' => ?_
      rcases mem_insert hm' with rfl | hm'
      · exact hm
      · exact hfront m' hm'
  exact hset [] List.nodup_nil nofun

/-! ### Reading -/

section Read

variable {named : List Nat → String}

/-- All that is read with some fuel is held. -/
structure ReadsHeld (named : List Nat → String) (fuel : Nat) : Prop where
  value : ∀ {room : Nat} {cs rest : List Char} {v : Json},
    readValue named fuel room cs = .ok (v, rest) → Held v
  items : ∀ {room : Nat} {cs rest : List Char} {items : List Json},
    readItems named fuel room cs = .ok (items, rest) → ∀ v ∈ items, Held v
  members : ∀ {room : Nat} {cs rest : List Char} {members : Members},
    readMembers named fuel room cs = .ok (members, rest) → ∀ m ∈ members, Held m.2

section Steps

variable {fuel room : Nat} {cs rest : List Char} (ih : ReadsHeld named fuel)
include ih

lemma ValueStep.held {v : Json} (h : ValueStep named fuel room cs v rest) : Held v := by
  cases h with
  | text h => exact held_ofCodes (unpaired_of_readText h).1
  | emptyList _ => exact held_arr nofun
  | list _ h => exact held_arr (ih.items h)
  | emptyObject _ => exact held_obj List.nodup_nil nofun
  | object _ h => exact held_ofPairs (ih.members h)
  | scalar _ h => exact held_of_readScalar h

lemma ItemsStep.held {items : List Json} (h : ItemsStep named fuel room cs items rest) :
    ∀ v ∈ items, Held v := by
  cases h with
  | last h _ => exact List.forall_mem_singleton.mpr (ih.value h)
  | more h _ hmore => exact List.forall_mem_cons.mpr ⟨ih.value h, ih.items hmore⟩

lemma MemberStep.held {m : String × Json} (h : MemberStep named fuel room cs m rest) :
    Held m.2 := by
  obtain ⟨-, -, hvalue⟩ := h
  exact ih.value hvalue

lemma MembersStep.held {members : Members}
    (h : MembersStep named fuel room cs members rest) : ∀ m ∈ members, Held m.2 := by
  cases h with
  | last h _ => exact List.forall_mem_singleton.mpr (h.held ih)
  | more h _ hmore => exact List.forall_mem_cons.mpr ⟨h.held ih, ih.members hmore⟩

end Steps

theorem readsHeld (named : List Nat → String) (fuel : Nat) : ReadsHeld named fuel := by
  induction fuel with
  | zero => exact ⟨nofun, nofun, nofun⟩
  | succ fuel ih =>
    refine ⟨fun h => ?_, fun h => ?_, fun h => ?_⟩
    · exact (readValue_eq_ok_iff.mp h).held ih
    · exact (readItems_eq_ok_iff.mp h).held ih
    · exact (readMembers_eq_ok_iff.mp h).held ih

end Read

/-- **Whatever a text holds is proper, and its integers are short.** -/
theorem held_of_isHeld {v : Json} (h : IsHeld v) : Held v := by
  obtain ⟨cs, hread⟩ := h
  obtain ⟨rest, hvalue, -⟩ := readWithin_eq_ok_iff.mp hread
  exact (readsHeld textOfCodes _).value hvalue

end HoneypotAudit.Json
