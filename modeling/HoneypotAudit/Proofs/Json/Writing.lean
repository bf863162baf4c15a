import HoneypotAudit.Json.Printer
import Mathlib.Data.List.Basic

/-!
# What is written in full

Two things keep a value from being written: integers of too many digits, and lists and objects that
are nested deeper than there is room for.  Nothing else does (`writeFault?_eq_none_iff`).
`powerOfTen` and `nestedLists` have a value of either kind for each bound.
-/

namespace HoneypotAudit.Json

open HoneypotAudit.Text

/-! ## Integers and levels -/

mutual

/-- The integers in a value, in order. -/
def integers : Json → List Int
  | .int n => [n]
  | .arr items => integersOfItems items
  | .obj members => integersOfMembers members
  | _ => []

/-- The integers in the items of a list. -/
def integersOfItems : List Json → List Int
  | [] => []
  | v :: rest => integers v ++ integersOfItems rest

/-- The integers in the members of an object. -/
def integersOfMembers : List (String × Json) → List Int
  | [] => []
  | (_, v) :: rest => integers v ++ integersOfMembers rest

end

mutual

/-- How many lists and objects are inside one another at most, none of them in a scalar. -/
def levels : Json → Nat
  | .arr items => levelsOfItems items + 1
  | .obj members => levelsOfMembers members + 1
  | _ => 0

/-- The levels of the deepest item, or zero. -/
def levelsOfItems : List Json → Nat
  | [] => 0
  | v :: rest => max (levels v) (levelsOfItems rest)

/-- The levels of the deepest member, or zero. -/
def levelsOfMembers : List (String × Json) → Nat
  | [] => 0
  | (_, v) :: rest => max (levels v) (levelsOfMembers rest)

end

section Parts

variable {n : Int} {k : Nat} {items : List Json} {members : Members}

lemma mem_integersOfItems : n ∈ integersOfItems items ↔ ∃ v ∈ items, n ∈ v.integers := by
  induction items with
  | nil => simp [integersOfItems]
  | cons v items ih => simp [integersOfItems, ih]

lemma mem_integersOfMembers : n ∈ integersOfMembers members ↔ ∃ m ∈ members, n ∈ m.2.integers := by
  induction members with
  | nil => simp [integersOfMembers]
  | cons m members ih =>
    obtain ⟨key, v⟩ := m
    rw [integersOfMembers, List.mem_append, ih, List.exists_mem_cons_iff]

lemma mem_integers_arr : n ∈ (Json.arr items).integers ↔ ∃ v ∈ items, n ∈ v.integers := by
  rw [integers, mem_integersOfItems]

lemma mem_integers_obj : n ∈ (Json.obj members).integers ↔ ∃ m ∈ members, n ∈ m.2.integers := by
  rw [integers, mem_integersOfMembers]

lemma levelsOfItems_le_iff : levelsOfItems items ≤ k ↔ ∀ v ∈ items, v.levels ≤ k := by
  induction items with
  | nil => simp [levelsOfItems]
  | cons v items ih => rw [levelsOfItems, Nat.max_le, ih, List.forall_mem_cons]

lemma levelsOfMembers_le_iff : levelsOfMembers members ≤ k ↔ ∀ m ∈ members, m.2.levels ≤ k := by
  induction members with
  | nil => simp [levelsOfMembers]
  | cons m members ih =>
    obtain ⟨key, v⟩ := m
    rw [levelsOfMembers, Nat.max_le, ih, List.forall_mem_cons]

end Parts

/-! ## Values that fit -/

/-- A value that is written in full where there is room for so many levels. -/
structure Fits (room : Nat) (v : Json) : Prop where
  short : ∀ n ∈ v.integers, Integer.isWritable n = true
  shallow : v.levels ≤ room

section Fits

variable {room : Nat} {items : List Json} {members : Members}

lemma fits_int_iff {n : Int} : (Json.int n).Fits room ↔ Integer.isWritable n = true := by
  refine ⟨fun h => h.short n (by simp [integers]), fun h => ⟨?_, Nat.zero_le _⟩⟩
  simpa [integers] using h

/-- What has no parts and is no integer fits everywhere. -/
lemma fits_of_plain {v : Json} (hintegers : v.integers = []) (hlevels : v.levels = 0) :
    v.Fits room :=
  ⟨by simp [hintegers], by simp [hlevels]⟩

lemma not_fits_zero_arr : ¬(Json.arr items).Fits 0 :=
  fun h => absurd h.shallow (by simp [levels])

lemma not_fits_zero_obj : ¬(Json.obj members).Fits 0 :=
  fun h => absurd h.shallow (by simp [levels])

lemma fits_succ_arr_iff : (Json.arr items).Fits (room + 1) ↔ ∀ v ∈ items, v.Fits room := by
  constructor
  · rintro ⟨hshort, hshallow⟩ v hv
    rw [levels, Nat.succ_le_succ_iff, levelsOfItems_le_iff] at hshallow
    exact ⟨fun n hn => hshort n (mem_integers_arr.mpr ⟨v, hv, hn⟩), hshallow v hv⟩
  · intro h
    refine ⟨fun n hn => ?_, ?_⟩
    · obtain ⟨v, hv, hn⟩ := mem_integers_arr.mp hn
      exact (h v hv).short n hn
    · rw [levels, Nat.succ_le_succ_iff, levelsOfItems_le_iff]
      exact fun v hv => (h v hv).shallow

lemma fits_succ_obj_iff :
    (Json.obj members).Fits (room + 1) ↔ ∀ m ∈ members, m.2.Fits room := by
  constructor
  · rintro ⟨hshort, hshallow⟩ m hm
    rw [levels, Nat.succ_le_succ_iff, levelsOfMembers_le_iff] at hshallow
    exact ⟨fun n hn => hshort n (mem_integers_obj.mpr ⟨m, hm, hn⟩), hshallow m hm⟩
  · intro h
    refine ⟨fun n hn => ?_, ?_⟩
    · obtain ⟨m, hm, hn⟩ := mem_integers_obj.mp hn
      exact (h m hm).short n hn
    · rw [levels, Nat.succ_le_succ_iff, levelsOfMembers_le_iff]
      exact fun m hm => (h m hm).shallow

end Fits

/-! ## Faults -/

mutual

/-- **Long integers and deep nesting are all that keeps a value from being written.** -/
theorem writeFault?_eq_none_iff : ∀ (room : Nat) (v : Json),
    v.writeFault? room = none ↔ v.Fits room
  | _, .null | _, .bool _ | _, .float _ | _, .str _ | _, .garbled _ =>
    iff_of_true (by rw [writeFault?] <;> simp) (fits_of_plain (by simp [integers]) rfl)
  | _, .int n => by
    rw [writeFault?, fits_int_iff]
    simp
  | 0, .arr items => iff_of_false (by simp [writeFault?]) not_fits_zero_arr
  | room + 1, .arr items => by
    rw [writeFault?, fits_succ_arr_iff, itemsFault?_eq_none_iff room items]
  | 0, .obj members => iff_of_false (by simp [writeFault?]) not_fits_zero_obj
  | room + 1, .obj members => by
    rw [writeFault?, fits_succ_obj_iff, membersFault?_eq_none_iff room members]

theorem itemsFault?_eq_none_iff : ∀ (room : Nat) (items : List Json),
    itemsFault? room items = none ↔ ∀ v ∈ items, v.Fits room
  | _, [] => by simp [itemsFault?]
  | room, v :: rest => by
    simp [itemsFault?, writeFault?_eq_none_iff room v, itemsFault?_eq_none_iff room rest]

theorem membersFault?_eq_none_iff : ∀ (room : Nat) (members : Members),
    membersFault? room members = none ↔ ∀ m ∈ members, m.2.Fits room
  | _, [] => by simp [membersFault?]
  | room, (key, v) :: rest => by
    simp only [membersFault?, Option.orElse_eq_orElse, Option.orElse_eq_or, Option.or_eq_none_iff,
      writeFault?_eq_none_iff room v, membersFault?_eq_none_iff room rest, List.forall_mem_cons]

end

/-! ## Values that do not fit -/

/-- An empty list within so many lists. -/
def nestedLists : Nat → Json
  | 0 => .arr []
  | n + 1 => .arr [nestedLists n]

lemma lt_levels_nestedLists (n : Nat) : n < (nestedLists n).levels := by
  induction n with
  | zero => simp [nestedLists, levels]
  | succ n ih =>
    rw [nestedLists, levels, levelsOfItems]
    omega

/-- Lists within lists are written as their brackets. -/
lemma lineOf_nestedLists (style : Style) (n : Nat) :
    lineOf style (nestedLists n) = List.replicate (n + 1) '[' ++ List.replicate (n + 1) ']' := by
  induction n with
  | zero => rfl
  | succ n ih =>
    rw [nestedLists, lineOf, lineOfItems, ih, List.replicate_succ (n := n + 1),
      List.replicate_succ' (n := n + 1) (a := ']')]
    simp only [List.cons_append, List.append_assoc]

/-- A power of ten. -/
def powerOfTen (n : Nat) : Json :=
  .int (.ofNat (Nat.pow 10 n))

/-- A power of ten is written as its zeros behind a one. -/
lemma lineOf_powerOfTen (style : Style) (n : Nat) :
    lineOf style (powerOfTen n) = '1' :: List.replicate n '0' := by
  have hdecimal : decimal (Nat.pow 10 n) = '1' :: List.replicate n '0' := by
    induction n with
    | zero => decide +kernel
    | succ n ih =>
      have hpos : 0 < Nat.pow 10 n := Nat.pow_pos (by decide)
      have hnext : Nat.pow 10 (n + 1) = Nat.pow 10 n * 10 := rfl
      have hrest : Nat.pow 10 (n + 1) / 10 = Nat.pow 10 n := by omega
      have hlast : digitChar (Nat.pow 10 (n + 1)) = '0' := by
        rw [digitChar, hnext, Nat.mul_mod_left]
      rw [decimal, if_neg (by omega), hrest, hlast, ih, List.replicate_succ', List.cons_append]
  rw [powerOfTen, lineOf]
  exact hdecimal

end HoneypotAudit.Json
