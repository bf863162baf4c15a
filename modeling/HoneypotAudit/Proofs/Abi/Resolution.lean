import HoneypotAudit.Abi.Resolve
import HoneypotAudit.Proofs.Abi.TypeText
import HoneypotAudit.Proofs.Outcome

/-!
# The types that texts stand for

A text that stands for a type splits into a stem and dimensions: the stem stands for a basic type or
a tuple, and the dimensions are arrays around it (`exists_stem_of_resolve`), for all of which there
is room (`HoldsDims`).

The other way round, a basic type that is spelled in full stands for what its base and size do, with
its dimensions around it, as long as there is room (`resolve_text`).
-/

namespace HoneypotAudit.Abi

open HoneypotAudit.Text HoneypotAudit.Outcome HoneypotAudit.Abi.TypeText

/-! ## Stems -/

/-- The full form of a base and a size. -/
def full (base : String) (size : Option Size) : String × Option Size :=
  match size, expand? base with
  | none, some p => p
  | _, _ => (base, size)

lemma normalize_basic (base : String) (size : Option Size) (dims : List (Option Nat)) :
    TypeText.normalize (.basic base size dims)
      = .basic (full base size).1 (full base size).2 dims := by
  unfold TypeText.normalize full
  split <;> simp_all

/-- A base and a size as written stand for a type. -/
structure IsLeaf (base : String) (size : Option Size) (t : AbiType) : Prop where
  suits : checkSize (full base size).1 (full base size).2 = none
  stands : leaf (full base size).1 (full base size).2 = .ok t

/-- The text of a type without dimensions, and the type. -/
inductive Stem : List Char → AbiType → Prop
  | basic {base : String} {size : Option Size} {t : AbiType} (h : IsLeaf base size t) :
      Stem (base.toList ++ sizeText size) t
  | tuple (items : List TypeText) (ts : List AbiType) :
      Stem ('(' :: textOfItems items ++ [')']) (.tuple ts)

/-- A base stands for itself, or for byte strings by another name. -/
lemma full_eq {base base' : String} {size size' : Option Size}
    (h : full base size = (base', size')) :
    (base = base' ∧ (size = size' ∨ size = none)) ∨
      (base' = "bytes" ∧ size' ≠ none ∧ size = none ∧ (base = "function" ∨ base = "byte")) := by
  unfold full at h
  split at h
  next p hp =>
    subst h
    unfold expand? at hp
    grind
  next =>
    obtain ⟨rfl, rfl⟩ := Prod.mk.inj h
    exact .inl ⟨rfl, .inl rfl⟩

/-- The bases and sizes that stand for the kinds of basic types. -/
inductive LeafForm : String → Option Size → AbiType → Prop
  | unsigned (size : Option Size) (bits : Nat) : LeafForm "uint" size (.unsigned bits)
  | signed (size : Option Size) (bits : Nat) : LeafForm "int" size (.signed bits)
  | unsignedFixed (size : Option Size) (bits places : Nat) :
      LeafForm "ufixed" size (.unsignedFixed bits places)
  | signedFixed (size : Option Size) (bits places : Nat) :
      LeafForm "fixed" size (.signedFixed bits places)
  | boolean (size : Option Size) : LeafForm "bool" size .boolean
  | address : LeafForm "address" none .address
  | fixedBytes {base : String} (hbase : base = "bytes" ∨ base = "function" ∨ base = "byte")
      (size : Option Size) (n : Nat) : LeafForm base size (.fixedBytes n)
  | bytes : LeafForm "bytes" none .bytes
  | string : LeafForm "string" none .string

lemma IsLeaf.form {base : String} {size : Option Size} {t : AbiType} (h : IsLeaf base size t) :
    LeafForm base size t := by
  obtain ⟨hsuits, hstands⟩ := h
  cases hfull : full base size with
  | mk base' size' =>
    have hbase := full_eq hfull
    rw [hfull] at hsuits hstands
    unfold leaf at hstands
    simp only at hstands hsuits
    split at hstands <;> cases hstands
    · obtain ⟨rfl, -⟩ : base = "uint" ∧ _ := by simpa using hbase
      exact .unsigned _ _
    · obtain ⟨rfl, -⟩ : base = "int" ∧ _ := by simpa using hbase
      exact .signed _ _
    · obtain ⟨rfl, -⟩ : base = "ufixed" ∧ _ := by simpa using hbase
      exact .unsignedFixed _ _ _
    · obtain ⟨rfl, -⟩ : base = "fixed" ∧ _ := by simpa using hbase
      exact .signedFixed _ _ _
    · exact .fixedBytes (hbase.imp And.left fun h => h.2.2.2) _ _
    · obtain ⟨rfl, rfl⟩ : base = "bytes" ∧ size = none := by simpa using hbase
      exact .bytes
    · obtain ⟨rfl, hsize⟩ : base = "address" ∧ _ := by simpa using hbase
      obtain rfl : size' = none := by simpa [checkSize] using hsuits
      obtain rfl : size = none := by simpa using hsize
      exact .address
    · obtain ⟨rfl, -⟩ : base = "bool" ∧ _ := by simpa using hbase
      exact .boolean _
    · obtain ⟨rfl, hsize⟩ : base = "string" ∧ _ := by simpa using hbase
      obtain rfl : size' = none := by simpa [checkSize] using hsuits
      obtain rfl : size = none := by simpa using hsize
      exact .string

/-- A base that stands for a type is one of those that are known, or short for another. -/
lemma IsLeaf.base_mem {base : String} {size : Option Size} {t : AbiType} (h : IsLeaf base size t) :
    base ∈ "byte" :: knownBases := by
  cases h.form with
  | fixedBytes hbase => rcases hbase with rfl | rfl | rfl <;> decide
  | _ => decide

/-- A basic type has no brackets in its stem. -/
lemma IsLeaf.not_mem {base : String} {size : Option Size} {t : AbiType} (h : IsLeaf base size t)
    {c : Char} (hc : c = '[' ∨ c = ']') : c ∉ base.toList ++ sizeText size := by
  have hbase : c ∉ base.toList := by
    have hplain : ∀ b ∈ "byte" :: knownBases, '[' ∉ b.toList ∧ ']' ∉ b.toList := by decide
    rcases hc with rfl | rfl
    · exact (hplain base h.base_mem).1
    · exact (hplain base h.base_mem).2
  have hdigits : ∀ n, c ∉ decimal n := by
    intro n hmem
    have hdigit := isAsciiDigit_of_mem_decimal hmem
    rcases hc with rfl | rfl <;> cases hdigit
  have hmark : c ≠ 'x' := by rcases hc with rfl | rfl <;> decide
  rw [List.mem_append, not_or]
  refine ⟨hbase, ?_⟩
  cases size with
  | none => simp [sizeText]
  | some size =>
    cases size with
    | one n => exact hdigits n
    | pair a b => simp [sizeText, hdigits, hmark]

/-- There is room for looking up so many dimensions. -/
def HoldsDims (rooms : Rooms) (count : Nat) : Prop :=
  rooms.dimension * count ≤ rooms.lookUps

instance (rooms : Rooms) (count : Nat) : Decidable (HoldsDims rooms count) :=
  inferInstanceAs (Decidable (_ ≤ _))

/-! ## Looking up a tree -/

lemma check_basic_eq_ok {whole base : String} {offset : Nat} {size : Option Size}
    {dims : List (Option Nat)} :
    check whole offset (.basic base size dims) = .ok () ↔ checkSize base size = none := by
  unfold check
  split <;> simp [*]

lemma takeRoom_eq_ok {room taken left : Nat} :
    takeRoom room taken = .ok left ↔ taken ≤ room ∧ left = room - taken := by
  unfold takeRoom
  split <;> simp [eq_comm] <;> omega

/-- A basic tree is looked up by its base, if its size suits and there is room for its
dimensions. -/
lemma build_basic {rooms : Rooms} {room : Nat} {base : String} {size : Option Size}
    {dims : List (Option Nat)}
    (hsuits : checkSize base size = none) :
    build rooms room (.basic base size dims) =
      if rooms.dimension * dims.length ≤ room then (leaf base size).map (withDims · dims)
      else .error .tooDeep := by
  have hcheck : check (String.ofList (text (.basic base size dims))) 0 (.basic base size dims)
      = .ok () := check_basic_eq_ok.mpr hsuits
  simp only [build, hcheck, ok_bind, takeRoom]
  by_cases hroom : rooms.dimension * dims.length ≤ room
  · rw [if_neg (by omega), if_pos hroom, ok_bind]
  · rw [if_pos (by omega), if_neg hroom, error_bind]

/-- A basic tree that stands for a type has a size that suits, room for its dimensions, and a base
that stands for a type. -/
lemma exists_of_build_basic {rooms : Rooms} {room : Nat} {base : String} {size : Option Size}
    {dims : List (Option Nat)} {t : AbiType}
    (h : build rooms room (.basic base size dims) = .ok t) :
    checkSize base size = none ∧ rooms.dimension * dims.length ≤ room ∧
      ∃ item, leaf base size = .ok item ∧ withDims item dims = t := by
  have hsuits : checkSize base size = none := by
    simp only [build, bind_eq_ok_iff] at h
    obtain ⟨⟨⟩, hcheck, -⟩ := h
    exact check_basic_eq_ok.mp hcheck
  rw [build_basic hsuits] at h
  split at h
  next hroom => exact ⟨hsuits, hroom, by simpa using h⟩
  next => cases h

/-- A tuple that stands for a type has room for its dimensions. -/
lemma exists_of_build_tuple {rooms : Rooms} {room : Nat} {items : List TypeText}
    {dims : List (Option Nat)} {t : AbiType} (h : build rooms room (.tuple items dims) = .ok t) :
    rooms.dimension * dims.length ≤ room ∧ ∃ ts, withDims (.tuple ts) dims = t := by
  simp only [build, bind_eq_ok_iff, takeRoom_eq_ok, map_eq_ok_iff] at h
  obtain ⟨⟨⟩, -, left, ⟨hroom, -⟩, ts, -, ht⟩ := h
  exact ⟨by omega, ts, ht⟩

/-! ## Texts that stand for types -/

/-- **A text that stands for a type** is a stem with dimensions behind it. -/
theorem exists_stem_of_resolve {rooms : Rooms} {cs : List Char} {t : AbiType}
    (h : resolve rooms cs = .ok t) :
    ∃ stem item dims, Stem stem item ∧ cs = stem ++ dims.flatMap dimText ∧
      t = withDims item dims ∧ HoldsDims rooms dims.length := by
  unfold resolve at h
  split at h
  · cases h
  next tree hparse =>
    have htext := text_of_parse hparse
    have hbuild : build rooms rooms.lookUps tree.normalize = .ok t := by
      split at h
      · split at h
        · exact h
        · cases h
      · exact h
    cases tree with
    | basic base size dims =>
      rw [normalize_basic] at hbuild
      obtain ⟨hsuits, hroom, item, hleaf, rfl⟩ := exists_of_build_basic hbuild
      exact ⟨_, item, dims, .basic ⟨hsuits, hleaf⟩, by rw [← htext, text], rfl, hroom⟩
    | tuple items dims =>
      rw [TypeText.normalize] at hbuild
      obtain ⟨hroom, ts, rfl⟩ := exists_of_build_tuple hbuild
      refine ⟨_, .tuple ts, dims, .tuple items ts, ?_, rfl, hroom⟩
      rw [← htext, text]
      simp

/-- **A basic type that is spelled in full** stands for what its base and size do, with its
dimensions around it, if there is room for them. -/
theorem resolve_text {rooms : Rooms} {base : String} {size : Option Size} {dims : List (Option Nat)}
    {item : AbiType} (hspell : Spellable base size dims) (hknown : base ∈ knownBases)
    (hleaf : IsLeaf base size item) :
    resolve rooms (text (.basic base size dims)) =
      if HoldsDims rooms dims.length then .ok (withDims item dims) else .error .tooDeep := by
  have hresolve : resolve rooms (text (.basic base size dims))
      = build rooms rooms.lookUps (TypeText.normalize (.basic base size dims)) := by
    unfold resolve
    rw [parse_text hspell]
    simp only
    split
    next heq =>
      cases heq
      rw [if_pos hknown]
    next => rfl
  rw [hresolve, normalize_basic, build_basic hleaf.suits, hleaf.stands]
  rfl

end HoneypotAudit.Abi
