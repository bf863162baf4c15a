import HoneypotAudit.Abi.Signature
import HoneypotAudit.Proofs.Abi.Encoding
import HoneypotAudit.Proofs.Abi.Resolution

/-!
# Declared types in the ABI

`Declares` relates the declared types of value parameters to the ABI types that they stand for:
basic types, contracts and enums, and arrays of these to any depth.  It does not go through any
text.  The decoder does: a declared type is written as a type text, and the text is looked up.
This comes to the same within the limits of the text (`exists_typeText_of_withinLimits`) and fails
beyond them (`withinLimits_of_typeText`): where the arrays are nested deeper than there is room for,
or a length has too many digits to be written.
-/

namespace HoneypotAudit.Abi

open HoneypotAudit.Solidity HoneypotAudit.Text HoneypotAudit.Outcome HoneypotAudit.Abi.TypeText

/-! ## Declarations -/

/-- The name of a basic type with a size. -/
def sizedName (base : String) (size : Nat) : String :=
  base ++ String.ofList (decimal size)

/-- A declared type that is no array stands for a basic ABI type.  A contract counts as its address
and an enum as a number of one byte. -/
inductive DeclaresBasic : TypeName → AbiType → Prop
  | bool : DeclaresBasic (.elementary "bool") .boolean
  | address : DeclaresBasic (.elementary "address") .address
  | addressPayable : DeclaresBasic (.elementary "address payable") .address
  | uint : DeclaresBasic (.elementary "uint") (.unsigned (8 * 32))
  | uintSized {size : Nat} (hpos : 0 < size) (hsize : size ≤ wordSize) :
      DeclaresBasic (.elementary (sizedName "uint" (8 * size))) (.unsigned (8 * size))
  | int : DeclaresBasic (.elementary "int") (.signed (8 * 32))
  | intSized {size : Nat} (hpos : 0 < size) (hsize : size ≤ wordSize) :
      DeclaresBasic (.elementary (sizedName "int" (8 * size))) (.signed (8 * size))
  | byte : DeclaresBasic (.elementary "byte") (.fixedBytes 1)
  | bytesSized {size : Nat} (hpos : 0 < size) (hsize : size ≤ wordSize) :
      DeclaresBasic (.elementary (sizedName "bytes" size)) (.fixedBytes size)
  | bytes : DeclaresBasic (.elementary "bytes") .bytes
  | string : DeclaresBasic (.elementary "string") .string
  | contract {name typeString : String}
      (h : TypeName.kindOf typeString = "contract" ∨ TypeName.kindOf typeString = "interface") :
      DeclaresBasic (.named name typeString) .address
  | enum {name typeString : String} (h : TypeName.kindOf typeString = "enum") :
      DeclaresBasic (.named name typeString) (.unsigned (8 * 1))

/-- A declared type stands for an ABI type: a basic one, or an array that is open or has a length
above zero. -/
inductive Declares : TypeName → AbiType → Prop
  | basic {T : TypeName} {t : AbiType} (h : DeclaresBasic T t) : Declares T t
  | array {base : TypeName} {item : AbiType} (h : Declares base item) :
      Declares (.array base .dynamic) (.array item)
  | sized {base : TypeName} {item : AbiType} {n : Nat} (hn : 0 < n) (h : Declares base item) :
      Declares (.array base (.fixed n)) (.sized item n)

/-- What is declared is a type that values are laid out in. -/
lemma standard_of_declares {T : TypeName} {t : AbiType} (h : Declares T t) : Standard t := by
  induction h with
  | basic h =>
    cases h with
    | bool => exact .boolean
    | address => exact .address
    | addressPayable => exact .address
    | uint => exact .unsigned (by decide) (by decide)
    | uintSized hpos hsize => exact .unsigned hpos hsize
    | int => exact .signed (by decide) (by decide)
    | intSized hpos hsize => exact .signed hpos hsize
    | byte => exact .fixedBytes (by decide) (by decide)
    | bytesSized hpos hsize => exact .fixedBytes hpos hsize
    | bytes => exact .bytes
    | string => exact .string
    | contract _ => exact .address
    | enum _ => exact .unsigned (by decide) (by decide)
  | array _ ih => exact .array ih
  | sized hn _ ih => exact .sized hn ih

/-! ## Basic types as texts -/

/-- A declared type is written as a base and a size that stand for an ABI type. -/
structure WrittenAs (T : TypeName) (base : String) (size : Option Size) (t : AbiType) : Prop where
  text : ∀ room, typeText room T = .ok (base.toList ++ sizeText size)
  known : base ∈ knownBases
  spelled : Spellable base size []
  leaf : IsLeaf base size t

/-- No alias has a digit in its name. -/
lemma expand_of_digit {name : String} {c : Char} (hc : c ∈ name.toList)
    (hdigit : isAsciiDigit c = true) : TypeName.expand name = name := by
  have hnone : ∀ p ∈ TypeName.aliases, name ≠ p.1 := by
    rintro p hp rfl
    have hplain : ∀ p ∈ TypeName.aliases, p.1.toList.any isAsciiDigit = false := by decide
    simp [List.any_eq_false.mp (hplain p hp) c hc] at hdigit
  have hlookup : TypeName.aliases.lookup name = none := by
    rw [List.lookup_eq_none_iff]
    intro p hp
    simpa using hnone p hp
  rw [TypeName.expand, hlookup, Option.getD_none]

lemma typeText_elementary {name : String} {cs : List Char}
    (h : (TypeName.expand name).toList = cs) (room : Nat) :
    typeText room (.elementary name) = .ok cs :=
  congrArg Except.ok h

lemma typeText_sizedName (base : String) (size room : Nat) :
    typeText room (.elementary (sizedName base size)) = .ok (base.toList ++ decimal size) := by
  obtain ⟨c, cs, hcs⟩ := List.exists_cons_of_ne_nil (decimal_ne_nil size)
  have hmem : c ∈ (sizedName base size).toList := by simp [sizedName, hcs]
  have hdigit : isAsciiDigit c = true := isAsciiDigit_of_mem_decimal (n := size) (by simp [hcs])
  refine typeText_elementary ?_ room
  rw [expand_of_digit hmem hdigit]
  simp [sizedName]

/-- The numbers of bits that integers have. -/
lemma checkInteger_eq_none {size : Nat} (hpos : 0 < size) (hsize : size ≤ wordSize) :
    checkInteger (some (.one (8 * size))) = none := by
  have hlimit : size ≤ 32 := hsize
  simp only [checkInteger]
  rw [if_neg (by omega), if_neg (by omega)]

/-- The bases that stand for types are words. -/
lemma spellable_of_known {base : String} (hknown : base ∈ knownBases) {size : Option Size}
    (hsize : PositiveSize size) : Spellable base size [] where
  nonempty := by
    have hwords : ∀ b ∈ knownBases, b.toList ≠ [] := by decide
    exact hwords base hknown
  letters := by
    have hwords : ∀ b ∈ knownBases, b.toList.all isAsciiLetter = true := by decide
    exact List.all_eq_true.mp (hwords base hknown)
  size := hsize
  dims := by simp

lemma writtenAs_uint {size : Nat} (hpos : 0 < size) (hsize : size ≤ wordSize) {T : TypeName}
    (htext : ∀ room, typeText room T = .ok ("uint".toList ++ decimal (8 * size))) :
    WrittenAs T "uint" (some (.one (8 * size))) (.unsigned (8 * size)) where
  text := htext
  known := by decide
  spelled := spellable_of_known (by decide) (show 0 < 8 * size by omega)
  leaf := ⟨by simpa [full, checkSize] using checkInteger_eq_none hpos hsize, rfl⟩

lemma writtenAs_int {size : Nat} (hpos : 0 < size) (hsize : size ≤ wordSize) {T : TypeName}
    (htext : ∀ room, typeText room T = .ok ("int".toList ++ decimal (8 * size))) :
    WrittenAs T "int" (some (.one (8 * size))) (.signed (8 * size)) where
  text := htext
  known := by decide
  spelled := spellable_of_known (by decide) (show 0 < 8 * size by omega)
  leaf := ⟨by simpa [full, checkSize] using checkInteger_eq_none hpos hsize, rfl⟩

lemma writtenAs_bytes {size : Nat} (hpos : 0 < size) (hsize : size ≤ wordSize) {T : TypeName}
    (htext : ∀ room, typeText room T = .ok ("bytes".toList ++ decimal size)) :
    WrittenAs T "bytes" (some (.one size)) (.fixedBytes size) where
  text := htext
  known := by decide
  spelled := spellable_of_known (by decide) hpos
  leaf := by
    have hlimit : ¬32 < size := Nat.not_lt.mpr hsize
    exact ⟨by simp [full, checkSize, hlimit], rfl⟩

/-- A declared type that is written as a base alone. -/
lemma writtenAs_plain {T : TypeName} {base : String} {t : AbiType}
    (htext : ∀ room, typeText room T = .ok base.toList) (hknown : base ∈ knownBases)
    (hleaf : IsLeaf base none t) :
    WrittenAs T base none t where
  text := by simpa [sizeText] using htext
  known := hknown
  spelled := spellable_of_known hknown trivial
  leaf := hleaf

lemma isLeaf_address : IsLeaf "address" none .address :=
  ⟨by decide, rfl⟩

/-- Every basic type is written as a base and a size. -/
lemma exists_writtenAs {T : TypeName} {t : AbiType} (h : DeclaresBasic T t) :
    ∃ base size, WrittenAs T base size t := by
  cases h with
  | bool => exact ⟨_, _, writtenAs_plain (fun _ => rfl) (by decide) ⟨by decide, rfl⟩⟩
  | address => exact ⟨_, _, writtenAs_plain (fun _ => rfl) (by decide) isLeaf_address⟩
  | addressPayable =>
    exact ⟨_, _, writtenAs_plain (fun _ => rfl) (by decide) isLeaf_address⟩
  | uint =>
    exact ⟨_, _, writtenAs_uint (by decide) (by decide) (typeText_elementary (by decide +kernel))⟩
  | uintSized hpos hsize => exact ⟨_, _, writtenAs_uint hpos hsize (typeText_sizedName _ _)⟩
  | int =>
    exact ⟨_, _, writtenAs_int (by decide) (by decide) (typeText_elementary (by decide +kernel))⟩
  | intSized hpos hsize => exact ⟨_, _, writtenAs_int hpos hsize (typeText_sizedName _ _)⟩
  | byte =>
    exact ⟨_, _, writtenAs_bytes (by decide) (by decide) (typeText_elementary (by decide +kernel))⟩
  | bytesSized hpos hsize => exact ⟨_, _, writtenAs_bytes hpos hsize (typeText_sizedName _ _)⟩
  | bytes => exact ⟨_, _, writtenAs_plain (fun _ => rfl) (by decide) ⟨by decide, rfl⟩⟩
  | string => exact ⟨_, _, writtenAs_plain (fun _ => rfl) (by decide) ⟨by decide, rfl⟩⟩
  | contract hkind =>
    refine ⟨_, _, writtenAs_plain (fun room => ?_) (by decide) isLeaf_address⟩
    show leafText room _ = _
    simp only [leafText, if_pos hkind]
  | enum hkind =>
    refine ⟨_, _, writtenAs_uint (by decide) (by decide) fun room => ?_⟩
    show leafText room _ = _
    have hdigits : decimal (8 * 1) = ['8'] := by decide +kernel
    simp [leafText, hkind, hdigits]

/-! ## Declared types as texts -/

lemma spellable_append {base : String} {size : Option Size} {dims : List (Option Nat)}
    (h : Spellable base size dims) {d : Option Nat} (hd : d ≠ some 0) :
    Spellable base size (dims ++ [d]) where
  nonempty := h.nonempty
  letters := h.letters
  size := h.size
  dims := by
    intro e he
    rcases List.mem_append.mp he with he | he
    · exact h.dims e he
    · exact List.mem_singleton.mp he ▸ hd

/-- An array is written as its base with brackets behind it. -/
lemma typeText_array {room : Nat} {base : TypeName} {length : ArrayLength} {base' : String}
    {size : Option Size} {dims : List (Option Nat)} {d : Option Nat}
    (hbase : typeText room base = .ok (text (.basic base' size dims)))
    (hresolved : length.isResolved = true) (hshown : length.shown?.all Integer.isWritable = true)
    (hbrackets : length.brackets = dimText d) :
    typeText room (.array base length) = .ok (text (.basic base' size (dims ++ [d]))) := by
  rw [typeText, hresolved, hshown, hbase, hbrackets]
  simp [Except.map, text]

/-- A declared type is written as a basic type text with a dimension for each of its arrays.  The
lengths have to have so few digits that they are written at all. -/
lemma exists_text_of_declares {T : TypeName} {t : AbiType} (h : Declares T t)
    (hlengths : ∀ n ∈ T.shownLengths, Integer.isWritable n = true) (room : Nat) :
    ∃ base size dims item, base ∈ knownBases ∧ Spellable base size dims ∧ IsLeaf base size item ∧
      typeText room T = .ok (text (.basic base size dims)) ∧ t = withDims item dims ∧
      dims.length + 1 = T.depth := by
  induction h with
  | @basic T t h =>
    obtain ⟨base, size, hT⟩ := exists_writtenAs h
    have htext : typeText room T = .ok (text (.basic base size [])) := by
      simpa [text] using hT.text room
    refine ⟨base, size, [], t, hT.known, hT.spelled, hT.leaf, htext, rfl, ?_⟩
    cases h <;> rfl
  | array _ ih =>
    obtain ⟨base, size, dims, item, hknown, hspell, hleaf, htext, rfl, hdepth⟩ :=
      ih fun n hn => hlengths n (by simpa [TypeName.shownLengths] using .inl hn)
    refine ⟨base, size, dims ++ [none], item, hknown, ?_, hleaf, ?_, ?_, ?_⟩
    · exact spellable_append hspell (by simp)
    · exact typeText_array htext rfl rfl rfl
    · simp [withDims]
    · simp [TypeName.depth, ← hdepth]
  | @sized _ _ n hn _ ih =>
    obtain ⟨base, size, dims, item, hknown, hspell, hleaf, htext, rfl, hdepth⟩ :=
      ih fun m hm => hlengths m (by simpa [TypeName.shownLengths] using .inl hm)
    refine ⟨base, size, dims ++ [some n], item, hknown, ?_, hleaf, ?_, ?_, ?_⟩
    · exact spellable_append hspell (by simp; omega)
    · have hwritable := hlengths n (by simp [TypeName.shownLengths, ArrayLength.shown?])
      exact typeText_array htext rfl (by simpa [ArrayLength.shown?] using hwritable) rfl
    · simp [withDims]
    · simp [TypeName.depth, ← hdepth]

/-- A length that is not written keeps a declared type from being written. -/
lemma typeText_of_not_writable {room : Nat} {T : TypeName} {t : AbiType} (h : Declares T t)
    (hlengths : ¬∀ n ∈ T.shownLengths, Integer.isWritable n = true) :
    typeText room T = .error .longLength := by
  induction h with
  | basic h => cases h <;> simp [TypeName.shownLengths] at hlengths
  | array _ ih =>
    have hbase := ih fun hall => hlengths (by simpa [TypeName.shownLengths, ArrayLength.shown?])
    rw [typeText, hbase]
    rfl
  | @sized base _ n hn _ ih =>
    rw [typeText]
    by_cases hwritable : Integer.isWritable n = true
    · have hbase := ih fun hall => hlengths fun m hm => by
        rcases List.mem_append.mp hm with hm | hm
        · exact hall m hm
        · obtain rfl : m = n := by simpa [ArrayLength.shown?] using hm
          exact hwritable
      rw [hbase]
      simp [ArrayLength.isResolved, ArrayLength.shown?, hwritable, Except.map]
    · simp [ArrayLength.isResolved, ArrayLength.shown?, hwritable]

/-! ## Looking up what is written -/

/-- A declared type is within the limits of its text: there is room for looking up its arrays, and
its lengths have so few digits that they are written. -/
def WithinLimits (rooms : Rooms) (T : TypeName) : Prop :=
  HoldsDims rooms (T.depth - 1) ∧ ∀ n ∈ T.shownLengths, Integer.isWritable n = true

/-- **A declared type within its limits** is written as a text that stands for its ABI type. -/
theorem exists_typeText_of_withinLimits {rooms : Rooms} {T : TypeName} {t : AbiType}
    (h : Declares T t) (hlimits : WithinLimits rooms T) (room : Nat) :
    ∃ cs, typeText room T = .ok cs ∧ resolve rooms cs = .ok t := by
  obtain ⟨base, size, dims, item, hknown, hspell, hleaf, htext, rfl, hdepth⟩ :=
    exists_text_of_declares h hlimits.2 room
  have hroom : HoldsDims rooms dims.length := by
    have hdims := hlimits.1
    rwa [← hdepth, Nat.add_sub_cancel] at hdims
  exact ⟨_, htext, by rw [resolve_text hspell hknown hleaf, if_pos hroom]⟩

/-- **Only within its limits** is a declared type written as a text that stands for a type. -/
theorem withinLimits_of_typeText {rooms : Rooms} {room : Nat} {T : TypeName} {t t' : AbiType}
    (h : Declares T t) {cs : List Char} (htext : typeText room T = .ok cs)
    (hresolve : resolve rooms cs = .ok t') : WithinLimits rooms T := by
  by_cases hlengths : ∀ n ∈ T.shownLengths, Integer.isWritable n = true
  · obtain ⟨base, size, dims, item, hknown, hspell, hleaf, hwritten, rfl, hdepth⟩ :=
      exists_text_of_declares h hlengths room
    obtain rfl : text (.basic base size dims) = cs := Except.ok.inj (hwritten.symm.trans htext)
    rw [resolve_text hspell hknown hleaf] at hresolve
    split at hresolve
    next hroom => exact ⟨by rwa [← hdepth, Nat.add_sub_cancel], hlengths⟩
    next => cases hresolve
  · cases (typeText_of_not_writable h hlengths).symm.trans htext

end HoneypotAudit.Abi
