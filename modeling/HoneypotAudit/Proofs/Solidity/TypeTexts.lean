import HoneypotAudit.Proofs.Solidity.Literals
import HoneypotAudit.Proofs.Text.Integer

/-!
# The two texts of a declared type

A declared type is a stem with array wrappers around it.  It is written as an ABI type and as a
spelling, and both end in the brackets of its wrappers, the innermost wrapper first
(`typeText_eq_ok_iff`, `IsSpelled.groups`).  The renderer takes the last brackets off both, so on
every level it has the two texts of one type (`texts_correspond`).
-/

namespace HoneypotAudit.Solidity

open HoneypotAudit.Text HoneypotAudit.Abi HoneypotAudit.Outcome

/-! ## Wrappers -/

namespace TypeName

/-- The lengths of the array wrappers of a type, the outermost first. -/
def wrappers : TypeName → List ArrayLength
  | .array base length => length :: wrappers base
  | _ => []

/-- What is inside all array wrappers. -/
def stem : TypeName → TypeName
  | .array base _ => stem base
  | T => T

/-- The brackets of the array wrappers of a type, the innermost first. -/
def groups (T : TypeName) : List Char :=
  T.wrappers.reverse.flatMap ArrayLength.brackets

/-- The names at the stem of a type. -/
def stemNames : TypeName → List String
  | .elementary name => [name]
  | .array base _ => stemNames base
  | .mapping _ _ => []
  | .named name typeString => [name, typeString]

/-- A type is another one, or inside wrappers of it. -/
inductive IsLevel (T : TypeName) : TypeName → Prop
  | self : IsLevel T T
  | base {base : TypeName} {length : ArrayLength} (h : IsLevel T (.array base length)) :
      IsLevel T base

lemma groups_array (base : TypeName) (length : ArrayLength) :
    (TypeName.array base length).groups = base.groups ++ length.brackets := by
  simp [groups, wrappers]

end TypeName

/-- A length is resolved, and its number is written if it has one. -/
def ArrayLength.IsWritten (l : ArrayLength) : Prop :=
  l.isResolved = true ∧ ∀ n ∈ l.shown?, Integer.isWritable n = true

/-- The first word of a type string. -/
def firstWord (typeString : String) : List Char :=
  typeString.toList.takeWhile (· ≠ ' ')

/-- The ABI type of a type that is no array. -/
inductive IsCanonical : TypeName → List Char → Prop
  | elementary (name : String) : IsCanonical (.elementary name) (TypeName.expand name).toList
  | contract {name typeString : String} (h : firstWord typeString = "contract".toList) :
      IsCanonical (.named name typeString) "address".toList
  | interface {name typeString : String} (h : firstWord typeString = "interface".toList) :
      IsCanonical (.named name typeString) "address".toList
  | enum {name typeString : String} (h : firstWord typeString = "enum".toList) :
      IsCanonical (.named name typeString) "uint8".toList

/-! ## Stems -/

lemma kindOf_eq_iff {typeString kind : String} :
    TypeName.kindOf typeString = kind ↔ firstWord typeString = kind.toList := by
  rw [TypeName.kindOf, cutFirst_fst, firstWord, ← String.toList_inj, String.toList_ofList]

lemma leafText_eq_ok_iff {described : Nat} {T : TypeName} {leaf : List Char} :
    leafText described T = .ok leaf ↔ IsCanonical T leaf := by
  cases T with
  | elementary name =>
    refine ⟨fun h => ?_, fun h => ?_⟩
    · obtain rfl : (TypeName.expand name).toList = leaf := Except.ok.inj h
      exact .elementary name
    · cases h
      rfl
  | array base length => exact ⟨nofun, nofun⟩
  | mapping key value => exact ⟨nofun, nofun⟩
  | named name typeString =>
    simp only [leafText, kindOf_eq_iff]
    refine ⟨fun h => ?_, fun h => ?_⟩
    · split at h
      next hkind =>
        obtain rfl := Except.ok.inj h
        exact hkind.elim .contract .interface
      split at h
      next hkind =>
        obtain rfl := Except.ok.inj h
        exact .enum hkind
      next => cases h
    · cases h with
      | contract h => rw [if_pos (.inl h)]
      | interface h => rw [if_pos (.inr h)]
      | enum h => rw [h, if_neg (by decide), if_pos rfl]

/-- The full form of a name is the name itself or one of those in the list of aliases. -/
lemma expand_cases (name : String) :
    TypeName.expand name = name ∨ TypeName.expand name ∈ TypeName.aliases.map Prod.snd := by
  rw [TypeName.expand]
  cases h : TypeName.aliases.lookup name with
  | none => exact .inl rfl
  | some full =>
    obtain ⟨before, behind, hsplit, -⟩ := List.lookup_eq_some_iff.mp h
    exact .inr (List.mem_map_of_mem (f := Prod.snd) (a := (name, full)) (by simp [hsplit]))

/-- Expanding a name brings no bracket into it. -/
lemma not_mem_expand {name : String} (h : '[' ∉ name.toList) :
    '[' ∉ (TypeName.expand name).toList := by
  rcases expand_cases name with heq | hmem
  · rwa [heq]
  · have hplain : ∀ full ∈ TypeName.aliases.map Prod.snd, '[' ∉ full.toList := by decide
    exact hplain _ hmem

section Stems

variable {T : TypeName}

lemma IsCanonical.not_mem {leaf : List Char} (h : IsCanonical T leaf)
    (hT : ∀ name ∈ T.stemNames, '[' ∉ name.toList) : '[' ∉ leaf := by
  cases h with
  | elementary name => exact not_mem_expand (hT name (by simp [TypeName.stemNames]))
  | contract _ => decide
  | interface _ => decide
  | enum _ => decide

/-- What has an ABI type can be spelled, and the spelling has no brackets but those of its names. -/
lemma IsCanonical.exists_spelling {leaf : List Char} (h : IsCanonical T leaf)
    (hT : ∀ name ∈ T.stemNames, '[' ∉ name.toList) :
    ∃ spelled, IsSpelled T spelled ∧ '[' ∉ spelled := by
  have hnamed : ∀ name typeString, T = .named name typeString →
      ∃ spelled, IsSpelled T spelled ∧ '[' ∉ spelled := by
    rintro name typeString rfl
    have hname : '[' ∉ name.toList := hT name (by simp [TypeName.stemNames])
    have htype : '[' ∉ typeString.toList := hT typeString (by simp [TypeName.stemNames])
    cases hcut : (cutFirst ' ' typeString.toList).2 with
    | some qualified =>
      exact ⟨qualified, isSpelled_of_spelling rfl fun room => by rw [TypeName.spelling, hcut],
        fun hmem => htype (subset_of_cutFirst_snd hcut hmem)⟩
    | none =>
      exact ⟨_, isSpelled_of_spelling rfl fun room => by rw [TypeName.spelling, hcut], hname⟩
  cases h with
  | elementary name =>
    have hname := hT name (by simp [TypeName.stemNames])
    by_cases hpayable : name = "address payable"
    · exact ⟨_, isSpelled_of_spelling rfl fun room => by rw [TypeName.spelling, if_pos hpayable],
        hname⟩
    · exact ⟨_, isSpelled_of_spelling rfl fun room => by rw [TypeName.spelling, if_neg hpayable],
        not_mem_expand hname⟩
  | contract _ => exact hnamed _ _ rfl
  | interface _ => exact hnamed _ _ rfl
  | enum _ => exact hnamed _ _ rfl

lemma stemNames_stem (T : TypeName) : T.stem.stemNames = T.stemNames := by
  induction T with
  | array base length ih => exact ih
  | _ => rfl

end Stems

/-! ## Both texts -/

section Texts

variable {described : Nat}

lemma all_isWritable_iff {length : ArrayLength} :
    length.shown?.all Integer.isWritable = true ↔
      ∀ n ∈ length.shown?, Integer.isWritable n = true := by
  cases length.shown? <;> simp

lemma typeText_array_eq_ok_iff {base : TypeName} {length : ArrayLength} {abi : List Char} :
    typeText described (.array base length) = .ok abi ↔
      length.IsWritten ∧ ∃ cs, typeText described base = .ok cs ∧ cs ++ length.brackets = abi := by
  rw [typeText, ArrayLength.IsWritten, ← all_isWritable_iff]
  cases length.isResolved <;> cases length.shown?.all Integer.isWritable <;> simp

/-- **The ABI type text of a declared type** is there if the lengths of its wrappers are written and
its stem has an ABI type, and it is that of the stem with the brackets of the wrappers behind it. -/
theorem typeText_eq_ok_iff {T : TypeName} {abi : List Char} :
    typeText described T = .ok abi ↔ (∀ l ∈ T.wrappers, l.IsWritten) ∧
      ∃ leaf, IsCanonical T.stem leaf ∧ leaf ++ T.groups = abi := by
  induction T generalizing abi with
  | array base length ih =>
    simp only [typeText_array_eq_ok_iff, ih, TypeName.wrappers, List.forall_mem_cons, TypeName.stem,
      TypeName.groups_array]
    constructor
    · rintro ⟨hlength, cs, ⟨hwritten, leaf, hleaf, rfl⟩, rfl⟩
      exact ⟨⟨hlength, hwritten⟩, leaf, hleaf, by simp⟩
    · rintro ⟨⟨hlength, hwritten⟩, leaf, hleaf, rfl⟩
      exact ⟨hlength, _, ⟨hwritten, leaf, hleaf, rfl⟩, by simp⟩
  | _ =>
    have hleaf := @leafText_eq_ok_iff described
    simp [typeText, TypeName.wrappers, TypeName.stem, TypeName.groups, hleaf]

/-- **The spelling of a declared type** is that of its stem with the brackets of the wrappers behind
it. -/
theorem IsSpelled.groups {T : TypeName} {sol : List Char} (h : IsSpelled T.stem sol)
    (hwritten : ∀ l ∈ T.wrappers, l.IsWritten) : IsSpelled T (sol ++ T.groups) := by
  induction T with
  | array base length ih =>
    obtain ⟨hlength, hbase⟩ := List.forall_mem_cons.mp hwritten
    rw [TypeName.groups_array, ← List.append_assoc]
    exact (ih h hbase).array (all_isWritable_iff.mpr hlength.2)
  | _ =>
    simp only [TypeName.groups, TypeName.wrappers, List.reverse_nil, List.flatMap_nil,
      List.append_nil]
    exact h

lemma IsSpelled.unique {T : TypeName} {sol sol' : List Char} (h : IsSpelled T sol)
    (h' : IsSpelled T sol') : sol = sol' :=
  (h'.eq_of_spelling (by rw [h T.depth, if_pos le_rfl])).1

/-- A type has two texts: its ABI type and its spelling. -/
structure HasTexts (T : TypeName) (abi sol : List Char) : Prop where
  abi_eq : ∀ described, typeText described T = .ok abi
  sol_eq : IsSpelled T sol

/-- The ABI type text does not depend on the room that there is for describing what has none. -/
lemma typeText_of_eq_ok {T : TypeName} {abi : List Char} (h : typeText described T = .ok abi)
    (room : Nat) : typeText room T = .ok abi := by
  rw [typeText_eq_ok_iff] at h ⊢
  exact h

end Texts

/-! ## Brackets -/

/-- The brackets of a length have one opening bracket, at their front. -/
lemma exists_cons_brackets (l : ArrayLength) : ∃ body, l.brackets = '[' :: body ∧ '[' ∉ body := by
  refine ⟨_, rfl, ?_⟩
  have hnumeral : ∀ n, '[' ∉ signedDecimal n := fun n hmem =>
    absurd (Integer.isNumeralChar_of_mem_signedDecimal hmem) (by decide)
  cases l.shown? with
  | none => decide
  | some n => simp [hnumeral]

lemma elementText?_append_brackets (cs : List Char) (l : ArrayLength) :
    elementText? (cs ++ l.brackets) = some cs := by
  obtain ⟨body, hbrackets, hnot⟩ := exists_cons_brackets l
  rw [hbrackets, elementText?_append hnot]

/-- The brackets of the wrappers begin with a bracket, if there are any. -/
lemma groups_head (T : TypeName) : ∀ c ∈ T.groups.head?, c = '[' := by
  intro c hc
  cases hlengths : T.wrappers.reverse with
  | nil => simp [TypeName.groups, hlengths] at hc
  | cons l ls =>
    obtain ⟨body, hbrackets, -⟩ := exists_cons_brackets l
    have hcons : '[' = c := by simpa [TypeName.groups, hlengths, hbrackets] using hc
    exact hcons.symm

section Groups

variable {T : TypeName} {front : List Char}

/-- Where the brackets of the wrappers begin can be told from the text. -/
lemma takeWhile_append_groups (hfront : '[' ∉ front) :
    (front ++ T.groups).takeWhile (· ≠ '[') = front :=
  takeWhile_append_of_stop (fun c hc => by simpa using fun h : c = '[' => hfront (h ▸ hc))
    fun c hc => by simp [groups_head T c hc]

lemma dropWhile_append_groups (hfront : '[' ∉ front) :
    (front ++ T.groups).dropWhile (· ≠ '[') = T.groups :=
  dropWhile_append_of_stop (fun c hc => by simpa using fun h : c = '[' => hfront (h ▸ hc))
    fun c hc => by simp [groups_head T c hc]

end Groups

/-! ## Levels -/

/-- The brackets of a base stand behind its two texts alike. -/
lemma HasTexts.exists_base {base : TypeName} {length : ArrayLength} {abi sol : List Char}
    (h : HasTexts (.array base length) abi sol) :
    ∃ abiBase solBase, HasTexts base abiBase solBase ∧ elementText? abi = some abiBase ∧
      elementText? sol = some solBase := by
  obtain ⟨abiBase, habiBase, rfl, hshown⟩ := exists_base_of_typeText (h.abi_eq 0)
  obtain ⟨solBase, -, -, -, hsolBase, -⟩ := exists_spelledLike habiBase
  obtain rfl := h.sol_eq.unique (hsolBase.array hshown)
  exact ⟨abiBase, solBase, ⟨typeText_of_eq_ok habiBase, hsolBase⟩,
    elementText?_append_brackets _ _, elementText?_append_brackets _ _⟩

/-- All levels of a type have two texts if it has itself. -/
lemma HasTexts.exists_level {T U : TypeName} {abi sol : List Char} (h : HasTexts T abi sol)
    (hU : T.IsLevel U) : ∃ abiLevel solLevel, HasTexts U abiLevel solLevel := by
  induction hU with
  | self => exact ⟨abi, sol, h⟩
  | base _ ih =>
    obtain ⟨_, _, harray⟩ := ih
    obtain ⟨abiBase, solBase, hbase, -⟩ := harray.exists_base
    exact ⟨abiBase, solBase, hbase⟩

/-- **The two texts of a declared type correspond.**  There is an ABI type exactly if the length of
every wrapper is resolved, with a number that is written, and the stem is elementary or named as a
contract, an interface or an enum.  Then the ABI type is that of the stem with the brackets of the
wrappers behind it, the innermost first, and the spelling, for which there has to be room, ends in
the same brackets; and on every level, both texts without their last brackets are those of the
base. -/
theorem texts_correspond {described : Nat} {T : TypeName}
    (hT : ∀ name ∈ T.stemNames, '[' ∉ name.toList) :
    ((∃ abi, typeText described T = .ok abi) ↔
        (∀ l ∈ T.wrappers, l.IsWritten) ∧ ∃ leaf, IsCanonical T.stem leaf) ∧
      ∀ abi, typeText described T = .ok abi → ∃ sol, IsSpelled T sol ∧
        IsCanonical T.stem (abi.takeWhile (· ≠ '[')) ∧
        IsSpelled T.stem (sol.takeWhile (· ≠ '[')) ∧
        abi.dropWhile (· ≠ '[') = T.wrappers.reverse.flatMap ArrayLength.brackets ∧
        sol.dropWhile (· ≠ '[') = T.wrappers.reverse.flatMap ArrayLength.brackets ∧
        ∀ base length, T.IsLevel (.array base length) →
          ∃ abiLevel solLevel abiBase solBase,
            HasTexts (.array base length) abiLevel solLevel ∧ HasTexts base abiBase solBase ∧
            elementText? abiLevel = some abiBase ∧ elementText? solLevel = some solBase := by
  refine ⟨?_, fun abi habi => ?_⟩
  · constructor
    · rintro ⟨abi, habi⟩
      obtain ⟨hwritten, leaf, hleaf, -⟩ := typeText_eq_ok_iff.mp habi
      exact ⟨hwritten, leaf, hleaf⟩
    · rintro ⟨hwritten, leaf, hleaf⟩
      exact ⟨_, typeText_eq_ok_iff.mpr ⟨hwritten, leaf, hleaf, rfl⟩⟩
  · obtain ⟨hwritten, leaf, hleaf, rfl⟩ := typeText_eq_ok_iff.mp habi
    rw [← stemNames_stem] at hT
    obtain ⟨spelled, hspelled, hnot⟩ := hleaf.exists_spelling hT
    have hsol := hspelled.groups hwritten
    refine ⟨_, hsol, ?_, ?_, dropWhile_append_groups (hleaf.not_mem hT),
      dropWhile_append_groups hnot, fun base length hlevel => ?_⟩
    · rwa [takeWhile_append_groups (hleaf.not_mem hT)]
    · rwa [takeWhile_append_groups hnot]
    · obtain ⟨abiLevel, solLevel, htexts⟩ :=
        HasTexts.exists_level ⟨typeText_of_eq_ok habi, hsol⟩ hlevel
      obtain ⟨abiBase, solBase, hbase, habiBase, hsolBase⟩ := htexts.exists_base
      exact ⟨abiLevel, solLevel, abiBase, solBase, htexts, hbase, habiBase, hsolBase⟩

/-- Any number of pairs of enums that a contract declares. -/
theorem texts_correspond_pairs :
    ∃ sol,
      (TypeName.array (.array (.named "Mode" "enum Token.Mode") (.fixed 2)) .dynamic).spelling 3
        = .ok sol ∧
      sol.dropWhile (· ≠ '[') = "[2][]".toList ∧ sol.takeWhile (· ≠ '[') = "Token.Mode".toList := by
  have hnames : ∀ name ∈ (TypeName.array (.array (.named "Mode" "enum Token.Mode") (.fixed 2))
      .dynamic).stemNames, '[' ∉ name.toList := by decide
  have habi : typeText 1 (.array (.array (.named "Mode" "enum Token.Mode") (.fixed 2)) .dynamic)
      = .ok "uint8[2][]".toList := by decide +kernel
  obtain ⟨sol, hsol, -, hstem, -, hgroups, -⟩ :=
    (texts_correspond hnames).2 _ habi
  have hspelled : (TypeName.named "Mode" "enum Token.Mode").spelling 1
      = .ok "Token.Mode".toList := by decide +kernel
  exact ⟨sol, hsol 3, hgroups.trans (by decide +kernel), (hstem.eq_of_spelling hspelled).1.symm⟩

/-- A length with one digit too many: it is resolved, and there is no ABI type. -/
theorem long_length_without_typeText :
    ¬∃ described, ∀ T : TypeName, (∀ name ∈ T.stemNames, '[' ∉ name.toList ∧ ']' ∉ name.toList) →
      ((∃ abi, typeText described T = .ok abi) ↔
        (∀ l ∈ T.wrappers, l.isResolved = true) ∧ ∃ leaf, IsCanonical T.stem leaf) := by
  rintro ⟨described, hall⟩
  have hiff := hall (.array (.elementary "bool") (.fixed (10 ^ Integer.maxDigits))) (by decide)
  have hresolved : ∀ l ∈ (TypeName.array (.elementary "bool")
      (.fixed (10 ^ Integer.maxDigits))).wrappers, l.isResolved = true := by
    simp [TypeName.wrappers, ArrayLength.isResolved]
  obtain ⟨abi, habi⟩ := hiff.mpr ⟨hresolved, _, .elementary "bool"⟩
  obtain ⟨hwritten, -⟩ := typeText_eq_ok_iff.mp habi
  have hlong := (hwritten _ List.mem_cons_self).2 _ rfl
  rw [Integer.isWritable_pow_maxDigits] at hlong
  cases hlong

end HoneypotAudit.Solidity
