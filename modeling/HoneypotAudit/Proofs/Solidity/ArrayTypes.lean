import HoneypotAudit.Proofs.Solidity.Arguments
import HoneypotAudit.Proofs.Solidity.TypeTexts
import HoneypotAudit.Proofs.Text.NumberText
import HoneypotAudit.Solidity.Tree

/-!
# Array types in the syntax tree

`Describes` says which nodes the compiler writes for a type that is built from elementary and
declared types by arrays.  The length of an array stands in the node as a number, or at the end of
its type string, or nowhere (`GivesLength`), and every array of a nested type has a node of its own,
with any of the three.

`arrays_of_describes` is the main result: the type is read as it is described, unless it is nested
too deep, and its ABI type is the canonical one if all lengths are given.
-/

namespace HoneypotAudit.Solidity

open HoneypotAudit.Text HoneypotAudit.Abi

/-! ## Brackets at the end of a type string -/

/-- A text is cut where the last occurrence of a character is. -/
lemma eq_of_cutLast? {sep : Char} {cs before behind : List Char}
    (h : cutLast? sep cs = some (before, behind)) : cs = before ++ sep :: behind := by
  induction cs generalizing before with
  | nil => cases h
  | cons c cs ih =>
    rw [cutLast?] at h
    split at h
    next before' behind' hcut =>
      cases h
      rw [ih hcut, List.cons_append]
    next =>
      split at h
      next hc =>
        cases h
        rw [hc, List.nil_append]
      next => cases h

namespace Tree

/-- Words of lower-case letters, each behind a blank, with any blanks between them and at the
end. -/
inductive Words : List Char → Prop
  | nil : Words []
  | blank {c : Char} {cs : List Char} (hc : isBlank c = true) (h : Words cs) : Words (c :: cs)
  | word {c : Char} {word cs : List Char} (hc : isBlank c = true)
      (hword : ∀ d ∈ word, 'a' ≤ d ∧ d ≤ 'z') (h : Words cs) : Words (c :: (word ++ cs))

/-- A type string ends in digits between brackets, with nothing but words behind them. -/
def EndsInDigits (typeText digits : List Char) : Prop :=
  digits ≠ [] ∧ (∀ d ∈ digits, isDigit d = true) ∧
    ∃ front words, Words words ∧ typeText = front ++ '[' :: (digits ++ ']' :: words)

/-- Blanks and lower-case letters. -/
def isWordsChar (d : Char) : Bool :=
  isBlank d || decide ('a' ≤ d ∧ d ≤ 'z')

lemma Words.all {cs : List Char} (h : Words cs) : cs.all isWordsChar = true := by
  induction h with
  | nil => rfl
  | blank hc h ih => simp [isWordsChar, hc, ih]
  | @word c word cs hc hword h ih =>
    have hall : word.all isWordsChar = true :=
      List.all_eq_true.mpr fun d hd => by simp [isWordsChar, hword d hd]
    rw [List.all_cons, List.all_append, hall, ih, isWordsChar, hc]
    rfl

/-- Letters behind a blank belong to a word that is begun, until the next blank. -/
lemma words_of_all {cs : List Char} (h : cs.all isWordsChar = true) {c : Char}
    (hc : isBlank c = true) (word : List Char) (hword : ∀ d ∈ word, 'a' ≤ d ∧ d ≤ 'z') :
    Words (c :: (word ++ cs)) := by
  induction cs generalizing c word with
  | nil => exact .word hc hword .nil
  | cons d cs ih =>
    rw [List.all_cons, Bool.and_eq_true] at h
    obtain ⟨hd, hcs⟩ := h
    by_cases hblank : isBlank d = true
    · exact .word hc hword (ih hcs hblank [] (by simp))
    · have hletter : 'a' ≤ d ∧ d ≤ 'z' := by simpa [isWordsChar, hblank] using hd
      have hlonger : ∀ e ∈ word ++ [d], 'a' ≤ e ∧ e ≤ 'z' := by
        intro e he
        rcases List.mem_append.mp he with he | he
        · exact hword e he
        · exact List.mem_singleton.mp he ▸ hletter
      simpa using ih hcs hc (word ++ [d]) hlonger

lemma areWords_iff {cs : List Char} : areWords cs = true ↔ Words cs := by
  cases cs with
  | nil => exact ⟨fun _ => .nil, fun _ => rfl⟩
  | cons c cs =>
    rw [areWords, Bool.and_eq_true]
    constructor
    · rintro ⟨hc, hcs⟩
      exact words_of_all hcs hc [] (by simp)
    · intro h
      have hall := h.all
      rw [List.all_cons, Bool.and_eq_true] at hall
      refine ⟨?_, hall.2⟩
      cases h with
      | blank hc _ => exact hc
      | word hc _ _ => exact hc

/-- Digits and words have no opening bracket in them. -/
lemma not_mem_tail {digits words : List Char} (hdigits : ∀ d ∈ digits, isDigit d = true)
    (hwords : Words words) : '[' ∉ digits ++ ']' :: words := by
  intro hmem
  rcases List.mem_append.mp hmem with hmem | hmem
  · exact absurd (hdigits _ hmem) (by decide)
  · rcases List.mem_cons.mp hmem with hmem | hmem
    · exact absurd hmem (by decide)
    · exact absurd (List.all_eq_true.mp hwords.all _ hmem) (by decide)

/-- **The length that a type string shows** is the one in the brackets at its end. -/
theorem shownLength?_eq_some_iff {typeText digits : List Char} :
    shownLength? typeText = some digits ↔ EndsInDigits typeText digits := by
  constructor
  · intro h
    unfold shownLength? at h
    split at h
    next => cases h
    next front behind hcut =>
      have hsplit : behind.takeWhile isDigit ++ behind.dropWhile isDigit = behind :=
        List.takeWhile_append_dropWhile
      simp only at h
      split at h
      next => cases h
      next rest hrest hne =>
        split at h
        next hwords =>
          cases h
          refine ⟨hne, fun d hd => List.mem_takeWhile_imp hd, front, rest,
            areWords_iff.mp hwords, ?_⟩
          rw [eq_of_cutLast? hcut, ← hrest, hsplit]
        next => cases h
      next => cases h
  · rintro ⟨hne, hdigits, front, words, hwords, rfl⟩
    have hstop : ∀ c ∈ (']' :: words).head?, isDigit c = false := by
      intro c hc
      cases hc
      decide
    rw [shownLength?, cutLast?_append (not_mem_tail hdigits hwords)]
    simp only [takeWhile_append_of_stop hdigits hstop, dropWhile_append_of_stop hdigits hstop,
      areWords_iff.mpr hwords, if_true]

/-! ## Nodes -/

/-- What the compiler writes for the length of an array is no integer that could be read. -/
inductive SpellsNone (node : Json) : Prop
  | expression (hnode : nodeType node ≠ "") (hkind : nodeType node ≠ "Literal")
  | literal {text : String} (hkind : nodeType node = "Literal")
      (htext : node.member "value" = .str text) (hnone : Integer.readLiteral? text.toList = none)

/-- The node of an array type gives a length. -/
inductive GivesLength (node : Json) : ArrayLength → Prop
  | dynamic (h : node.member "length" = .null) : GivesLength node .dynamic
  | spelled {text : String} {n : Nat} (hkind : nodeType (node.member "length") = "Literal")
      (hunit : (node.member "length").member "subdenomination" = .null)
      (htext : (node.member "length").member "value" = .str text)
      (hn : NumberText text.toList n) : GivesLength node (.fixed n)
  | shown {n : Nat} (hnone : SpellsNone (node.member "length"))
      (hn : EndsInDigits (typeString node).toList (decimal n)) : GivesLength node (.fixed n)
  | unknown (hnone : SpellsNone (node.member "length"))
      (h : ∀ digits, ¬EndsInDigits (typeString node).toList digits) :
      GivesLength node (.unresolved none)

/-- A node describes a type that is built from elementary types, addresses that take money, and
types that the source declares, by arrays. -/
inductive Describes : Json → TypeName → Prop
  | elementary {node : Json} {name : String} (hkind : nodeType node = "ElementaryTypeName")
      (hname : node.member "name" = .str name)
      (hplain : name = "address" → (node.member "stateMutability").text ≠ "payable") :
      Describes node (.elementary name)
  | payable {node : Json} (hkind : nodeType node = "ElementaryTypeName")
      (hname : node.member "name" = .str "address")
      (hpayable : node.member "stateMutability" = .str "payable") :
      Describes node (.elementary "address payable")
  | named {node : Json} {name shown : String} (hkind : nodeType node = "UserDefinedTypeName")
      (hname : (node.member "pathNode").member "name" = .str name ∨
        node.member "pathNode" = .null ∧ node.member "name" = .str name)
      (hshown : (node.member "typeDescriptions").member "typeString" = .str shown) :
      Describes node (.named name shown)
  | array {node : Json} {base : TypeName} {length : ArrayLength}
      (hkind : nodeType node = "ArrayTypeName") (hbase : Describes (node.member "baseType") base)
      (hlength : GivesLength node length) : Describes node (.array base length)

/-! ## Lengths -/

section Nodes

variable {node : Json}

lemma isTrue_of_nodeType {kind : String} (h : nodeType node = kind) (hkind : kind ≠ "") :
    node.isTrue = true := by
  cases node with
  | obj members =>
    cases members with
    | nil => exact absurd h.symm hkind
    | cons member members => rfl
  | _ => exact absurd h.symm hkind

lemma SpellsNone.isTrue (h : SpellsNone node) : node.isTrue = true := by
  cases h with
  | expression hnode _ => exact isTrue_of_nodeType rfl hnode
  | literal hkind _ _ => exact isTrue_of_nodeType hkind (by decide)

lemma SpellsNone.literalLength? (h : SpellsNone node) : literalLength? node = none := by
  cases h with
  | expression _ hkind => rw [Tree.literalLength?, if_neg hkind]
  | literal hkind htext hnone => rw [Tree.literalLength?, if_pos hkind, htext]; exact hnone

/-- **A length is read as it is given**, if its number is written. -/
lemma arrayLength_of_givesLength {length : ArrayLength} (h : GivesLength node length)
    (hwritten : ∀ n ∈ length.shown?, Integer.isWritable n = true) :
    arrayLength node = .ok length := by
  rw [arrayLength]
  cases h with
  | dynamic h =>
    rw [h]
    rfl
  | @spelled text n hkind _ htext hn =>
    have htrue : (node.member "length").isTrue = true := isTrue_of_nodeType hkind (by decide)
    have hread : literalLength? (node.member "length") = some (n : Int) := by
      rw [literalLength?, if_pos hkind, htext]
      exact Integer.readLiteral?_of_numberText hn (hwritten n rfl)
    simp [htrue, hread]
  | @shown n hnone hn =>
    have hread : Integer.readText (decimal n) = .ok (n : Int) :=
      Integer.readText_signedDecimal (hwritten n rfl)
    simp [hnone.isTrue, hnone.literalLength?, shownLength?_eq_some_iff.mpr hn, hread, Except.map]
  | unknown hnone h =>
    have hshown : shownLength? (typeString node).toList = none :=
      Option.eq_none_iff_forall_ne_some.mpr fun digits hd =>
        h digits (shownLength?_eq_some_iff.mp hd)
    simp [hnone.isTrue, hnone.literalLength?, hshown]

/-! ## Types -/

lemma pathName_eq {name : String} (h : (node.member "pathNode").member "name" = .str name ∨
    node.member "pathNode" = .null ∧ node.member "name" = .str name) : pathName node = name := by
  rw [pathName]
  rcases h with h | ⟨hpath, hname⟩
  · cases hpath : node.member "pathNode" with
    | obj members =>
      rw [hpath] at h
      simp [h, Json.text]
    | _ =>
      rw [hpath] at h
      cases h
  · rw [hpath, hname]
    rfl

lemma readType_elementary (hkind : nodeType node = "ElementaryTypeName") (room : Nat) :
    readType room node =
      if 1 ≤ room then .ok (.elementary (elementaryName node)) else .error .tooDeep := by
  have htrue : node.isTrue = true := isTrue_of_nodeType hkind (by decide)
  cases room with
  | zero => rfl
  | succ room => simp [readType, htrue, hkind]

lemma readType_named (hkind : nodeType node = "UserDefinedTypeName") (room : Nat) :
    readType room node =
      if 1 ≤ room then .ok (.named (pathName node) (typeString node)) else .error .tooDeep := by
  have htrue : node.isTrue = true := isTrue_of_nodeType hkind (by decide)
  cases room with
  | zero => rfl
  | succ room => simp [readType, htrue, hkind]

/-- **A type is read as it is described** as long as there is room for its levels. -/
lemma readType_of_describes {T : TypeName} (h : Describes node T)
    (hwritten : ∀ l ∈ T.wrappers, ∀ n ∈ l.shown?, Integer.isWritable n = true) (room : Nat) :
    readType room node = if T.depth ≤ room then .ok T else .error .tooDeep := by
  induction h generalizing room with
  | @elementary node name hkind hname hplain =>
    have hread : elementaryName node = name := by
      rw [elementaryName, hname]
      exact if_neg fun ⟨haddress, hpayable⟩ => hplain haddress hpayable
    rw [readType_elementary hkind, hread]
    rfl
  | @payable node hkind hname hpayable =>
    have hread : elementaryName node = "address payable" := by
      rw [elementaryName, hname, hpayable]
      rfl
    rw [readType_elementary hkind, hread]
    rfl
  | @named node name shown hkind hname hshown =>
    have hstring : typeString node = shown := by
      rw [typeString, hshown]
      rfl
    rw [readType_named hkind, pathName_eq hname, hstring]
    rfl
  | @array node base length hkind hbase hlength ih =>
    rw [TypeName.wrappers, List.forall_mem_cons] at hwritten
    cases room with
    | zero => rfl
    | succ room =>
      have htrue : node.isTrue = true := isTrue_of_nodeType hkind (by decide)
      simp only [readType, htrue, hkind, ih hwritten.2,
        arrayLength_of_givesLength hlength hwritten.1, TypeName.depth, Nat.add_le_add_iff_right,
        Bool.not_true, Bool.false_eq_true, if_false]
      by_cases hroom : base.depth ≤ room
      · rw [if_pos hroom, if_pos hroom]
        rfl
      · rw [if_neg hroom, if_neg hroom]
        rfl

end Nodes

/-- An array without a known length has no ABI type. -/
lemma typeText_of_unresolved {described : Nat} {T : TypeName}
    (hwritten : ∀ l ∈ T.wrappers, ∀ n ∈ l.shown?, Integer.isWritable n = true)
    (h : ∃ l ∈ T.wrappers, l.isResolved = false) :
    typeText described T = .error .unresolvedLength := by
  induction T with
  | array base length ih =>
    rw [TypeName.wrappers, List.forall_mem_cons] at hwritten
    obtain ⟨hlength, hbase⟩ := hwritten
    rw [TypeName.wrappers, List.exists_mem_cons_iff] at h
    have hall := all_isWritable_iff.mpr hlength
    rw [typeText]
    by_cases hresolved : length.isResolved = true
    · rcases h with h | h
      · exact absurd h (by simp [hresolved])
      · simp [hresolved, hall, ih hbase h, Except.map]
    · simp [hresolved]
  | _ =>
    obtain ⟨l, hl, -⟩ := h
    cases hl

/-- **Array types are read from the syntax tree.**  Let a node describe a type whose lengths are all
written.  Whatever room there is, the type is read from the node exactly if there is room for its
levels.  If all lengths are given and the stem has an ABI type, the ABI type is that of the stem
with the brackets of the arrays behind it, the innermost first.  If some length is not given, there
is none. -/
theorem arrays_of_describes {node : Json} {T : TypeName} (h : Describes node T)
    (hwritten : ∀ l ∈ T.wrappers, ∀ n ∈ l.shown?, Integer.isWritable n = true)
    (room described : Nat) :
    (readType room node = .ok T ↔ T.depth ≤ room) ∧
      ((∀ l ∈ T.wrappers, l.isResolved = true) → ∀ leaf, IsCanonical T.stem leaf →
        typeText described T = .ok (leaf ++ T.groups)) ∧
      ((∃ l ∈ T.wrappers, l.isResolved = false) →
        typeText described T = .error .unresolvedLength) := by
  refine ⟨?_, fun hresolved leaf hleaf => ?_, typeText_of_unresolved hwritten⟩
  · rw [readType_of_describes h hwritten]
    by_cases hdepth : T.depth ≤ room
    · exact iff_of_true (if_pos hdepth) hdepth
    · rw [if_neg hdepth]
      exact iff_of_false nofun hdepth
  · exact typeText_eq_ok_iff.mpr ⟨fun l hl => ⟨hresolved l hl, hwritten l hl⟩, leaf, hleaf, rfl⟩

/-- Three pairs of modes, where one length is written in base sixteen and the other one is a
constant. -/
def modesNode : Json :=
  .obj [("nodeType", .str "ArrayTypeName"),
    ("baseType", .obj [("nodeType", .str "ArrayTypeName"),
      ("baseType", .obj [("nodeType", .str "UserDefinedTypeName"),
        ("pathNode", .obj [("name", .str "Mode")]),
        ("typeDescriptions", .obj [("typeString", .str "enum Token.Mode")])]),
      ("length", .obj [("nodeType", .str "Literal"), ("value", .str "0x0_2")])]),
    ("length", .obj [("nodeType", .str "Identifier")]),
    ("typeDescriptions", .obj [("typeString", .str "enum Token.Mode[2][3] storage pointer")])]

/-- The type that the node describes. -/
def modes : TypeName :=
  .array (.array (.named "Mode" "enum Token.Mode") (.fixed 2)) (.fixed 3)

lemma describes_modesNode : Describes modesNode modes := by
  have hpair : NumberText "0x0_2".toList 2 := by
    have hcs : Grouped ['0', '2'] ['0', '_', '2'] := .apart '0' (.last '2')
    have hds : ['0', '2'].all Hex.isDigit = true := by decide
    exact .hex hcs (List.all_eq_true.mp hds)
  have hthree : EndsInDigits "enum Token.Mode[2][3] storage pointer".toList (decimal 3) := by
    have hdecimal : decimal 3 = ['3'] := by decide +kernel
    have hdigits : ['3'].all isDigit = true := by decide
    have hwords : areWords " storage pointer".toList = true := by decide +kernel
    rw [hdecimal]
    exact ⟨by simp, List.all_eq_true.mp hdigits, "enum Token.Mode[2]".toList, _,
      areWords_iff.mp hwords, rfl⟩
  exact .array rfl (.array rfl (.named rfl (.inl rfl) rfl) (.spelled rfl rfl rfl hpair))
    (.shown (.expression (by decide) (by decide)) hthree)

/-- Both lengths of the modes are read, with room for three levels. -/
theorem arrays_of_describes_modes :
    readType 3 modesNode = .ok modes ∧ typeText 1 modes = .ok "uint8[2][3]".toList := by
  have hwritten : ∀ l ∈ modes.wrappers, ∀ n ∈ l.shown?, Integer.isWritable n = true := by
    decide +kernel
  obtain ⟨hread, htext, -⟩ := arrays_of_describes describes_modesNode hwritten 3 1
  refine ⟨hread.mpr (by decide), (htext (by decide) _ (.enum rfl)).trans ?_⟩
  decide +kernel

/-! ## What is not read -/

/-- The node of an array of bytes, of arrays of them, and so on. -/
def nestedNode : Nat → Json
  | 0 => .obj [("nodeType", .str "ElementaryTypeName"), ("name", .str "uint8")]
  | n + 1 => .obj [("nodeType", .str "ArrayTypeName"), ("baseType", nestedNode n)]

lemma describes_nestedNode (n : Nat) : Describes (nestedNode n) (openArrays n) := by
  induction n with
  | zero =>
    have hname : (nestedNode 0).member "name" = .str "uint8" := rfl
    exact .elementary rfl hname (by decide)
  | succ n ih => exact .array rfl ih (.dynamic rfl)

lemma depth_openArrays (n : Nat) : (openArrays n).depth = n + 1 := by
  induction n with
  | zero => rfl
  | succ n ih => rw [openArrays, TypeName.depth, ih]

lemma shown?_of_mem_openArrays {n : Nat} {l : ArrayLength} (h : l ∈ (openArrays n).wrappers) :
    l.shown? = none := by
  induction n with
  | zero => cases h
  | succ n ih =>
    rcases List.mem_cons.mp h with rfl | h
    · rfl
    · exact ih h

lemma readType_nestedNode (room : Nat) : readType room (nestedNode room) = .error .tooDeep := by
  have hwritten : ∀ l ∈ (openArrays room).wrappers, ∀ k ∈ l.shown?,
      Integer.isWritable k = true := by
    intro l hl k hk
    rw [shown?_of_mem_openArrays hl] at hk
    cases hk
  rw [readType_of_describes (describes_nestedNode room) hwritten, depth_openArrays]
  exact if_neg (Nat.not_succ_le_self room)

/-- The node of an array of bytes with a length in base ten, without a type string. -/
def sizedNode (n : Nat) : Json :=
  .obj [("nodeType", .str "ArrayTypeName"), ("baseType", nestedNode 0),
    ("length", .obj [("nodeType", .str "Literal"), ("value", .str (String.ofList (decimal n)))])]

lemma describes_sizedNode (n : Nat) :
    Describes (sizedNode n) (.array (.elementary "uint8") (.fixed n)) := by
  have hn : NumberText (String.ofList (decimal n)).toList n := by
    rw [String.toList_ofList]
    exact .decimal (grouped_self (decimal_ne_nil n))
  exact .array rfl (describes_nestedNode 0) (.spelled rfl rfl rfl hn)

/-- A length with too many digits is taken for one that is not given. -/
lemma readType_sizedNode {n : Nat} (h : Integer.isWritable n = false) :
    readType 2 (sizedNode n) = .ok (.array (.elementary "uint8") (.unresolved none)) := by
  have hnone : SpellsNone ((sizedNode n).member "length") := by
    refine .literal rfl rfl ?_
    rw [String.toList_ofList]
    exact Integer.readLiteral?_decimal_eq_none h
  have hshown : ∀ digits, ¬EndsInDigits (typeString (sizedNode n)).toList digits := by
    rintro digits ⟨-, -, front, words, -, htext⟩
    have hmem : '[' ∈ (typeString (sizedNode n)).toList := by simp [htext]
    cases hmem
  have hunknown : Describes (sizedNode n) (.array (.elementary "uint8") (.unresolved none)) :=
    .array rfl (describes_nestedNode 0) (.unknown hnone hshown)
  rw [readType_of_describes hunknown (by simp [TypeName.wrappers, ArrayLength.shown?])]
  exact if_pos (by decide)

/-- The node of a struct. -/
def pairNode : Json :=
  .obj [("nodeType", .str "UserDefinedTypeName"), ("name", .str "Pair"),
    ("typeDescriptions", .obj [("typeString", .str "struct Token.Pair")])]

lemma describes_pairNode : Describes pairNode (.named "Pair" "struct Token.Pair") :=
  .named rfl (.inr ⟨rfl, rfl⟩) rfl

/-- In no room are all types read.  With room for its levels, a type is not read if it has a length
with one digit too many; and a struct has no ABI type. -/
theorem array_types_not_read :
    (¬∃ room, ∀ (node : Json) (T : TypeName), Describes node T →
        (∀ l ∈ T.wrappers, ∀ n ∈ l.shown?, Integer.isWritable n = true) →
        readType room node = .ok T) ∧
      (¬∀ (room : Nat) (node : Json) (T : TypeName), Describes node T → T.depth ≤ room →
        readType room node = .ok T) ∧
      ¬∃ room, 0 < room ∧ ∀ (node : Json) (T : TypeName), Describes node T →
        readType room node = .ok T → (∀ l ∈ T.wrappers, l.isResolved = true) →
        ∃ text, typeText room T = .ok text := by
  refine ⟨fun ⟨room, hall⟩ => ?_, fun hall => ?_, fun ⟨room, hroom, hall⟩ => ?_⟩
  · have hread := hall _ _ (describes_nestedNode room) fun l hl n hn => by
      rw [shown?_of_mem_openArrays hl] at hn
      cases hn
    rw [readType_nestedNode room] at hread
    cases hread
  · have hread := hall 2 _ _ (describes_sizedNode (10 ^ Integer.maxDigits)) (by decide)
    have hlong : Integer.isWritable ((10 ^ Integer.maxDigits : Nat) : Int) = false := by
      rw [Int.natCast_pow]
      exact Integer.isWritable_pow_maxDigits
    rw [readType_sizedNode hlong] at hread
    cases hread
  · have hread : readType room pairNode = .ok (.named "Pair" "struct Token.Pair") := by
      rw [readType_named rfl]
      exact if_pos hroom
    obtain ⟨text, htext⟩ := hall _ _ describes_pairNode hread (by simp [TypeName.wrappers])
    obtain ⟨leaf, hleaf⟩ : ∃ leaf, leafText room (.named "Pair" "struct Token.Pair") = .ok leaf :=
      ⟨text, htext⟩
    cases leafText_eq_ok_iff.mp hleaf with
    | contract h => exact absurd h (by decide)
    | interface h => exact absurd h (by decide)
    | enum h => exact absurd h (by decide)

end Tree

end HoneypotAudit.Solidity
