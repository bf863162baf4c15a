import HoneypotAudit.Proofs.Solidity.Denotation
import HoneypotAudit.Proofs.Solidity.Lexical
import HoneypotAudit.Proofs.Steps

/-!
# Arguments are closed

Whatever the values are, the expressions and statements that they are rendered as add nothing to the
outline of the code around them.

Numbers, bytes and addresses have no marks in them, and a text stays inside its quotes
(`LiteralText`).  So the literal of every value that fits its type is closed
(`literalText_of_fits`).  Arrays put closed expressions between brackets, and keep the statements
that were collected closed (`ensures_render`).  The names in the types have to be ordinary for that:
they are pasted as they are.
-/

namespace HoneypotAudit.Solidity

open HoneypotAudit.Text HoneypotAudit.Abi HoneypotAudit.Abi.TypeText HoneypotAudit.Outcome
open HoneypotAudit.Number HoneypotAudit.Steps

/-! ## Names and numbers -/

/-- The characters of dotted names, and of numbers in any base and notation. -/
def isWordChar (c : Char) : Bool :=
  isNameChar c || c == '.' || c == '+' || c == '-'

/-- A text has no other characters than those of names and numbers. -/
def isWord (cs : List Char) : Bool :=
  cs.all isWordChar

lemma isWord_append {cs ds : List Char} :
    isWord (cs ++ ds) = true ↔ isWord cs = true ∧ isWord ds = true := by
  simp [isWord]

lemma isBare_of_isWord {cs : List Char} (h : isWord cs = true) : ∀ c ∈ cs, isBare c = true := by
  have hmarks : ∀ m ∈ marks, isWordChar m = false := by
    intro m hm
    fin_cases hm <;> rfl
  exact fun c hc => isBare_of_class hmarks (List.all_eq_true.mp h c hc)

lemma closed_of_isWord {cs : List Char} (h : isWord cs = true) : Closed cs :=
  closed_of_bare (isBare_of_isWord h)

/-- The characters of literals outside quotes.  There is no `g` in any of them. -/
def isUnquotedChar (c : Char) : Bool :=
  isWordChar c && c != 'g'

/-- A text has no other characters than those of literals outside quotes. -/
def isUnquoted (cs : List Char) : Bool :=
  cs.all isUnquotedChar

lemma isUnquoted_append {cs ds : List Char} :
    isUnquoted (cs ++ ds) = true ↔ isUnquoted cs = true ∧ isUnquoted ds = true := by
  simp [isUnquoted]

lemma isUnquoted_of_subset {cs ds : List Char} (hsub : cs ⊆ ds) (h : isUnquoted ds = true) :
    isUnquoted cs = true :=
  List.all_eq_true.mpr fun c hc => List.all_eq_true.mp h c (hsub hc)

lemma isWord_of_isUnquoted {cs : List Char} (h : isUnquoted cs = true) : isWord cs = true :=
  List.all_eq_true.mpr fun c hc => (Bool.and_eq_true_iff.mp (List.all_eq_true.mp h c hc)).1

lemma isUnquoted_of_digits {cs : List Char} (h : ∀ c ∈ cs, isAsciiDigit c = true) :
    isUnquoted cs = true := by
  refine List.all_eq_true.mpr fun c hc => ?_
  have hg : c ≠ 'g' := by
    rintro rfl
    cases h _ hc
  simp [isUnquotedChar, isWordChar, isNameChar, h c hc, hg]

lemma isUnquoted_decimal (n : Nat) : isUnquoted (decimal n) = true :=
  isUnquoted_of_digits fun _ => isAsciiDigit_of_mem_decimal

lemma isUnquoted_signedDecimal (n : Int) : isUnquoted (signedDecimal n) = true := by
  cases n with
  | ofNat k => exact isUnquoted_decimal k
  | negSucc k => exact isUnquoted_append.mpr ⟨show isUnquoted ['-'] = true by decide,
      isUnquoted_decimal (k + 1)⟩

lemma isUnquoted_fractionText (c : Int) (places : Nat) :
    isUnquoted (fractionText c places) = true := by
  have hsign : isUnquoted (if c < 0 then ['-'] else []) = true := by split <;> decide
  have hds := isUnquoted_decimal c.natAbs
  unfold fractionText
  simp only
  split
  · exact isUnquoted_append.mpr ⟨hsign, hds⟩
  split
  · have hfilled : isUnquoted (padLeft (places + 1) '0' (decimal c.natAbs)) = true := by
      refine isUnquoted_append.mpr ⟨isUnquoted_of_digits fun d hd => ?_, hds⟩
      rw [List.eq_of_mem_replicate hd]
      decide
    have hwhole := isUnquoted_of_subset (List.take_subset
      ((padLeft (places + 1) '0' (decimal c.natAbs)).length - places) _) hfilled
    have hplaces := isUnquoted_of_subset (List.drop_subset
      ((padLeft (places + 1) '0' (decimal c.natAbs)).length - places) _) hfilled
    refine isUnquoted_append.mpr ⟨isUnquoted_append.mpr ⟨hsign, hwhole⟩, ?_⟩
    exact isUnquoted_append.mpr ⟨show isUnquoted ['.'] = true by decide, hplaces⟩
  · have hexponent : isUnquoted ('E' :: signedDecimal ((decimal c.natAbs).length - 1 - places))
        = true := isUnquoted_append.mpr ⟨show isUnquoted ['E'] = true by decide,
          isUnquoted_signedDecimal _⟩
    refine isUnquoted_append.mpr ⟨isUnquoted_append.mpr ⟨hsign, ?_⟩, hexponent⟩
    split
    next => decide
    next d h => exact h ▸ hds
    next d rest h =>
      have hpoint : isUnquoted (['.'] ++ decimal c.natAbs) = true :=
        isUnquoted_append.mpr ⟨by decide, hds⟩
      exact isUnquoted_of_subset (by rw [h]; grind) hpoint

lemma isWord_decimal (n : Nat) : isWord (decimal n) = true :=
  isWord_of_isUnquoted (isUnquoted_decimal n)

lemma isWord_signedDecimal (n : Int) : isWord (signedDecimal n) = true :=
  isWord_of_isUnquoted (isUnquoted_signedDecimal n)

/-! ## Literals

A literal is in characters that need no quotes, or ends in a quoted body. -/

/-- The text of a literal. -/
inductive LiteralText : List Char → Prop
  | unquoted {cs : List Char} (h : isUnquoted cs = true) : LiteralText cs
  | quoted {front cs : List Char} {mark : Char} (hfront : isUnquoted front = true)
      (hmark : isMark mark = true) (h : LiteralBody mark cs) :
      LiteralText (front ++ mark :: (cs ++ [mark]))

/-- A literal adds nothing to the outline of the code around it. -/
lemma LiteralText.closed {expr : List Char} (h : LiteralText expr) : Closed expr := by
  cases h with
  | unquoted h => exact closed_of_isWord (isWord_of_isUnquoted h)
  | quoted hfront hmark h =>
    exact (closed_of_isWord (isWord_of_isUnquoted hfront)).append (closed_literal hmark h)

/-! ### Bytes and addresses -/

lemma isUnquotedChar_of_isDigit {c : Char} (h : Hex.isDigit c = true) :
    isUnquotedChar c = true := by
  have hg : c ≠ 'g' := by
    rintro rfl
    cases h
  have hword : isWordChar c = true := by
    unfold Hex.isDigit Hex.value? at h
    simp only [isWordChar, isNameChar, isAsciiDigit, isAsciiLetter]
    grind
  simp [isUnquotedChar, hword, hg]

lemma isUnquoted_encode (bs : Bytes) : isUnquoted (Hex.encode bs) = true :=
  List.all_eq_true.mpr fun _ hc => isUnquotedChar_of_isDigit (isDigit_of_mem_encode hc)

lemma literalText_checksummed (bs : Bytes) (hlength : bs.length = 20) :
    LiteralText (Address.checksummed (Hex.encode bs)) := by
  have hdigits : (Hex.encode bs).length = 40 := by rw [length_encode, hlength]
  have hhash : (Hex.encode (Address.Keccak.hash
      ((Hex.encode bs).map fun c => UInt8.ofNat c.toNat))).length = 64 := by
    rw [length_encode, length_hash]
  have hall := (zipWith_case (fun h => decide (7 < (Hex.value? h).getD 0))
    (fun c hc => exists_digit_of_mem_encode hc) (hdigits.trans_le (by rw [hhash]; decide))).2
  simp only [decide_eq_true_eq] at hall
  refine .unquoted (isUnquoted_append.mpr ⟨show isUnquoted ['0', 'x'] = true by decide, ?_⟩)
  exact List.all_eq_true.mpr fun c hc => isUnquotedChar_of_isDigit (hall c hc)

/-! ### Texts -/

/-- The digits of bytes may stand in a literal. -/
lemma literalBody_encode {mark : Char} (hmark : isMark mark = true) (bs : Bytes) :
    LiteralBody mark (Hex.encode bs) := by
  have hdigit : ∀ k : Fin 16, isMark (Hex.digit k) = false ∧ Hex.digit k ≠ '\\' ∧
      isPlain (Hex.digit k) = true := by decide
  refine literalBody_of_plain fun c hc => ?_
  obtain ⟨k, hk, rfl⟩ := exists_digit_of_mem_encode hc
  obtain ⟨hno, hslash, hplain⟩ := hdigit ⟨k, hk⟩
  refine ⟨?_, hslash, hplain⟩
  rintro rfl
  rw [hmark] at hno
  cases hno

/-- The escape of a byte may stand in a literal. -/
lemma literalBody_hex {mark : Char} (hmark : isMark mark = true) (b : UInt8) :
    LiteralBody mark ('\\' :: 'x' :: Hex.encodeByte b) :=
  .escape (by decide) (by simpa [Hex.encode] using literalBody_encode hmark [b])

lemma literalBody_escapeChar (c : Char) : LiteralBody '"' (escapeChar c) := by
  unfold escapeChar
  split
  next e he =>
    have hplain : isPlain e = true := by
      unfold shortEscape? at he
      split at he <;> cases he <;> decide
    exact .escape hplain .nil
  next hnone =>
    split
    next hplain =>
      refine .plain ?_ ?_ hplain .nil
      · rintro rfl
        cases hnone
      · rintro rfl
        cases hnone
    next => exact literalBody_flatMap fun b _ => literalBody_hex (by decide) b

/-- **A text stays inside its quotes.** -/
theorem literalText_quote (cs : List Char) : LiteralText (quote cs) := by
  have hfront : isUnquoted [] = true := rfl
  exact .quoted hfront (by decide) (literalBody_flatMap fun c _ => literalBody_escapeChar c)

lemma isMark_quoteFor (cs : List Char) : isMark (Quoted.quoteFor cs) = true := by
  unfold Quoted.quoteFor
  split <;> decide

lemma isPlain_of_isMark {c : Char} (h : isMark c = true) : isPlain c = true := by
  have hcases : c = '"' ∨ c = '\'' := by simpa [isMark] using h
  rcases hcases with rfl | rfl <;> decide

lemma literalBody_escapeByte {mark : Char} (hmark : isMark mark = true) (b : UInt8) :
    LiteralBody mark (Quoted.escapeByte mark b) := by
  unfold Quoted.escapeByte
  simp only
  split
  next h => exact .escape (by rw [h]; exact isPlain_of_isMark hmark) .nil
  next hne =>
    split
    next e he =>
      have hplain : isPlain e = true := by
        unfold Quoted.shortEscape? at he
        split at he <;> cases he <;> decide
      exact .escape hplain .nil
    next hnone =>
      split
      next hrange =>
        refine .plain hne ?_ ?_ .nil
        · intro hslash
          rw [hslash] at hnone
          cases hnone
        · have htoNat : (Char.ofNat b.toNat).toNat = b.toNat := by
            have hvalid : b.toNat.isValidChar := .inl (by omega)
            rw [Char.ofNat, dif_pos hvalid]
            rfl
          simp [isPlain, htoNat, hrange]
      next => exact literalBody_hex hmark b

/-- Bytes between quotes stay inside them. -/
lemma literalText_ofBytes (bs : Bytes) : LiteralText (Quoted.ofBytes bs) := by
  have hmark := isMark_quoteFor (bs.map fun b => Char.ofNat b.toNat)
  have hletter : isUnquoted ['b'] = true := by decide
  exact .quoted hletter hmark (literalBody_flatMap fun b _ => literalBody_escapeByte hmark b)

/-! ### Literals by type -/

/-- The plain text of a value is that of a literal unless a text is in it. -/
lemma literalText_plain {v : Value} (htext : ∀ s, v ≠ .text s) (htuple : ∀ vs, v ≠ .tuple vs) :
    LiteralText v.plain := by
  cases v with
  | bool b => cases b <;> exact .unquoted (by decide)
  | int n => exact .unquoted (isUnquoted_signedDecimal n)
  | decimal c places => exact .unquoted (isUnquoted_fractionText c places)
  | text s => exact absurd rfl (htext s)
  | bytes bs => exact literalText_ofBytes bs
  | tuple vs => exact absurd rfl (htuple vs)

/-- Most types have literals in the form of one for all values. -/
lemma literalText_of {v : Value} {cs expr : List Char}
    (haddress : cs = "address".toList → ∀ e, addressLiteral v = .ok e → LiteralText e)
    (hstring : cs = "string".toList → ∀ e, stringLiteral v = .ok e → LiteralText e)
    (hplain : cs ≠ "address".toList → cs ≠ "string".toList → LiteralText v.plain)
    (h : literal v cs = .ok expr) : LiteralText expr := by
  unfold literal at h
  split at h
  · obtain rfl := Except.ok.inj h
    cases v.isTrue <;> exact .unquoted (by decide)
  split at h
  next hcs => exact haddress hcs expr h
  next hnoAddress =>
  split at h
  · obtain ⟨n, -, rfl⟩ := map_eq_ok_iff.mp h
    exact .unquoted (isUnquoted_signedDecimal n)
  split at h
  next hcs => exact hstring hcs expr h
  next hnoString =>
  split at h
  · obtain ⟨bs, -, rfl⟩ := map_eq_ok_iff.mp h
    have hhex : isUnquoted "hex".toList = true := by decide
    exact .quoted hhex (by decide) (literalBody_encode (by decide) bs)
  split at h
  · obtain ⟨bs, -, rfl⟩ := map_eq_ok_iff.mp h
    exact .unquoted (isUnquoted_append.mpr
      ⟨show isUnquoted ['0', 'x'] = true by decide, isUnquoted_encode bs⟩)
  · obtain rfl := Except.ok.inj h
    exact hplain hnoAddress hnoString

lemma literalText_addressLiteral {s : String} (hs : IsAddress s) {e : List Char}
    (h : addressLiteral (.text s) = .ok e) : LiteralText e := by
  obtain ⟨bs, hlength, rfl⟩ := hs
  have hwritten := (literalFor_address hlength).written
  have hrule : literal (.text (String.ofList ('0' :: 'x' :: Hex.encode bs))) (scalarText .address)
      = addressLiteral (.text (String.ofList ('0' :: 'x' :: Hex.encode bs))) := rfl
  rw [hrule, h] at hwritten
  cases hwritten
  exact literalText_checksummed bs hlength

lemma literalText_stringLiteral {s : String} {e : List Char}
    (h : stringLiteral (.text s) = .ok e) : LiteralText e := by
  obtain rfl := Except.ok.inj h
  exact literalText_quote _

section Leaf

variable {base : String} {size : Option Size} {t : AbiType}

/-- The types of addresses and texts have one text each. -/
lemma text_of_isLeaf (h : IsLeaf base size t) :
    (base.toList ++ sizeText size = "address".toList ↔ t = .address) ∧
      (base.toList ++ sizeText size = "string".toList ↔ t = .string) := by
  cases h.form with
  | fixedBytes hbase => rcases hbase with rfl | rfl | rfl <;> simp
  | _ => simp [sizeText]

/-- A type that is no array has no values of several items. -/
lemma not_fits_tuple_of_isLeaf (h : IsLeaf base size t) (vs : List Value) :
    ¬Fits t (.tuple vs) := by
  cases h.form <;> simp [Fits]

/-- **The literal of a value has the form of one** if the value fits the type. -/
theorem literalText_of_fits (hleaf : IsLeaf base size t) {v : Value} (hv : Fits t v)
    {expr : List Char} (h : literal v (base.toList ++ sizeText size) = .ok expr) :
    LiteralText expr := by
  obtain ⟨haddress, hstring⟩ := text_of_isLeaf hleaf
  refine literalText_of (fun hcs e he => ?_) (fun hcs e he => ?_) (fun hnot hnot' => ?_) h
  · obtain rfl := haddress.mp hcs
    cases v <;> simp only [Fits] at hv
    exact literalText_addressLiteral hv he
  · obtain rfl := hstring.mp hcs
    cases v <;> simp only [Fits] at hv
    exact literalText_stringLiteral he
  · refine literalText_plain ?_ ?_
    · rintro s rfl
      cases t <;> simp only [Fits] at hv
      · exact hnot (haddress.mpr rfl)
      · exact hnot' (hstring.mpr rfl)
    · rintro vs rfl
      exact not_fits_tuple_of_isLeaf hleaf vs hv

end Leaf

/-! ## Ordinary types -/

/-- A name: letters, digits, underscores and dollar signs, and no digit in front. -/
def isIdentifier : List Char → Bool
  | [] => false
  | c :: cs => isNameChar c && !isAsciiDigit c && cs.all isNameChar

/-- A name, or several with dots between them. -/
def isDotted (cs : List Char) : Bool :=
  (splitOn '.' cs).all isIdentifier

/-- The names in a type are ordinary, if it has an ABI type. -/
def IsOrdinary : TypeName → Prop
  | .elementary name => name = "address payable" ∨ isIdentifier name.toList = true
  | .array base _ => IsOrdinary base
  | .mapping _ _ => True
  | .named name typeString => ∀ described spelled abi sol,
      typeText described (.named name typeString) = .ok abi →
        TypeName.spelling spelled (.named name typeString) = .ok sol → isDotted sol = true

/-- The characters of dotted names. -/
def isPathChar (c : Char) : Bool :=
  isNameChar c || c == '.'

lemma isWord_of_path {cs : List Char} (h : ∀ c ∈ cs, isPathChar c = true) : isWord cs = true := by
  refine List.all_eq_true.mpr fun c hc => ?_
  have hpath := h c hc
  rw [isPathChar] at hpath
  rw [isWordChar, hpath, Bool.true_or, Bool.true_or]

lemma isNameChar_of_isIdentifier {cs : List Char} (h : isIdentifier cs = true) :
    ∀ c ∈ cs, isNameChar c = true := by
  cases cs with
  | nil => cases h
  | cons c cs =>
    simp only [isIdentifier, Bool.and_eq_true, List.all_eq_true] at h
    obtain ⟨⟨hc, -⟩, hcs⟩ := h
    exact List.forall_mem_cons.mpr ⟨hc, hcs⟩

lemma isPathChar_of_isIdentifier {cs : List Char} (h : isIdentifier cs = true) :
    ∀ c ∈ cs, isPathChar c = true := by
  intro c hc
  rw [isPathChar, isNameChar_of_isIdentifier h c hc, Bool.true_or]

lemma isPathChar_joinWith {parts : List (List Char)}
    (h : ∀ part ∈ parts, ∀ c ∈ part, isPathChar c = true) :
    ∀ c ∈ joinWith ['.'] parts, isPathChar c = true := by
  induction parts with
  | nil => simp [joinWith]
  | cons part parts ih =>
    obtain ⟨hpart, hparts⟩ := List.forall_mem_cons.mp h
    cases parts with
    | nil => exact hpart
    | cons next parts =>
      have hdot : isPathChar '.' = true := by decide
      intro c hc
      rcases List.mem_append.mp hc with hc | hc
      · rcases List.mem_append.mp hc with hc | hc
        · exact hpart c hc
        · exact List.mem_singleton.mp hc ▸ hdot
      · exact ih hparts c hc

lemma isPathChar_of_isDotted {cs : List Char} (h : isDotted cs = true) :
    ∀ c ∈ cs, isPathChar c = true := by
  rw [← joinWith_splitOn '.' cs]
  exact isPathChar_joinWith fun part hpart =>
    isPathChar_of_isIdentifier (List.all_eq_true.mp h part hpart)

lemma isWord_of_isDotted {cs : List Char} (h : isDotted cs = true) : isWord cs = true :=
  isWord_of_path (isPathChar_of_isDotted h)

lemma isIdentifier_expand {name : String} (h : isIdentifier name.toList = true) :
    isIdentifier (TypeName.expand name).toList = true := by
  have hall : ∀ p ∈ TypeName.aliases, isIdentifier p.2.toList = true := by decide
  rw [TypeName.expand]
  cases hfull : TypeName.aliases.lookup name with
  | none => exact h
  | some other =>
    obtain ⟨before, after, hsplit, -⟩ := List.lookup_eq_some_iff.mp hfull
    exact hall (name, other) (by rw [hsplit]; simp)

lemma isWord_expand {name : String} (h : isIdentifier name.toList = true) :
    isWord (TypeName.expand name).toList = true :=
  isWord_of_path (isPathChar_of_isIdentifier (isIdentifier_expand h))

/-- Both texts of an ordinary type have a word or a blank between words in front of their
brackets. -/
lemma exists_words_of_isOrdinary {T : TypeName} (hT : IsOrdinary T) {described : Nat}
    {abi : List Char} (h : typeText described T = .ok abi) :
    ∃ leaf spelled brackets, abi = leaf ++ brackets ∧ IsSpelled T (spelled ++ brackets) ∧
      isWord leaf = true ∧ Closed spelled ∧ (brackets = [] ∨ brackets.head? = some '[') := by
  induction T generalizing abi with
  | elementary name =>
    obtain rfl : (TypeName.expand name).toList = abi := Except.ok.inj h
    rcases hT with rfl | hname
    · have hspelling : IsSpelled (.elementary "address payable") "address payable".toList :=
        isSpelled_of_spelling rfl fun room => rfl
      exact ⟨"address".toList, "address payable".toList, [], by decide, hspelling, by decide,
        closed_of_bare (by simp [isBare, marks]), .inl rfl⟩
    · have hpayable : name ≠ "address payable" := by
        rintro rfl
        revert hname
        decide
      have hword := isWord_expand hname
      have hspelling : IsSpelled (.elementary name) ((TypeName.expand name).toList ++ []) :=
        isSpelled_of_spelling rfl fun room => by
          rw [TypeName.spelling, if_neg hpayable, List.append_nil]
      exact ⟨_, _, [], (List.append_nil _).symm, hspelling, hword, closed_of_isWord hword, .inl rfl⟩
  | array base length ih =>
    obtain ⟨cs, hcs, rfl, hshown⟩ := exists_base_of_typeText h
    obtain ⟨leaf, spelled, brackets, rfl, hspelling, hleaf, hspelled, hbrackets⟩ := ih hT hcs
    refine ⟨leaf, spelled, brackets ++ length.brackets, by simp, ?_, hleaf, hspelled, .inr ?_⟩
    · rw [← List.append_assoc]
      exact hspelling.array hshown
    · rcases hbrackets with rfl | hbrackets
      · simp [ArrayLength.brackets]
      · simp [List.head?_append, hbrackets]
  | mapping key value => cases h
  | named name typeString =>
    obtain ⟨sol, -, -, -, hspelled, -⟩ := exists_spelledLike h
    have hspelling : TypeName.spelling 1 (.named name typeString) = .ok sol := hspelled 1
    have hword := isWord_of_isDotted (hT _ _ _ _ h hspelling)
    refine ⟨abi, sol, [], by simp, by rwa [List.append_nil], ?_, closed_of_isWord hword, .inl rfl⟩
    rcases leaf_of_named h with rfl | rfl <;> decide

/-- **Both texts of an ordinary type end in the same dimensions**, and what the source spells in
front of them is closed. -/
lemma exists_closed_dims {T : TypeName} (hT : IsOrdinary T) {rooms : Rooms} {described : Nat}
    {abi : List Char} {t : AbiType} (htext : typeText described T = .ok abi)
    (hresolve : resolve rooms abi = .ok t) :
    ∃ base size item dims spelled, IsLeaf base size item ∧
      abi = base.toList ++ sizeText size ++ dims.flatMap dimText ∧
      IsSpelled T (spelled ++ dims.flatMap dimText) ∧ t = withDims item dims ∧
      Closed spelled := by
  obtain ⟨stem, item, dims, hstem, habi, rfl, -⟩ := exists_stem_of_resolve hresolve
  obtain ⟨leaf, spelled, brackets, hsplit, hspelling, hleaf, hspelled, hbrackets⟩ :=
    exists_words_of_isOrdinary hT htext
  have hno : ∀ c, isWordChar c = false → c ∉ leaf := by
    intro c hc hmem
    rw [List.all_eq_true.mp hleaf c hmem] at hc
    cases hc
  have hdims : dims.flatMap dimText = [] ∨ (dims.flatMap dimText).head? = some '[' := by
    cases dims with
    | nil => exact .inl rfl
    | cons d dims => cases d <;> simp [dimText]
  cases hstem with
  | tuple items ts =>
    -- a tuple begins with a parenthesis, which is neither in a word nor a bracket of an array
    have hhead := congrArg List.head? (habi.symm.trans hsplit)
    cases leaf with
    | nil => rcases hbrackets with rfl | hbrackets <;> simp_all
    | cons c leaf =>
      obtain rfl : '(' = c := by simpa using hhead
      exact absurd List.mem_cons_self (hno '(' rfl)
  | @basic base size item h =>
    have hfront : base.toList ++ sizeText size = leaf := by
      rw [← takeWhile_append (h.not_mem (.inl rfl)) hdims,
        ← takeWhile_append (hno '[' rfl) hbrackets, ← habi, hsplit]
    have hbehind : dims.flatMap dimText = brackets := by
      rw [hsplit, hfront] at habi
      exact (List.append_cancel_left habi).symm
    exact ⟨base, size, item, dims, spelled, h, habi, by rwa [hbehind], rfl, hspelled⟩

/-! ## Rendering -/

/-- All statements that were collected are closed. -/
def IsTidy (r : Renderer) : Prop :=
  ∀ s ∈ r.statements, Closed s.toList

lemma closed_decimal (n : Nat) : Closed (decimal n) :=
  closed_of_isWord (isWord_decimal n)

lemma closed_dims (dims : List (Option Nat)) : Closed (dims.flatMap dimText) := by
  refine closed_flatMap fun d _ => ?_
  cases d with
  | none => exact closed_nil.bracket .square
  | some n => exact (closed_decimal n).bracket .square

/-- A new variable is closed. -/
lemma ensures_fresh : Ensures IsTidy (fun name => Closed name.toList) Rendering.fresh := by
  intro r r' name hruns hr
  obtain ⟨name', hrun, hname⟩ := exists_fresh r
  rw [Runs, hrun] at hruns
  cases hruns
  have hclosed : Closed (arrayName r.next) :=
    (closed_of_isWord (by decide)).append (closed_decimal r.next)
  exact ⟨hr, by simpa only [hname] using hclosed⟩

lemma ensures_emit {lines : List String} (h : ∀ s ∈ lines, Closed s.toList) :
    Ensures IsTidy (fun _ => True) (Rendering.emit lines) := by
  intro r r' x hruns hr
  obtain ⟨-, rfl⟩ := runs_modify_iff.mp hruns
  refine ⟨fun s hs => ?_, trivial⟩
  rcases List.mem_append.mp hs with hs | hs
  · exact hr s hs
  · exact h s hs

lemma ensures_renderAll {render : Value → Rendering (List Char)} {vs : List Value}
    (h : ∀ v ∈ vs, Ensures IsTidy Closed (render v)) :
    Ensures IsTidy (fun exprs => ∀ expr ∈ exprs, Closed expr) (renderAll render vs) := by
  induction vs with
  | nil => exact ensures_pure (by simp)
  | cons v vs ih =>
    obtain ⟨hv, hvs⟩ := List.forall_mem_cons.mp h
    refine hv.bind fun expr hexpr => ?_
    refine (ih hvs).bind fun exprs hexprs => ?_
    exact ensures_pure (List.forall_mem_cons.mpr ⟨hexpr, hexprs⟩)

/-! ### Expressions and statements -/

section Texts

variable {sol expr : List Char} {exprs : List (List Char)} {name : String}

lemma closed_conversion (hsol : Closed sol) (hexpr : Closed expr) :
    Closed (sol ++ '(' :: expr ++ [')']) := by
  have htext : sol ++ '(' :: expr ++ [')'] = sol ++ '(' :: (expr ++ [')']) := by simp
  exact htext ▸ hsol.append (hexpr.bracket .round)

lemma closed_convert (abi : List Char) (hexpr : Closed expr) (hsol : Closed sol) :
    Closed (convert expr abi sol) := by
  have hpayable : Closed "payable".toList := closed_of_isWord (by decide)
  unfold convert
  split
  · exact hexpr
  split
  · exact closed_conversion hpayable hexpr
  · exact closed_conversion hsol hexpr

lemma closed_inlineArray (abi : List Char) (hexprs : ∀ e ∈ exprs, Closed e) (hsol : Closed sol) :
    Closed (inlineArray exprs abi sol) := by
  have hcomma : Closed [',', ' '] := closed_of_bare (by simp [isBare, marks])
  have hjoin : ∀ es : List (List Char), (∀ e ∈ es, Closed e) →
      Closed ('[' :: (joinWith [',', ' '] es ++ [']'])) := fun es hes =>
    (closed_joinWith hcomma hes).bracket .square
  unfold inlineArray
  refine hjoin _ ?_
  cases exprs with
  | nil => simp
  | cons e es =>
    obtain ⟨he, hes⟩ := List.forall_mem_cons.mp hexprs
    simp only
    split
    · exact List.forall_mem_cons.mpr ⟨closed_conversion hsol he, hes⟩
    · exact hexprs

lemma closed_allocation (count : Nat) (hname : Closed name.toList) (hsol : Closed sol) :
    Closed (allocation name sol count).toList := by
  have htext : (allocation name sol count).toList = sol ++ ['[', ']'] ++ " memory ".toList ++
      name.toList ++ " = new ".toList ++ sol ++ ['[', ']'] ++ '(' :: (decimal count ++ [')']) ++
      [';'] := by
    simp [allocation, toDigits_eq]
  have hopen : Closed ['[', ']'] := closed_nil.bracket .square
  have hmemory : Closed " memory ".toList := closed_of_bare (by simp [isBare, marks])
  have hnew : Closed " = new ".toList := closed_of_bare (by simp [isBare, marks])
  have hend : Closed [';'] := closed_of_bare (by simp [isBare, marks])
  rw [htext]
  exact (((((((hsol.append hopen).append hmemory).append hname).append hnew).append hsol).append
    hopen).append ((closed_decimal count).bracket .round)).append hend

lemma closed_assignments (i : Nat) (hname : Closed name.toList) (hexprs : ∀ e ∈ exprs, Closed e) :
    ∀ s ∈ assignments name i exprs, Closed s.toList := by
  induction exprs generalizing i with
  | nil => simp [assignments]
  | cons e es ih =>
    obtain ⟨he, hes⟩ := List.forall_mem_cons.mp hexprs
    refine List.forall_mem_cons.mpr ⟨?_, ih (i + 1) hes⟩
    have htext : (name ++ "[" ++ toString i ++ "] = " ++ String.ofList e ++ ";").toList =
        name.toList ++ '[' :: (decimal i ++ [']']) ++ " = ".toList ++ e ++ [';'] := by
      simp [toDigits_eq]
    have hequals : Closed " = ".toList := closed_of_bare (by simp [isBare, marks])
    have hend : Closed [';'] := closed_of_bare (by simp [isBare, marks])
    rw [htext]
    exact (((hname.append ((closed_decimal i).bracket .square)).append hequals).append he).append
      hend

end Texts

/-- **Arrays are closed** if the literals of their innermost items are. -/
theorem ensures_render_of_literals {stem sol : List Char} {t : AbiType}
    (hstem : endsWith [']'] stem = false)
    (hliteral : ∀ v expr, Fits t v → literal v stem = .ok expr → Closed expr) (hsol : Closed sol)
    {dims : List (Option Nat)} {room : Nat} {v : Value} (hv : Fits (withDims t dims) v) :
    Ensures IsTidy Closed
      (render room (stem ++ dims.flatMap dimText) (sol ++ dims.flatMap dimText) v) := by
  induction dims using List.reverseRecOn generalizing room v with
  | nil =>
    cases room with
    | zero => exact ensures_throw _
    | succ room =>
      simp only [List.flatMap_nil, List.append_nil, render, hstem, Bool.false_eq_true,
        if_false]
      split
      next expr hexpr =>
        exact ensures_pure (closed_convert _ (hliteral v expr (by simpa [withDims] using hv) hexpr)
          hsol)
      next => exact ensures_throw _
  | append_singleton dims d ih =>
    cases room with
    | zero => exact ensures_throw _
    | succ room =>
      obtain ⟨vs, rfl, hvs⟩ := exists_items_of_fits hv
      have hitem : Closed (sol ++ dims.flatMap dimText) := hsol.append (closed_dims dims)
      have hitems : Ensures IsTidy (fun exprs => ∀ expr ∈ exprs, Closed expr)
          (renderAll (render room (stem ++ dims.flatMap dimText)
            (sol ++ dims.flatMap dimText)) vs) :=
        ensures_renderAll fun u hu => ih (hvs u hu)
      rw [List.flatMap_append, List.flatMap_singleton, ← List.append_assoc, ← List.append_assoc]
      have hof : itemsOf (.tuple vs) = pure vs := rfl
      simp only [render, endsWith_append_dim, if_true, elementText?_append_dim, hof,
        pure_bind]
      split
      · refine ensures_fresh.bind fun name hname => ?_
        refine hitems.bind fun exprs hexprs => ?_
        refine (ensures_emit ?_).bind fun _ _ => ensures_pure hname
        exact List.forall_mem_cons.mpr
          ⟨closed_allocation _ hname hitem, closed_assignments 0 hname hexprs⟩
      · refine hitems.bind fun exprs hexprs => ensures_pure (closed_inlineArray _ hexprs hitem)

/-- **The expression of a value is closed**, and so are the statements that have to run in front of
it, if the value fits the type and the names in the type are ordinary. -/
theorem ensures_render {T : TypeName} (hT : IsOrdinary T) {rooms : Rooms}
    {described spelled room : Nat} {abi sol : List Char} {t : AbiType} {v : Value}
    (htext : typeText described T = .ok abi) (hsol : T.spelling spelled = .ok sol)
    (hresolve : resolve rooms abi = .ok t) (hv : Fits t v) :
    Ensures IsTidy Closed (render room abi sol v) := by
  obtain ⟨base, size, item, dims, front, hleaf, rfl, hspelling, rfl, hspelled⟩ :=
    exists_closed_dims hT htext hresolve
  obtain ⟨rfl, -⟩ := hspelling.eq_of_spelling hsol
  exact ensures_render_of_literals (endsWith_stem (.basic hleaf))
    (fun v expr hv hexpr => (literalText_of_fits hleaf hv hexpr).closed) hspelled hv

end HoneypotAudit.Solidity
