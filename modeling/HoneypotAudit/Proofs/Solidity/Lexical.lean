import HoneypotAudit.Solidity.Literal
import HoneypotAudit.Text.Lines
import Mathlib.Tactic.Common

/-!
# What code looks like from afar

The outline of a text: the text without literals and comments, and without whatever stands so many
brackets deep (`outline?`).  A text in which a literal or a comment does not end, or in which
brackets do not match, has none.

* `lexFrom` leaves the literals and comments out, with a blank in their place.
* `outlineFrom` goes over what is left with the brackets that are open.

The outline of a text is put together from those of its parts: `Outlines` says what a part adds to
the outline wherever it stands at a depth, and `Closed` that it adds nothing wherever it stands deep
enough.  Neither depends on what stands around the part, so both are closed under appending and
under brackets, and a literal is closed whatever is in it (`closed_literal`).
-/

namespace HoneypotAudit.Solidity

open HoneypotAudit.Text

/-! ## Literals and comments -/

/-- What a character is part of. -/
inductive Mode where
  | code
  /-- A slash was the last character, and may begin a comment. -/
  | slash
  | lineComment
  | blockComment
  /-- An asterisk was the last character of a comment, and may end it. -/
  | asterisk
  | literal (mark : Char)
  /-- The next character is escaped. -/
  | escape (mark : Char)
  deriving Repr, DecidableEq

/-- The characters around a literal. -/
def isMark (c : Char) : Bool :=
  c == '"' || c == '\''

/-- The characters that end a line, and a comment on it. -/
def isLineEnd (c : Char) : Bool :=
  (decide (0x0A ≤ c.toNat) && decide (c.toNat ≤ 0x0D)) ||
    c.toNat == 0x85 || c.toNat == 0x2028 || c.toNat == 0x2029

/-- What a character leads to, and the code that this makes certain.  A literal is in printable
ASCII. -/
def Mode.next : Mode → Char → Option (Mode × List Char)
  | .code, c =>
    if isMark c then some (.literal c, [])
    else if c = '/' then some (.slash, [])
    else some (.code, [c])
  | .slash, c =>
    if isMark c then some (.literal c, ['/'])
    else if c = '/' then some (.lineComment, [])
    else if c = '*' then some (.blockComment, [])
    else some (.code, ['/', c])
  | .lineComment, c => if isLineEnd c then some (.code, [c]) else some (.lineComment, [])
  | .blockComment, c => if c = '*' then some (.asterisk, []) else some (.blockComment, [])
  | .asterisk, c =>
    if c = '/' then some (.code, [' '])
    else if c = '*' then some (.asterisk, [])
    else some (.blockComment, [])
  | .literal mark, c =>
    if c = mark then some (.code, [' '])
    else if c = '\\' then some (.escape mark, [])
    else if isPlain c then some (.literal mark, [])
    else none
  | .escape mark, c => if isPlain c then some (.literal mark, []) else none

/-- What is left at the end of a text, which may not stand inside a literal or a block comment. -/
def Mode.atEnd : Mode → Option (List Char)
  | .code => some []
  | .slash => some ['/']
  | .lineComment => some []
  | _ => none

/-- A text without literals and comments. -/
def lexFrom : Mode → List Char → Option (List Char)
  | mode, [] => mode.atEnd
  | mode, c :: cs => (mode.next c).bind fun p => (lexFrom p.1 cs).map (p.2 ++ ·)

/-! ## Brackets -/

/-- The kinds of brackets. -/
inductive Bracket where
  | round
  | square
  | curly
  deriving Repr, DecidableEq

namespace Bracket

def opening : Bracket → Char
  | .round => '('
  | .square => '['
  | .curly => '{'

def closing : Bracket → Char
  | .round => ')'
  | .square => ']'
  | .curly => '}'

/-- The kind of a bracket that opens. -/
def ofOpening? : Char → Option Bracket
  | '(' => some .round
  | '[' => some .square
  | '{' => some .curly
  | _ => none

/-- The kind of a bracket that closes. -/
def ofClosing? : Char → Option Bracket
  | ')' => some .round
  | ']' => some .square
  | '}' => some .curly
  | _ => none

@[simp] lemma ofOpening?_opening (b : Bracket) : ofOpening? b.opening = some b := by
  cases b <;> rfl

@[simp] lemma ofOpening?_closing (b : Bracket) : ofOpening? b.closing = none := by
  cases b <;> rfl

@[simp] lemma ofClosing?_closing (b : Bracket) : ofClosing? b.closing = some b := by
  cases b <;> rfl

end Bracket

/-- A character as the outline has it: not at all if too many brackets are open. -/
def shown (levels depth : Nat) (c : Char) : List Char :=
  if depth < levels then [c] else []

lemma shown_of_lt {levels depth : Nat} (h : depth < levels) (c : Char) :
    shown levels depth c = [c] :=
  if_pos h

lemma shown_of_le {levels depth : Nat} (h : levels ≤ depth) (c : Char) :
    shown levels depth c = [] :=
  if_neg (Nat.not_lt.mpr h)

/-- Code without what stands more than so many brackets deep, where some brackets are open. -/
def outlineFrom (levels : Nat) : List Bracket → List Char → Option (List Char)
  | opened, [] => if opened = [] then some [] else none
  | opened, c :: cs =>
    match Bracket.ofOpening? c, Bracket.ofClosing? c with
    | some b, _ =>
      (outlineFrom levels (b :: opened) cs).map (shown levels opened.length c ++ ·)
    | none, some b =>
      if opened.head? = some b then
        (outlineFrom levels opened.tail cs).map (shown levels opened.tail.length c ++ ·)
      else none
    | none, none => (outlineFrom levels opened cs).map (shown levels opened.length c ++ ·)

/-- The outline of a text. -/
def outline? (levels : Nat) (text : List Char) : Option (List Char) :=
  (lexFrom .code text).bind (outlineFrom levels [])

/-! ## Parts of a text -/

lemma map_nil_append (o : Option (List Char)) : o.map ([] ++ ·) = o := by
  cases o <;> rfl

/-- Wherever a part begins in code, it ends in code, and it adds the same to the code. -/
def Lexes (text code : List Char) : Prop :=
  ∀ rest, lexFrom .code (text ++ rest) = (lexFrom .code rest).map (code ++ ·)

/-- Wherever so many brackets are open, a part of the code leaves them open, and it adds the same to
the outline. -/
def Nests (levels depth : Nat) (code out : List Char) : Prop :=
  ∀ opened rest, opened.length = depth → outlineFrom levels opened (code ++ rest) =
    (outlineFrom levels opened rest).map (out ++ ·)

section Parts

variable {text text' code code' out out' : List Char} {levels depth : Nat}

lemma lexes_nil : Lexes [] [] := by
  intro rest
  simp

lemma Lexes.append (h : Lexes text code) (h' : Lexes text' code') :
    Lexes (text ++ text') (code ++ code') := by
  intro rest
  rw [List.append_assoc, h, h', Option.map_map]
  simp [Function.comp_def]

lemma nests_nil : Nests levels depth [] [] := by
  intro opened rest _
  simp

lemma Nests.append (h : Nests levels depth code out) (h' : Nests levels depth code' out') :
    Nests levels depth (code ++ code') (out ++ out') := by
  intro opened rest hdepth
  rw [List.append_assoc, h opened _ hdepth, h' opened rest hdepth, Option.map_map]
  simp [Function.comp_def]

/-- A part between brackets. -/
lemma Nests.bracket (b : Bracket) (h : Nests levels (depth + 1) code out) :
    Nests levels depth (b.opening :: (code ++ [b.closing]))
      (shown levels depth b.opening ++ (out ++ shown levels depth b.closing)) := by
  rintro opened rest rfl
  have hinside := h (b :: opened) (b.closing :: rest) rfl
  have hclose : outlineFrom levels (b :: opened) (b.closing :: rest)
      = (outlineFrom levels opened rest).map (shown levels opened.length b.closing ++ ·) := by
    simp [outlineFrom]
  rw [hclose, Option.map_map] at hinside
  rw [List.cons_append, List.append_assoc, List.singleton_append, outlineFrom]
  simp only [Bracket.ofOpening?_opening, hinside, Option.map_map]
  simp [Function.comp_def]

end Parts

/-! ## Characters without a meaning of their own -/

/-- The characters that begin something else than code, and the brackets. -/
def marks : List Char :=
  ['"', '\'', '/', '(', '[', '{', ')', ']', '}']

/-- A character that is neither a bracket nor the beginning of something else than code. -/
def isBare (c : Char) : Bool :=
  !marks.contains c

/-- The characters of a class are bare if no mark is in it. -/
lemma isBare_of_class {p : Char → Bool} (hp : ∀ m ∈ marks, p m = false) {c : Char}
    (h : p c = true) : isBare c = true := by
  have hnot : c ∉ marks := by
    intro hmem
    rw [hp c hmem] at h
    cases h
  simpa [isBare] using hnot

lemma isCode_of_isBare {c : Char} (h : isBare c = true) : isMark c = false ∧ c ≠ '/' := by
  grind [isBare, marks, isMark]

lemma ofOpening?_of_isBare {c : Char} (h : isBare c = true) : Bracket.ofOpening? c = none := by
  unfold Bracket.ofOpening?
  split <;> first | rfl | cases h

lemma ofClosing?_of_isBare {c : Char} (h : isBare c = true) : Bracket.ofClosing? c = none := by
  unfold Bracket.ofClosing?
  split <;> first | rfl | cases h

section Bare

variable {cs : List Char}

/-- Characters that begin nothing else are code. -/
lemma lexes_of_code (h : ∀ c ∈ cs, isMark c = false ∧ c ≠ '/') : Lexes cs cs := by
  induction cs with
  | nil => exact lexes_nil
  | cons c cs ih =>
    obtain ⟨⟨hmark, hslash⟩, hcs⟩ := List.forall_mem_cons.mp h
    intro rest
    have hnext : Mode.code.next c = some (.code, [c]) := by simp [Mode.next, hmark, hslash]
    rw [List.cons_append, lexFrom, hnext, Option.bind_some, ih hcs, Option.map_map]
    rfl

lemma lexes_of_bare (h : ∀ c ∈ cs, isBare c = true) : Lexes cs cs :=
  lexes_of_code fun c hc => isCode_of_isBare (h c hc)

/-- Bare characters stay at the depth at which they stand. -/
lemma nests_of_bare (levels depth : Nat) (h : ∀ c ∈ cs, isBare c = true) :
    Nests levels depth cs (cs.flatMap (shown levels depth)) := by
  induction cs with
  | nil => exact nests_nil
  | cons c cs ih =>
    obtain ⟨hc, hcs⟩ := List.forall_mem_cons.mp h
    rintro opened rest rfl
    rw [List.cons_append, outlineFrom]
    simp only [ofOpening?_of_isBare hc, ofClosing?_of_isBare hc, ih hcs opened rest rfl,
      Option.map_map, List.flatMap_cons]
    simp [Function.comp_def]

end Bare

/-! ## The outline of a part -/

/-- What a part adds to the outline wherever it stands at a depth. -/
def Outlines (levels depth : Nat) (text out : List Char) : Prop :=
  ∃ code, Lexes text code ∧ Nests levels depth code out

/-- A part adds nothing to the outline wherever it stands deep enough. -/
def Closed (text : List Char) : Prop :=
  ∃ code, Lexes text code ∧ ∀ levels depth, levels ≤ depth → Nests levels depth code []

section Outlines

variable {text text' out out' : List Char} {levels depth : Nat}

/-- The outline of a text is what the whole of it adds. -/
theorem outline?_of_outlines (h : Outlines levels 0 text out) :
    outline? levels text = some out := by
  obtain ⟨code, hcode, hout⟩ := h
  have hlex := hcode []
  have hnest := hout [] [] rfl
  rw [List.append_nil] at hlex hnest
  simpa [outline?, hlex, lexFrom, Mode.atEnd, outlineFrom] using hnest

lemma outlines_nil : Outlines levels depth [] [] :=
  ⟨[], lexes_nil, nests_nil⟩

lemma Outlines.append (h : Outlines levels depth text out) (h' : Outlines levels depth text' out') :
    Outlines levels depth (text ++ text') (out ++ out') := by
  obtain ⟨code, hcode, hout⟩ := h
  obtain ⟨code', hcode', hout'⟩ := h'
  exact ⟨code ++ code', hcode.append hcode', hout.append hout'⟩

lemma outlines_flatMap {α : Type} {f g : α → List Char} {as : List α}
    (h : ∀ a ∈ as, Outlines levels depth (f a) (g a)) :
    Outlines levels depth (as.flatMap f) (as.flatMap g) := by
  induction as with
  | nil => exact outlines_nil
  | cons a as ih =>
    obtain ⟨ha, has⟩ := List.forall_mem_cons.mp h
    exact ha.append (ih has)

/-- Bare characters that are not too deep are in the outline. -/
lemma outlines_of_bare (hdepth : depth < levels) (h : ∀ c ∈ text, isBare c = true) :
    Outlines levels depth text text := by
  have hshown : text.flatMap (shown levels depth) = text := by
    have hsingle : shown levels depth = fun c => [c] := funext (shown_of_lt hdepth)
    rw [hsingle, List.flatMap_singleton']
  have hnests := nests_of_bare levels depth h
  rw [hshown] at hnests
  exact ⟨text, lexes_of_bare h, hnests⟩

lemma lexes_bracket (b : Bracket) {code : List Char} (h : Lexes text code) :
    Lexes (b.opening :: (text ++ [b.closing])) (b.opening :: (code ++ [b.closing])) := by
  have hopen : Lexes [b.opening] [b.opening] :=
    lexes_of_code (by cases b <;> simp [Bracket.opening, isMark])
  have hclose : Lexes [b.closing] [b.closing] :=
    lexes_of_code (by cases b <;> simp [Bracket.closing, isMark])
  exact hopen.append (h.append hclose)

/-- Brackets that are not too deep are in the outline. -/
lemma Outlines.bracket (b : Bracket) (hdepth : depth < levels)
    (h : Outlines levels (depth + 1) text out) :
    Outlines levels depth (b.opening :: (text ++ [b.closing]))
      (b.opening :: (out ++ [b.closing])) := by
  obtain ⟨code, hcode, hnests⟩ := h
  have hbracket := hnests.bracket b
  rw [shown_of_lt hdepth, shown_of_lt hdepth] at hbracket
  exact ⟨_, lexes_bracket b hcode, hbracket⟩

end Outlines

/-! ## Closed parts -/

section Closed

variable {text text' : List Char} {levels depth : Nat}

lemma Closed.outlines (h : Closed text) (hdepth : levels ≤ depth) :
    Outlines levels depth text [] := by
  obtain ⟨code, hcode, hnests⟩ := h
  exact ⟨code, hcode, hnests levels depth hdepth⟩

lemma closed_nil : Closed [] :=
  ⟨[], lexes_nil, fun _ _ _ => nests_nil⟩

lemma Closed.append (h : Closed text) (h' : Closed text') : Closed (text ++ text') := by
  obtain ⟨code, hcode, hnests⟩ := h
  obtain ⟨code', hcode', hnests'⟩ := h'
  exact ⟨code ++ code', hcode.append hcode', fun levels depth hdepth =>
    (hnests levels depth hdepth).append (hnests' levels depth hdepth)⟩

lemma closed_flatMap {α : Type} {f : α → List Char} {as : List α} (h : ∀ a ∈ as, Closed (f a)) :
    Closed (as.flatMap f) := by
  induction as with
  | nil => exact closed_nil
  | cons a as ih =>
    obtain ⟨ha, has⟩ := List.forall_mem_cons.mp h
    exact ha.append (ih has)

lemma closed_joinWith {sep : List Char} (hsep : Closed sep) {parts : List (List Char)}
    (h : ∀ part ∈ parts, Closed part) : Closed (joinWith sep parts) := by
  induction parts with
  | nil => exact closed_nil
  | cons part parts ih =>
    obtain ⟨hpart, hparts⟩ := List.forall_mem_cons.mp h
    cases parts with
    | nil => exact hpart
    | cons => exact (hpart.append hsep).append (ih hparts)

lemma closed_of_bare (h : ∀ c ∈ text, isBare c = true) : Closed text := by
  refine ⟨text, lexes_of_bare h, fun levels depth hdepth => ?_⟩
  have hnests := nests_of_bare levels depth h
  have hshown : text.flatMap (shown levels depth) = [] := by
    simp [List.flatMap_eq_nil_iff, shown_of_le hdepth]
  rwa [hshown] at hnests

/-- Brackets around a closed part. -/
lemma Closed.bracket (b : Bracket) (h : Closed text) :
    Closed (b.opening :: (text ++ [b.closing])) := by
  obtain ⟨code, hcode, hnests⟩ := h
  refine ⟨_, lexes_bracket b hcode, fun levels depth hdepth => ?_⟩
  have hbracket := (hnests levels (depth + 1) (by omega)).bracket b
  rwa [shown_of_le hdepth, shown_of_le hdepth] at hbracket

/-! ### Texts with a gap -/

/-- The brackets that are open behind a part of the code. -/
def openBehind : List Bracket → List Char → Option (List Bracket)
  | opened, [] => some opened
  | opened, c :: cs =>
    match Bracket.ofOpening? c, Bracket.ofClosing? c with
    | some b, _ => openBehind (b :: opened) cs
    | none, some b => if opened.head? = some b then openBehind opened.tail cs else none
    | none, none => openBehind opened cs

lemma openBehind_append (opened : List Bracket) (front back : List Char) :
    openBehind opened (front ++ back) =
      (openBehind opened front).bind fun opened' => openBehind opened' back := by
  induction front generalizing opened with
  | nil => rfl
  | cons c front ih =>
    rw [List.cons_append, openBehind, openBehind]
    split
    · exact ih _
    · split
      · exact ih _
      · rfl
    · exact ih _

/-- What is deep enough is not in the outline, whatever brackets are open around it. -/
lemma outlineFrom_of_openBehind {opened opened' around : List Bracket} {code : List Char}
    (h : openBehind opened code = some opened') (hlevels : levels ≤ around.length)
    (rest : List Char) :
    outlineFrom levels (opened ++ around) (code ++ rest) =
      outlineFrom levels (opened' ++ around) rest := by
  induction code generalizing opened with
  | nil =>
    obtain rfl := Option.some.inj h
    rfl
  | cons c code ih =>
    have hdeep : ∀ inner : List Bracket, shown levels (inner ++ around).length c = [] :=
      fun inner => shown_of_le (by rw [List.length_append]; omega) c
    rw [openBehind] at h
    rw [List.cons_append, outlineFrom]
    cases hopening : Bracket.ofOpening? c with
    | some b =>
      simp only [hopening] at h
      have hinner := ih h
      simpa only [hdeep, map_nil_append, List.cons_append] using hinner
    | none =>
      cases hclosing : Bracket.ofClosing? c with
      | none =>
        simp only [hopening, hclosing] at h
        have hinner := ih h
        simpa only [hdeep, map_nil_append] using hinner
      | some b =>
        simp only [hopening, hclosing] at h
        split at h
        next hhead =>
          obtain ⟨inner, rfl⟩ : ∃ inner, opened = b :: inner := List.head?_eq_some_iff.mp hhead
          have hinner := ih h
          simpa only [hdeep, map_nil_append, List.cons_append, List.head?_cons, List.tail_cons,
            if_true] using hinner
        next => cases h

/-- A text in which there is nothing but code, and in which brackets match. -/
def isNested (text : List Char) : Bool :=
  text.all (fun c => !isMark c && c != '/') && openBehind [] text == some []

/-- **A gap can be filled with a closed part** wherever it is in a text of code in which brackets
match. -/
theorem closed_fill {front back : List Char} (h : isNested (front ++ back) = true)
    (hinside : Closed text) : Closed (front ++ text ++ back) := by
  obtain ⟨hcode, hmatch⟩ := Bool.and_eq_true_iff.mp h
  obtain ⟨code, hlexes, hnests⟩ := hinside
  have hall : ∀ c ∈ front ++ back, isMark c = false ∧ c ≠ '/' := fun c hc => by
    simpa using List.all_eq_true.mp hcode c hc
  rw [beq_iff_eq, openBehind_append, Option.bind_eq_some_iff] at hmatch
  obtain ⟨opened, hfront, hback⟩ := hmatch
  refine ⟨front ++ code ++ back, ?_, fun levels depth hdepth => ?_⟩
  · exact ((lexes_of_code fun c hc => hall c (by simp [hc])).append hlexes).append
      (lexes_of_code fun c hc => hall c (by simp [hc]))
  · rintro around rest rfl
    have hgap := hnests levels (opened ++ around).length (by rw [List.length_append]; omega)
      (opened ++ around) (back ++ rest) rfl
    have hbegin := outlineFrom_of_openBehind hfront hdepth (code ++ (back ++ rest))
    have hend := outlineFrom_of_openBehind hback hdepth rest
    simp only [List.nil_append] at hbegin hend hgap
    rw [List.append_assoc, List.append_assoc, hbegin, hgap, hend]
    simp

lemma closed_of_isNested (h : isNested text = true) : Closed text := by
  have hwhole : isNested (text ++ []) = true := by rwa [List.append_nil]
  simpa using closed_fill hwhole closed_nil

end Closed

/-! ## Literals -/

/-- What may stand inside a literal: plain characters, and escapes. -/
inductive LiteralBody (mark : Char) : List Char → Prop
  | nil : LiteralBody mark []
  | plain {c : Char} {cs : List Char} (hmark : c ≠ mark) (hslash : c ≠ '\\')
      (hplain : isPlain c = true) (h : LiteralBody mark cs) : LiteralBody mark (c :: cs)
  | escape {c : Char} {cs : List Char} (hplain : isPlain c = true) (h : LiteralBody mark cs) :
      LiteralBody mark ('\\' :: c :: cs)

section LiteralBody

variable {mark : Char} {cs ds : List Char}

lemma LiteralBody.append (h : LiteralBody mark cs) (h' : LiteralBody mark ds) :
    LiteralBody mark (cs ++ ds) := by
  induction h with
  | nil => exact h'
  | plain hmark hslash hplain _ ih => exact .plain hmark hslash hplain ih
  | escape hplain _ ih => exact .escape hplain ih

lemma literalBody_flatMap {α : Type} {f : α → List Char} {as : List α}
    (h : ∀ a ∈ as, LiteralBody mark (f a)) : LiteralBody mark (as.flatMap f) := by
  induction as with
  | nil => exact .nil
  | cons a as ih =>
    obtain ⟨ha, has⟩ := List.forall_mem_cons.mp h
    exact ha.append (ih has)

lemma literalBody_of_plain (h : ∀ c ∈ cs, c ≠ mark ∧ c ≠ '\\' ∧ isPlain c = true) :
    LiteralBody mark cs := by
  induction cs with
  | nil => exact .nil
  | cons c cs ih =>
    obtain ⟨⟨hmark, hslash, hplain⟩, hcs⟩ := List.forall_mem_cons.mp h
    exact .plain hmark hslash hplain (ih hcs)

/-- Nothing outside printable ASCII stands in a literal. -/
lemma LiteralBody.isPlain (h : LiteralBody mark cs) :
    ∀ c ∈ cs, Solidity.isPlain c = true := by
  induction h with
  | nil => exact List.forall_mem_nil _
  | plain _ _ hplain _ ih => exact List.forall_mem_cons.mpr ⟨hplain, ih⟩
  | escape hplain _ ih =>
    exact List.forall_mem_cons.mpr ⟨by decide, List.forall_mem_cons.mpr ⟨hplain, ih⟩⟩

/-- A literal ends at the first mark behind its body. -/
lemma lexFrom_literalBody (hmark : mark ≠ '\\') (h : LiteralBody mark cs) (rest : List Char) :
    lexFrom (.literal mark) (cs ++ mark :: rest) = (lexFrom .code rest).map ([' '] ++ ·) := by
  induction h with
  | nil => simp [lexFrom, Mode.next]
  | plain hne hslash hplain _ ih =>
    simp only [List.cons_append, lexFrom, Mode.next, if_neg hne, if_neg hslash, if_pos hplain,
      Option.bind_some, map_nil_append, ih]
  | escape hplain _ ih =>
    simp only [List.cons_append, lexFrom, Mode.next, if_neg hmark.symm, if_pos hplain, if_true,
      Option.bind_some, map_nil_append, ih]

/-- Nothing of a literal is code, and a blank stands for it. -/
lemma lexes_literal (hmark : isMark mark = true) (h : LiteralBody mark cs) :
    Lexes (mark :: (cs ++ [mark])) [' '] := by
  have hne : mark ≠ '\\' := by
    rintro rfl
    cases hmark
  intro rest
  rw [List.cons_append, List.append_assoc, List.singleton_append, lexFrom]
  simp only [Mode.next, hmark, if_true, Option.bind_some, lexFrom_literalBody hne h,
    map_nil_append]

/-- **A literal is closed** whatever is in it. -/
theorem closed_literal (hmark : isMark mark = true) (h : LiteralBody mark cs) :
    Closed (mark :: (cs ++ [mark])) := by
  have hblank : ∀ c ∈ [' '], isBare c = true := by simp [isBare, marks]
  refine ⟨[' '], lexes_literal hmark h, fun levels depth hdepth => ?_⟩
  have hshown := nests_of_bare levels depth hblank
  simpa [shown_of_le hdepth] using hshown

end LiteralBody

end HoneypotAudit.Solidity
