import HoneypotAudit.Proofs.Solidity.Evaluation
import HoneypotAudit.Proofs.Solidity.Lexical
import HoneypotAudit.Proofs.Solidity.Pragma

/-!
# Pragmas in effect

The compiler takes a text for a pragma only where it reads code, and where the text is not the end
of a longer name.  `modeBehind` says what a place of a source is part of, and `HasEncoderInEffect`
that the second encoder is turned on by a pragma that counts.

The pragma is added to sources that do not have its text.  A source that has the text in a comment
or a literal and nowhere else is left without the pragma, and it is the only kind that is
(`hasEncoderInEffect_ensureEncoder_iff`).  What is added counts, since the line feed in front of it
ends a comment on the last line.
-/

namespace HoneypotAudit.Solidity

open HoneypotAudit.Text HoneypotAudit.Solidity.Pragma

/-! ## Places of a text -/

/-- What a place is part of, one character later.  A literal goes on up to its mark, whatever is in
it. -/
def Mode.after (mode : Mode) (c : Char) : Mode :=
  match mode.next c, mode with
  | some (behind, _), _ => behind
  | none, .escape mark => .literal mark
  | none, _ => mode

/-- What the place behind a text is part of. -/
def modeBehind (text : List Char) : Mode :=
  text.foldl Mode.after .code

/-- Whether code is read at a place.  Behind a slash, it depends on the next character. -/
def Mode.isCode : Mode → Bool
  | .code => true
  | .slash => true
  | _ => false

/-- Every literal and every block comment of a text ends in it; a comment on the last line ends with
the text. -/
def IsTerminated (text : List Char) : Prop :=
  (modeBehind text).atEnd.isSome = true

instance (text : List Char) : Decidable (IsTerminated text) :=
  inferInstanceAs (Decidable (_ = _))

/-- A part of a text is code from its beginning to its end. -/
def InCode (front text : List Char) : Prop :=
  ∀ part, part <+: text → (modeBehind (front ++ part)).isCode = true

/-- A character that begins neither a comment nor a literal, not even behind a slash. -/
def opensNothing (c : Char) : Bool :=
  !isMark c && c != '/' && c != '*'

section Places

variable {mode : Mode} {front text : List Char}

lemma modeBehind_append (front text : List Char) :
    modeBehind (front ++ text) = text.foldl Mode.after (modeBehind front) :=
  List.foldl_append

lemma after_of_opensNothing {c : Char} (hmode : mode.isCode = true) (hc : opensNothing c = true) :
    mode.after c = .code := by
  obtain ⟨⟨hmark, hslash⟩, hasterisk⟩ : (isMark c = false ∧ c ≠ '/') ∧ c ≠ '*' := by
    simpa [opensNothing] using hc
  cases mode with
  | code => simp [Mode.after, Mode.next, hmark, hslash]
  | slash => simp [Mode.after, Mode.next, hmark, hslash, hasterisk]
  | _ => cases hmode

lemma isCode_foldl_after (htext : ∀ c ∈ text, opensNothing c = true) (hmode : mode.isCode = true) :
    (text.foldl Mode.after mode).isCode = true := by
  induction text generalizing mode with
  | nil => exact hmode
  | cons c cs ih =>
    obtain ⟨hc, hcs⟩ := List.forall_mem_cons.mp htext
    rw [List.foldl_cons, after_of_opensNothing hmode hc]
    exact ih hcs rfl

/-- A text in which nothing else begins is code wherever it begins in code. -/
lemma inCode_of_opensNothing (hfront : (modeBehind front).isCode = true)
    (htext : ∀ c ∈ text, opensNothing c = true) : InCode front text := by
  intro part hpart
  rw [modeBehind_append]
  exact isCode_foldl_after (fun c hc => htext c (hpart.subset hc)) hfront

/-- A line feed behind a text in which all comments and literals end leads to code. -/
lemma modeBehind_lineFeed (h : IsTerminated text) : modeBehind (text ++ ['\n']) = .code := by
  rw [modeBehind_append, List.foldl_cons, List.foldl_nil]
  unfold IsTerminated at h
  generalize modeBehind text = mode at h
  cases mode with
  | code => rfl
  | slash => rfl
  | lineComment => rfl
  | _ => cases h

end Places

/-! ## The text of a pragma -/

lemma opensNothing_of_isBlank {c : Char} (h : isBlank c = true) : opensNothing c = true := by
  have hne : ∀ m, isBlank m = false → c ≠ m := by
    rintro m hm rfl
    rw [hm] at h
    cases h
  have hquotes : isMark c = false := by
    simp [isMark, hne '"' (by decide), hne '\'' (by decide)]
  simp [opensNothing, hquotes, hne '/' (by decide), hne '*' (by decide)]

lemma opensNothing_of_isPragma {kind value : String} {text : List Char}
    (hkind : kind.toList.all opensNothing = true) (hvalue : value.toList.all opensNothing = true)
    (h : IsPragma kind value text) : ∀ c ∈ text, opensNothing c = true := by
  obtain ⟨gap₁, gap₂, gap₃, hgap₁, hgap₂, hgap₃, rfl⟩ := h
  have hword : "pragma".toList.all opensNothing = true := by decide
  have hgaps : ∀ {gap}, IsGap gap → ∀ c ∈ gap, opensNothing c = true :=
    fun hgap c hc => opensNothing_of_isBlank (hgap c hc)
  simp only [List.forall_mem_append]
  exact ⟨List.all_eq_true.mp hword, hgaps hgap₁.2, List.all_eq_true.mp hkind, hgaps hgap₂.2,
    List.all_eq_true.mp hvalue, hgaps hgap₃, List.all_eq_true.mp (by decide)⟩

lemma opensNothing_of_isEncoderPragma {text : List Char} (h : IsEncoderPragma text) :
    ∀ c ∈ text, opensNothing c = true := by
  rcases h with h | h
  · exact opensNothing_of_isPragma (by decide) (by decide) h
  · exact opensNothing_of_isPragma (by decide) (by decide) h

/-! ## Pragmas in effect -/

/-- No name ends at the end of a text, so that a word may begin behind it. -/
def EndsNoName (text : List Char) : Prop :=
  ∀ c ∈ text.getLast?, isNameChar c = false

/-- A source has a pragma that turns on the second ABI encoder, as a word of its own, and outside
comments and literals. -/
def HasEncoderInEffect (source : List Char) : Prop :=
  ∃ front text behind, source = front ++ text ++ behind ∧ IsEncoderPragma text ∧
    InCode front text ∧ EndsNoName front

/-- Whether a pragma that counts begins behind so many characters of a source. -/
def takesEffectAt (source : List Char) (place : Nat) : Bool :=
  (encoderHere? (source.drop place)).isSome && (modeBehind (source.take place)).isCode &&
    (source.take place).getLast?.all fun c => !isNameChar c

lemma endsNoName_iff (text : List Char) :
    EndsNoName text ↔ text.getLast?.all (fun c => !isNameChar c) = true := by
  rw [EndsNoName]
  cases text.getLast? <;> simp

/-- A pragma that counts is found by going through the places of a source. -/
lemma any_takesEffectAt_iff (source : List Char) :
    (List.range (source.length + 1)).any (takesEffectAt source) = true ↔
      HasEncoderInEffect source := by
  simp only [List.any_eq_true, List.mem_range, takesEffectAt, Bool.and_eq_true,
    isSome_encoderHere?_iff, ← endsNoName_iff]
  constructor
  · rintro ⟨place, -, ⟨⟨text, htext, behind, hbehind⟩, hcode⟩, hname⟩
    refine ⟨source.take place, text, behind, ?_, htext, ?_, hname⟩
    · rw [List.append_assoc, hbehind, List.take_append_drop]
    · exact inCode_of_opensNothing hcode (opensNothing_of_isEncoderPragma htext)
  · rintro ⟨front, text, behind, rfl, htext, hcode, hname⟩
    refine ⟨front.length, by simp only [List.length_append]; omega, ?_⟩
    rw [List.append_assoc, List.drop_left, List.take_left]
    refine ⟨⟨⟨text, htext, List.prefix_append _ _⟩, ?_⟩, hname⟩
    simpa using hcode [] (List.nil_prefix)

instance (source : List Char) : Decidable (HasEncoderInEffect source) :=
  decidable_of_iff _ (any_takesEffectAt_iff source)

/-- A pragma that counts is one that is found. -/
lemma HasEncoderInEffect.hasEncoder {source : List Char} (h : HasEncoderInEffect source) :
    hasEncoder source = true := by
  obtain ⟨front, text, behind, hsource, htext, -, -⟩ := h
  exact (hasEncoder_iff source).mpr ⟨text, htext, front, behind, hsource.symm⟩

/-- The line that is added behind a source takes effect. -/
lemma hasEncoderInEffect_of_not_hasEncoder {source : List Char} (hterminated : IsTerminated source)
    (hnone : ¬hasEncoder source = true) : HasEncoderInEffect (ensureEncoder source) := by
  have hpragma := isEncoderPragma_encoderLine
  have hcode : (modeBehind (source ++ ['\n'])).isCode = true := by
    rw [modeBehind_lineFeed hterminated]
    rfl
  refine ⟨source ++ ['\n'], encoderLine.toList, ['\n'], ?_, hpragma, ?_, ?_⟩
  · rw [ensureEncoder_of_not_hasEncoder hnone]
    simp
  · exact inCode_of_opensNothing hcode (opensNothing_of_isEncoderPragma hpragma)
  · rw [endsNoName_iff, List.getLast?_concat]
    rfl

/-- **The encoder pragma is in effect unless its text stands only where it does not count.**  For a
source in which all comments and literals end, what `ensureEncoder` makes of it has the pragma in
effect exactly if the source itself has it in effect, or does not have its text at all. -/
theorem hasEncoderInEffect_ensureEncoder_iff {source : List Char}
    (hterminated : IsTerminated source) :
    HasEncoderInEffect (ensureEncoder source) ↔
      HasEncoderInEffect source ∨ ¬∃ text, IsEncoderPragma text ∧ text <:+: source := by
  rw [← hasEncoder_iff]
  by_cases hfound : hasEncoder source = true
  · rw [ensureEncoder_of_hasEncoder hfound]
    simp [hfound]
  · constructor
    · exact fun _ => .inr hfound
    · exact fun _ => hasEncoderInEffect_of_not_hasEncoder hterminated hfound

/-- A source with marks of comments in a literal, and with a comment on its last line. -/
def lastLineComment : List Char :=
  "contract C \x7b string s = \"/* // \\\"\"; \x7d // pragma experimental".toList

theorem hasEncoderInEffect_ensureEncoder_lastLineComment :
    IsTerminated lastLineComment ∧ ¬HasEncoderInEffect lastLineComment ∧
      HasEncoderInEffect (ensureEncoder lastLineComment) := by
  have hterminated : IsTerminated lastLineComment := by decide +kernel
  have hnone : ¬hasEncoder lastLineComment = true := by decide +kernel
  rw [hasEncoder_iff] at hnone
  exact ⟨hterminated, by decide +kernel,
    (hasEncoderInEffect_ensureEncoder_iff hterminated).mpr (.inr hnone)⟩

/-- Where the pragma is commented out, it is not added. -/
theorem commentedPragma_not_inEffect :
    IsTerminated "// pragma experimental ABIEncoderV2;\ncontract C \x7b\x7d\n".toList ∧
      ¬HasEncoderInEffect
        (ensureEncoder "// pragma experimental ABIEncoderV2;\ncontract C \x7b\x7d\n".toList) := by
  decide +kernel

end HoneypotAudit.Solidity
