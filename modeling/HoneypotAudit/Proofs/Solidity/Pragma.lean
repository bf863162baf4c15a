import HoneypotAudit.Solidity.Pragma
import Mathlib.Data.List.Infix
import Mathlib.Data.List.TakeWhile

/-!
# Pragmas in source texts

What the search for a pragma finds, said without a search: `hasEncoder` holds exactly of the sources
that have the text of an encoder pragma in them (`hasEncoder_iff`).  A word of a pragma begins with
a visible character, so the blanks in front of it are all that there are.

So the pragma is added once and for all: whatever is put around a source to which it was added, it
is not added again (`ensureEncoder_stable`).
-/

namespace HoneypotAudit.Solidity.Pragma

open HoneypotAudit.Text

/-! ## The text of a pragma -/

/-- A text of blanks only. -/
def IsGap (gap : List Char) : Prop :=
  ∀ c ∈ gap, isBlank c = true

lemma isGap_nil : IsGap [] :=
  List.forall_mem_nil _

lemma isGap_space : IsGap [' '] :=
  List.forall_mem_singleton.mpr (by decide)

/-- A pragma of two words with its semicolon. -/
def IsPragma (kind value : String) (text : List Char) : Prop :=
  ∃ gap₁ gap₂ gap₃, (gap₁ ≠ [] ∧ IsGap gap₁) ∧ (gap₂ ≠ [] ∧ IsGap gap₂) ∧ IsGap gap₃ ∧
    text = "pragma".toList ++ (gap₁ ++ (kind.toList ++ (gap₂ ++ (value.toList ++ (gap₃ ++ [';'])))))

/-- A pragma that turns on the second ABI encoder, in one of its two spellings. -/
def IsEncoderPragma (text : List Char) : Prop :=
  IsPragma "experimental" "ABIEncoderV2" text ∨ IsPragma "abicoder" "v2" text

/-- A text whose first character is no blank. -/
def IsVisible (text : List Char) : Prop :=
  ∃ c cs, text = c :: cs ∧ isBlank c = false

lemma IsVisible.append {text : List Char} (h : IsVisible text) (rest : List Char) :
    IsVisible (text ++ rest) := by
  obtain ⟨c, cs, rfl, hc⟩ := h
  exact ⟨c, cs ++ rest, rfl, hc⟩

/-! ## Words and blanks -/

lemma after?_eq_some_iff {word cs rest : List Char} :
    after? word cs = some rest ↔ cs = word ++ rest := by
  induction word generalizing cs with
  | nil => simp [after?]
  | cons w ws ih =>
    cases cs with
    | nil => simp [after?]
    | cons c cs =>
      by_cases hc : w = c
      · simp [after?, hc, ih]
      · simp [after?, hc, Ne.symm hc]

/-- Blanks in front of a visible text are passed over. -/
lemma trimLeft_gap_append {gap rest : List Char} (hgap : IsGap gap) (hrest : IsVisible rest) :
    trimLeft isBlank (gap ++ rest) = rest := by
  obtain ⟨c, cs, rfl, hc⟩ := hrest
  rw [trimLeft, List.dropWhile_append_of_pos hgap, List.dropWhile_cons_of_neg (by simp [hc])]

/-- What is passed over are blanks. -/
lemma exists_gap (cs : List Char) : ∃ gap, IsGap gap ∧ cs = gap ++ trimLeft isBlank cs :=
  ⟨cs.takeWhile isBlank, fun _ hc => List.mem_takeWhile_imp hc,
    List.takeWhile_append_dropWhile.symm⟩

lemma afterBlanks?_append {gap : List Char} (hgap : gap ≠ [] ∧ IsGap gap) (rest : List Char) :
    afterBlanks? (gap ++ rest) = some (trimLeft isBlank rest) := by
  obtain ⟨c, gap, rfl⟩ := List.exists_cons_of_ne_nil hgap.1
  have hgap' : ∀ d ∈ gap, isBlank d = true := fun d hd => hgap.2 d (List.mem_cons_of_mem c hd)
  rw [List.cons_append, afterBlanks?, if_pos (hgap.2 c List.mem_cons_self), trimLeft,
    List.dropWhile_append_of_pos hgap', trimLeft]

lemma afterBlanks?_gap_append {gap rest : List Char} (hne : gap ≠ []) (hgap : IsGap gap)
    (hrest : IsVisible rest) : afterBlanks? (gap ++ rest) = some rest := by
  have hfirst : trimLeft isBlank rest = rest := trimLeft_gap_append isGap_nil hrest
  rw [afterBlanks?_append ⟨hne, hgap⟩, hfirst]

lemma exists_gap_of_afterBlanks? {cs rest : List Char} (h : afterBlanks? cs = some rest) :
    ∃ gap, (gap ≠ [] ∧ IsGap gap) ∧ cs = gap ++ rest := by
  cases cs with
  | nil => cases h
  | cons c cs =>
    rw [afterBlanks?] at h
    split at h
    · next hc =>
      obtain ⟨gap, hgap, hcs⟩ := exists_gap cs
      have hrest : trimLeft isBlank cs = rest := Option.some.inj h
      rw [hrest] at hcs
      have hall : IsGap (c :: gap) := by
        intro d hd
        rcases List.mem_cons.mp hd with rfl | hd
        · exact hc
        · exact hgap d hd
      exact ⟨c :: gap, ⟨List.cons_ne_nil c gap, hall⟩, by rw [hcs, List.cons_append]⟩
    · cases h

/-! ## Pragmas -/

/-- A pragma is found at the front of a text exactly when the text begins with one. -/
lemma isSome_pragmaHere?_iff {kind value : String} (hkind : IsVisible kind.toList)
    (hvalue : IsVisible value.toList) {cs : List Char} :
    (pragmaHere? kind value cs).isSome ↔ ∃ text, IsPragma kind value text ∧ text <+: cs := by
  simp only [pragmaHere?, afterWords?, Option.isSome_iff_exists, Option.bind_eq_bind,
    Option.bind_eq_some_iff, Option.some.injEq, after?_eq_some_iff]
  constructor
  · rintro ⟨rest, r₄, ⟨r₁, rfl, r₂, hskip₁, r₃, rfl, r₄, hskip₂, rfl⟩, r₅, rfl, hend⟩
    obtain ⟨gap₁, hgap₁, rfl⟩ := exists_gap_of_afterBlanks? hskip₁
    obtain ⟨gap₂, hgap₂, rfl⟩ := exists_gap_of_afterBlanks? hskip₂
    obtain ⟨gap₃, hgap₃, hr₅⟩ := exists_gap r₅
    rw [hend] at hr₅
    refine ⟨_, ⟨gap₁, gap₂, gap₃, hgap₁, hgap₂, hgap₃, rfl⟩, rest, ?_⟩
    simp only [hr₅, List.append_assoc]
  · rintro ⟨text, ⟨gap₁, gap₂, gap₃, hgap₁, hgap₂, hgap₃, rfl⟩, rest, rfl⟩
    have hsemicolon : IsVisible ([';'] ++ rest) := ⟨';', rest, rfl, by decide⟩
    simp only [List.append_assoc]
    exact ⟨rest, _, ⟨_, rfl, _, afterBlanks?_gap_append hgap₁.1 hgap₁.2 (hkind.append _), _, rfl, _,
      afterBlanks?_gap_append hgap₂.1 hgap₂.2 (hvalue.append _), rfl⟩, _, rfl,
      trimLeft_gap_append hgap₃ hsemicolon⟩

lemma isSome_encoderHere?_iff {cs : List Char} :
    (encoderHere? cs).isSome ↔ ∃ text, IsEncoderPragma text ∧ text <+: cs := by
  have hexperimental : IsVisible "experimental".toList := ⟨'e', _, rfl, by decide⟩
  have hversion : IsVisible "ABIEncoderV2".toList := ⟨'A', _, rfl, by decide⟩
  have habicoder : IsVisible "abicoder".toList := ⟨'a', _, rfl, by decide⟩
  have hv2 : IsVisible "v2".toList := ⟨'v', _, rfl, by decide⟩
  have hchoice : (encoderHere? cs).isSome ↔ (pragmaHere? "experimental" "ABIEncoderV2" cs).isSome ∨
      (pragmaHere? "abicoder" "v2" cs).isSome := by
    rw [encoderHere?]
    cases pragmaHere? "experimental" "ABIEncoderV2" cs <;> simp
  rw [hchoice, isSome_pragmaHere?_iff hexperimental hversion, isSome_pragmaHere?_iff habicoder hv2,
    ← exists_or]
  simp only [IsEncoderPragma, or_and_right]

/-! ## Searches -/

section Searches

variable {α : Type} {found? : List Char → Option α}

/-- A search finds something exactly when there is something at some place. -/
lemma isSome_first?_iff {cs : List Char} :
    (first? found? cs).isSome ↔ ∃ rest, rest <:+ cs ∧ (found? rest).isSome := by
  induction cs with
  | nil => simp [first?]
  | cons c cs ih =>
    rw [first?]
    cases hhere : found? (c :: cs) with
    | some x => simpa using ⟨c :: cs, List.suffix_refl _, by simp [hhere]⟩
    | none =>
      rw [ih]
      constructor
      · rintro ⟨rest, hrest, hfound⟩
        exact ⟨rest, hrest.trans (List.suffix_cons c cs), hfound⟩
      · rintro ⟨rest, hrest, hfound⟩
        rcases List.suffix_cons_iff.mp hrest with rfl | hrest
        · simp [hhere] at hfound
        · exact ⟨rest, hrest, hfound⟩

lemma first?_eq_none_iff {cs : List Char} :
    first? found? cs = none ↔ ∀ behind, behind <:+ cs → found? behind = none := by
  rw [← Option.not_isSome_iff_eq_none, isSome_first?_iff]
  simp

/-- What is found is what there is at the place with the longest rest. -/
lemma first?_eq_some_iff {cs : List Char} {x : α} :
    first? found? cs = some x ↔ ∃ behind, behind <:+ cs ∧ found? behind = some x ∧
      ∀ longer, longer <:+ cs → behind.length < longer.length → found? longer = none := by
  induction cs with
  | nil =>
    rw [first?]
    constructor
    · intro h
      refine ⟨[], List.suffix_refl _, h, fun longer hlonger hlt => ?_⟩
      rw [List.suffix_nil.mp hlonger] at hlt
      exact absurd hlt (Nat.lt_irrefl _)
    · rintro ⟨behind, hbehind, hfound, -⟩
      rwa [List.suffix_nil.mp hbehind] at hfound
  | cons c cs ih =>
    rw [first?]
    cases hhere : found? (c :: cs) with
    | some y =>
      constructor
      · intro h
        refine ⟨c :: cs, List.suffix_refl _, hhere.trans h, fun longer hlonger hlt => ?_⟩
        exact absurd hlonger.length_le (Nat.not_le.mpr hlt)
      · rintro ⟨behind, hbehind, hfound, hnone⟩
        rcases List.suffix_cons_iff.mp hbehind with rfl | hlater
        · exact hhere.symm.trans hfound
        · have hfirst := hnone _ (List.suffix_refl _) (Nat.lt_succ_of_le hlater.length_le)
          rw [hhere] at hfirst
          cases hfirst
    | none =>
      rw [ih]
      constructor
      · rintro ⟨behind, hbehind, hfound, hnone⟩
        refine ⟨behind, hbehind.trans (List.suffix_cons c cs), hfound, ?_⟩
        intro longer hlonger hlt
        rcases List.suffix_cons_iff.mp hlonger with rfl | hlater
        · exact hhere
        · exact hnone longer hlater hlt
      · rintro ⟨behind, hbehind, hfound, hnone⟩
        rcases List.suffix_cons_iff.mp hbehind with rfl | hlater
        · rw [hhere] at hfound
          cases hfound
        · exact ⟨behind, hlater, hfound, fun longer hlonger =>
            hnone longer (hlonger.trans (List.suffix_cons c cs))⟩

/-- A search goes on in the second part of a text, if the second part does not matter for what is
found in the first one. -/
lemma first?_append {front back : List Char} (hnil : found? [] = none)
    (hfront : ∀ place, place ≠ [] → place <:+ front → found? (place ++ back) = found? place) :
    first? found? (front ++ back) = (first? found? front).or (first? found? back) := by
  induction front with
  | nil => rw [List.nil_append, first?, hnil, Option.none_or]
  | cons c cs ih =>
    have hhere := hfront (c :: cs) (List.cons_ne_nil c cs) (List.suffix_refl _)
    have hcs := ih fun place hne hplace => hfront place hne (hplace.trans (List.suffix_cons c cs))
    rw [List.cons_append] at hhere ⊢
    rw [first?, first?, hhere, hcs]
    cases found? (c :: cs) <;> simp

/-- A search passes over characters with which nothing begins that is looked for. -/
lemma first?_append_of_none {front back : List Char}
    (hfront : ∀ c ∈ front, ∀ cs, found? (c :: cs) = none) :
    first? found? (front ++ back) = first? found? back := by
  induction front with
  | nil => rfl
  | cons c cs ih =>
    obtain ⟨hc, hcs⟩ := List.forall_mem_cons.mp hfront
    rw [List.cons_append, first?, hc]
    exact ih hcs

end Searches

/-! ## The encoder pragma in a source -/

/-- **The encoder pragma is found exactly in the sources that have it.** -/
theorem hasEncoder_iff (source : List Char) :
    hasEncoder source = true ↔ ∃ text, IsEncoderPragma text ∧ text <:+: source := by
  simp only [hasEncoder, isSome_first?_iff, isSome_encoderHere?_iff, List.infix_iff_prefix_suffix]
  constructor
  · rintro ⟨rest, hrest, text, htext, hfront⟩
    exact ⟨text, htext, rest, hfront, hrest⟩
  · rintro ⟨text, htext, rest, hfront, hrest⟩
    exact ⟨rest, hrest, text, htext, hfront⟩

/-! ## Adding the pragma -/

/-- The line that is added is a pragma, with one blank in each of its gaps. -/
lemma isEncoderPragma_encoderLine : IsEncoderPragma encoderLine.toList := by
  have hspace : [' '] ≠ [] ∧ IsGap [' '] := ⟨by decide, isGap_space⟩
  exact .inl ⟨[' '], [' '], [], hspace, hspace, isGap_nil, rfl⟩

/-- A pragma in a part of a source is in the source. -/
lemma hasEncoder_of_infix {part source : List Char} (hpart : part <:+: source)
    (h : hasEncoder part = true) : hasEncoder source = true := by
  obtain ⟨text, htext, hinside⟩ := (hasEncoder_iff part).mp h
  exact (hasEncoder_iff source).mpr ⟨text, htext, hinside.trans hpart⟩

lemma ensureEncoder_of_hasEncoder {source : List Char} (h : hasEncoder source = true) :
    ensureEncoder source = source :=
  if_pos h

lemma ensureEncoder_of_not_hasEncoder {source : List Char} (h : ¬hasEncoder source = true) :
    ensureEncoder source = source ++ '\n' :: encoderLine.toList ++ ['\n'] :=
  if_neg h

lemma hasEncoder_ensureEncoder (source : List Char) :
    hasEncoder (ensureEncoder source) = true := by
  by_cases h : hasEncoder source = true
  · rwa [ensureEncoder_of_hasEncoder h]
  · rw [ensureEncoder_of_not_hasEncoder h, hasEncoder_iff]
    exact ⟨_, isEncoderPragma_encoderLine, source ++ ['\n'], ['\n'], by simp⟩

/-- Nothing is added exactly to the sources that have the pragma. -/
lemma ensureEncoder_eq_self_iff (source : List Char) :
    ensureEncoder source = source ↔ hasEncoder source = true := by
  constructor
  · intro h
    by_contra hnone
    have hlength := congrArg List.length h
    rw [ensureEncoder_of_not_hasEncoder hnone] at hlength
    simp at hlength
  · exact ensureEncoder_of_hasEncoder

/-- **The pragma is added where it is missing, and only once.**  A source keeps its text at the
front; nothing is added exactly if an encoder pragma is somewhere in it; afterwards there is one in
any case, and then nothing is added again, whatever was put in front or behind in between. -/
theorem ensureEncoder_stable (source : List Char) :
    source <+: ensureEncoder source ∧
      (ensureEncoder source = source ↔ ∃ text, IsEncoderPragma text ∧ text <:+: source) ∧
      (∃ text, IsEncoderPragma text ∧ text <:+: ensureEncoder source) ∧
      ∀ front behind, ensureEncoder (front ++ ensureEncoder source ++ behind) =
        front ++ ensureEncoder source ++ behind := by
  have hadded := hasEncoder_ensureEncoder source
  refine ⟨?_, ?_, (hasEncoder_iff _).mp hadded, ?_⟩
  · by_cases h : hasEncoder source = true
    · rw [ensureEncoder_of_hasEncoder h]
    · rw [ensureEncoder_of_not_hasEncoder h, List.append_assoc]
      exact List.prefix_append _ _
  · rw [ensureEncoder_eq_self_iff, hasEncoder_iff]
  · intro front behind
    apply ensureEncoder_of_hasEncoder
    exact hasEncoder_of_infix ⟨front, behind, rfl⟩ hadded

end HoneypotAudit.Solidity.Pragma
