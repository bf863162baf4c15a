import HoneypotAudit.Proofs.Solidity.Literals
import HoneypotAudit.Proofs.Solidity.Pragma
import HoneypotAudit.Proofs.Text.Decimal
import HoneypotAudit.Solc.Compiler
import Mathlib.Data.List.Lex

/-!
# Versions in source texts

A version pragma asks for versions of the compiler with comparators, all of which have to admit a
version (`Comparator.admits`, `Satisfies`).  The version for a source is not chosen by comparing: it
is the first full version that stands in a source as it would in a version pragma, with any signs in
front (`NamesFirst`).

A version pragma stops the search where it begins with a full version, and is passed over where it
does not (`version?_around`).  So it is known when the chosen version is one that the pragma asks
for (`satisfies_version_iff`).
-/

namespace HoneypotAudit.Solidity.Pragma

open HoneypotAudit.Text

/-! ## Comparators -/

/-- A version of the compiler. -/
structure Version where
  major : Nat
  minor : Nat
  patch : Nat
  deriving Repr, DecidableEq

/-- The numbers of a version, the most significant one first. -/
def Version.numbers (v : Version) : List Nat :=
  [v.major, v.minor, v.patch]

/-- A version as it is written. -/
def Version.text (v : Version) : List Char :=
  decimal v.major ++ '.' :: decimal v.minor ++ '.' :: decimal v.patch

/-- How versions are compared with the one that a comparator names. -/
inductive Comparison where
  | exact
  | equal
  | caret
  | tilde
  | atLeast
  | above
  | atMost
  | below
  deriving Repr, DecidableEq

/-- The sign of a comparison. -/
def Comparison.sign : Comparison → String
  | .exact => ""
  | .equal => "="
  | .caret => "^"
  | .tilde => "~"
  | .atLeast => ">="
  | .above => ">"
  | .atMost => "<="
  | .below => "<"

/-- A condition on versions.  The last number may be left out. -/
structure Comparator where
  comparison : Comparison
  major : Nat
  minor : Nat
  patch : Option Nat
  deriving Repr, DecidableEq

namespace Comparator

/-- The numbers that a comparator names. -/
def numbers (c : Comparator) : List Nat :=
  c.major :: c.minor :: c.patch.toList

/-- The numbers of a comparator as they are written. -/
def numberText (c : Comparator) : List Char :=
  decimal c.major ++ '.' :: decimal c.minor ++ c.patch.elim [] fun p => '.' :: decimal p

/-- A comparator admits a version.  As many numbers are compared as the comparator names; a caret
keeps the first one of them that is not zero, and a tilde the first two. -/
def admits (c : Comparator) (v : Version) : Bool :=
  let known := v.numbers.take c.numbers.length
  match c.comparison with
  | .exact => known = c.numbers
  | .equal => known = c.numbers
  | .caret =>
    let kept := if c.major = 0 then 2 else 1
    decide (c.numbers ≤ known) && known.take kept = c.numbers.take kept
  | .tilde => decide (c.numbers ≤ known) && known.take 2 = c.numbers.take 2
  | .atLeast => c.numbers ≤ known
  | .above => c.numbers < known
  | .atMost => known ≤ c.numbers
  | .below => known < c.numbers

/-- A comparator admits the version that it names itself, unless it excludes it. -/
lemma admits_self {c : Comparator} {patch : Nat} (h : c.patch = some patch) :
    c.admits ⟨c.major, c.minor, patch⟩ = true ↔
      c.comparison ≠ .above ∧ c.comparison ≠ .below := by
  have hnumbers : (Version.mk c.major c.minor patch).numbers.take c.numbers.length =
      c.numbers := by
    simp [Version.numbers, numbers, h]
  unfold admits
  rw [hnumbers]
  cases c.comparison <;> simp

end Comparator

/-- A text is a version that all comparators admit. -/
def Satisfies (text : List Char) (comparators : List Comparator) : Prop :=
  ∃ v : Version, text = v.text ∧ ∀ c ∈ comparators, c.admits v = true

/-! ## Numbers in texts -/

/-- Digits of any script, at least one. -/
def IsNumber (ds : List Char) : Prop :=
  ds ≠ [] ∧ ∀ d ∈ ds, isDigit d = true

/-- A text goes on with something else than a digit. -/
def EndsNumber (rest : List Char) : Prop :=
  ∀ c ∈ rest.head?, isDigit c = false

lemma exists_zero_of_isDigit {c : Char} (h : isDigit c = true) :
    ∃ z ∈ digitZeros, ∃ k < 10, c.toNat = z + k := by
  obtain ⟨n, hn⟩ := Option.isSome_iff_exists.mp h
  simp only [digitValue?, Option.map_eq_some_iff] at hn
  obtain ⟨z, hz, -⟩ := hn
  have hrange := List.find?_some hz
  simp only [Bool.and_eq_true, decide_eq_true_eq] at hrange
  exact ⟨z, List.mem_of_find?_eq_some hz, c.toNat - z, by omega, by omega⟩

/-- Digits are no blanks. -/
lemma isBlank_of_isDigit {c : Char} (h : isDigit c = true) : isBlank c = false := by
  obtain ⟨z, hz, k, hk, hc⟩ := exists_zero_of_isDigit h
  have hall : ∀ z ∈ digitZeros, ∀ k < 10, inRanges blankRanges (z + k) = false := by
    decide +kernel
  rw [isBlank, hc]
  exact hall z hz k hk

lemma isDigit_of_isAsciiDigit {c : Char} (h : isAsciiDigit c = true) : isDigit c = true := by
  obtain ⟨hlow, hhigh⟩ := isAsciiDigit_iff.mp h
  rw [isDigit, digitValue?, digitZeros, List.find?_cons_of_pos (by simp [hlow, hhigh])]
  rfl

lemma isNumber_decimal (n : Nat) : IsNumber (decimal n) :=
  ⟨decimal_ne_nil n, fun _ hd => isDigit_of_isAsciiDigit (isAsciiDigit_of_mem_decimal hd)⟩

lemma digits?_eq_some_iff {cs ds rest : List Char} :
    digits? cs = some (ds, rest) ↔ IsNumber ds ∧ EndsNumber rest ∧ cs = ds ++ rest := by
  constructor
  · intro h
    rw [digits?] at h
    cases hfound : cs.takeWhile isDigit with
    | nil =>
      rw [hfound] at h
      cases h
    | cons d digits =>
      rw [hfound] at h
      obtain ⟨rfl, rfl⟩ := Prod.mk.inj (Option.some.inj h)
      refine ⟨⟨List.cons_ne_nil d digits, ?_⟩, ?_, ?_⟩
      · rw [← hfound]
        exact fun d hd => List.mem_takeWhile_imp hd
      · intro c hc
        have hstop := List.head?_dropWhile_not isDigit cs
        rw [Option.mem_def.mp hc] at hstop
        exact hstop
      · rw [← hfound, List.takeWhile_append_dropWhile]
  · rintro ⟨⟨hne, hds⟩, hrest, rfl⟩
    rw [digits?, takeWhile_append_of_stop hds hrest, dropWhile_append_of_stop hds hrest]
    obtain ⟨d, ds, rfl⟩ := List.exists_cons_of_ne_nil hne
    rfl

/-! ## Versions in texts -/

/-- A version of three numbers, in digits of any script. -/
def IsVersionText (version : List Char) : Prop :=
  ∃ major minor patch, IsNumber major ∧ IsNumber minor ∧ IsNumber patch ∧
    version = major ++ '.' :: minor ++ '.' :: patch

lemma endsNumber_cons {c : Char} (h : isDigit c = false) (cs : List Char) :
    EndsNumber (c :: cs) := by
  intro d hd
  obtain rfl := Option.some.inj hd
  exact h

lemma fullVersion?_eq_some_iff {cs version : List Char} :
    fullVersion? cs = some version ↔
      ∃ rest, IsVersionText version ∧ EndsNumber rest ∧ cs = version ++ rest := by
  simp only [fullVersion?, Option.bind_eq_bind, Option.bind_eq_some_iff, after?_eq_some_iff,
    Prod.exists, digits?_eq_some_iff, Option.some.injEq]
  constructor
  · rintro ⟨major, _, ⟨hmajor, -, rfl⟩, _, rfl, minor, _, ⟨hminor, -, rfl⟩, _, rfl, patch, rest,
      ⟨hpatch, hrest, rfl⟩, rfl⟩
    exact ⟨rest, ⟨major, minor, patch, hmajor, hminor, hpatch, rfl⟩, hrest, by simp⟩
  · rintro ⟨rest, ⟨major, minor, patch, hmajor, hminor, hpatch, rfl⟩, hrest, rfl⟩
    have hpoint : ∀ cs, EndsNumber ('.' :: cs) := endsNumber_cons (by decide)
    refine ⟨major, _, ⟨hmajor, hpoint _, ?_⟩, _, rfl, minor, _, ⟨hminor, hpoint _, rfl⟩, _, rfl,
      patch, rest, ⟨hpatch, hrest, rfl⟩, rfl⟩
    simp

/-- A text that names a version as a version pragma does, from its first word to the version. -/
def IsNaming (version text : List Char) : Prop :=
  ∃ gap₁ gap₂ signs gap₃, (gap₁ ≠ [] ∧ IsGap gap₁) ∧ (gap₂ ≠ [] ∧ IsGap gap₂) ∧
    (∀ c ∈ signs, isComparison c = true) ∧ IsGap gap₃ ∧ IsVersionText version ∧
    text = "pragma".toList ++
      (gap₁ ++ ("solidity".toList ++ (gap₂ ++ (signs ++ (gap₃ ++ version)))))

/-- A text begins with naming a version, of which no digit is left out. -/
def NamesVersion (version text : List Char) : Prop :=
  ∃ naming rest, IsNaming version naming ∧ EndsNumber rest ∧ text = naming ++ rest

/-- A version is the first one that is named in a text. -/
def NamesFirst (version text : List Char) : Prop :=
  ∃ behind, behind <:+ text ∧ NamesVersion version behind ∧
    ∀ longer, longer <:+ text → behind.length < longer.length → ∀ other, ¬NamesVersion other longer

/-- No version is named in a text. -/
def NamesNone (text : List Char) : Prop :=
  ∀ behind, behind <:+ text → ∀ version, ¬NamesVersion version behind

lemma isComparison_cases {c : Char} (h : isComparison c = true) :
    isBlank c = false ∧ isDigit c = false := by
  simp only [isComparison, Bool.or_eq_true, beq_iff_eq] at h
  rcases h with (((rfl | rfl) | rfl) | rfl) | rfl <;> decide

/-- Where a number begins, no gap and no sign does. -/
def BeginsNumber (text : List Char) : Prop :=
  ∃ d cs, text = d :: cs ∧ isDigit d = true

lemma BeginsNumber.isVisible {text : List Char} (h : BeginsNumber text) : IsVisible text := by
  obtain ⟨d, cs, rfl, hd⟩ := h
  exact ⟨d, cs, rfl, isBlank_of_isDigit hd⟩

lemma IsNumber.beginsNumber {number : List Char} (h : IsNumber number) (rest : List Char) :
    BeginsNumber (number ++ rest) := by
  obtain ⟨hne, hdigits⟩ := h
  obtain ⟨d, ds, rfl⟩ := List.exists_cons_of_ne_nil hne
  exact ⟨d, ds ++ rest, rfl, hdigits d List.mem_cons_self⟩

lemma IsVersionText.beginsNumber {version : List Char} (h : IsVersionText version)
    (rest : List Char) : BeginsNumber (version ++ rest) := by
  obtain ⟨major, minor, patch, hmajor, -, -, rfl⟩ := h
  simpa using hmajor.beginsNumber ('.' :: (minor ++ '.' :: (patch ++ rest)))

/-- No sign is in front of a gap or a number. -/
lemma not_isComparison_head {gap number : List Char} (hgap : IsGap gap)
    (hnumber : BeginsNumber number) : ∀ c ∈ (gap ++ number).head?, isComparison c = false := by
  intro c hc
  by_contra hsign
  obtain ⟨hblank, hdigit⟩ := isComparison_cases (Bool.not_eq_false _ ▸ hsign)
  cases gap with
  | nil =>
    obtain ⟨d, cs, rfl, hd⟩ := hnumber
    obtain rfl := Option.some.inj hc
    rw [hd] at hdigit
    cases hdigit
  | cons d ds =>
    obtain rfl := Option.some.inj hc
    rw [hgap d List.mem_cons_self] at hblank
    cases hblank

/-- Signs in front of a number are passed over, with the gaps around them. -/
lemma trimLeft_signs {signs gap number : List Char} (hsigns : ∀ c ∈ signs, isComparison c = true)
    (hgap : IsGap gap) (hnumber : BeginsNumber number) :
    trimLeft isBlank (trimLeft isComparison (trimLeft isBlank (signs ++ (gap ++ number)))) =
      number := by
  have hstop := not_isComparison_head hgap hnumber
  cases signs with
  | nil =>
    have hsign := not_isComparison_head isGap_nil hnumber
    have hfirst : trimLeft isComparison number = number :=
      dropWhile_append_of_stop (List.forall_mem_nil _) hsign
    rw [List.nil_append, trimLeft_gap_append hgap hnumber.isVisible, hfirst]
    exact trimLeft_gap_append isGap_nil hnumber.isVisible
  | cons c cs =>
    have hvisible : IsVisible (c :: cs ++ (gap ++ number)) :=
      ⟨c, _, rfl, (isComparison_cases (hsigns c List.mem_cons_self)).1⟩
    have hfirst : trimLeft isBlank (c :: cs ++ (gap ++ number)) = c :: cs ++ (gap ++ number) :=
      trimLeft_gap_append isGap_nil hvisible
    have hrest : trimLeft isComparison (c :: cs ++ (gap ++ number)) = gap ++ number :=
      dropWhile_append_of_stop hsigns hstop
    rw [hfirst, hrest, trimLeft_gap_append hgap hnumber.isVisible]

/-- In front of a number, the words of a pragma, signs and gaps are passed over. -/
lemma versionHere?_of_beginsNumber {gap₁ gap₂ signs gap₃ number : List Char}
    (hgap₁ : gap₁ ≠ [] ∧ IsGap gap₁) (hgap₂ : gap₂ ≠ [] ∧ IsGap gap₂)
    (hsigns : ∀ c ∈ signs, isComparison c = true) (hgap₃ : IsGap gap₃)
    (hnumber : BeginsNumber number) :
    versionHere? ("pragma".toList ++ (gap₁ ++ ("solidity".toList ++ (gap₂ ++
      (signs ++ (gap₃ ++ number)))))) = fullVersion? number := by
  have hsolidity : IsVisible "solidity".toList := ⟨'s', _, rfl, by decide⟩
  have hwords : afterWords? ["pragma", "solidity"] ("pragma".toList ++ (gap₁ ++
      ("solidity".toList ++ (gap₂ ++ (signs ++ (gap₃ ++ number)))))) =
      some (trimLeft isBlank (signs ++ (gap₃ ++ number))) := by
    simp only [afterWords?, after?_eq_some_iff.mpr rfl,
      afterBlanks?_gap_append hgap₁.1 hgap₁.2 (hsolidity.append _), afterBlanks?_append hgap₂,
      Option.bind_eq_bind, Option.bind_some]
  rw [versionHere?, hwords, Option.bind_eq_bind, Option.bind_some,
    trimLeft_signs hsigns hgap₃ hnumber]

/-- The version in a pragma with which a text begins is the one that it names. -/
lemma versionHere?_eq_some_iff {cs version : List Char} :
    versionHere? cs = some version ↔ NamesVersion version cs := by
  constructor
  · intro h
    simp only [versionHere?, afterWords?, Option.bind_eq_bind, Option.bind_eq_some_iff,
      after?_eq_some_iff, Option.some.injEq, fullVersion?_eq_some_iff] at h
    obtain ⟨_, ⟨_, rfl, _, hskip₁, _, rfl, tail, hskip₂, rfl⟩, rest, hversion, hrest, htail⟩ := h
    obtain ⟨gap₁, hgap₁, rfl⟩ := exists_gap_of_afterBlanks? hskip₁
    obtain ⟨gap₂, hgap₂, rfl⟩ := exists_gap_of_afterBlanks? hskip₂
    obtain ⟨gap₃, hgap₃, hsigns⟩ := exists_gap (trimLeft isComparison tail)
    rw [htail] at hsigns
    refine ⟨_, rest, ⟨gap₁, gap₂, tail.takeWhile isComparison, gap₃, hgap₁, hgap₂,
      fun c hc => List.mem_takeWhile_imp hc, hgap₃, hversion, rfl⟩, hrest, ?_⟩
    have hsplit : tail = tail.takeWhile isComparison ++ (gap₃ ++ (version ++ rest)) := by
      rw [← hsigns, trimLeft, List.takeWhile_append_dropWhile]
    simp only [List.append_assoc, ← hsplit]
  · rintro ⟨naming, rest, ⟨gap₁, gap₂, signs, gap₃, hgap₁, hgap₂, hsigns, hgap₃, hversion, rfl⟩,
      hrest, rfl⟩
    simp only [List.append_assoc]
    rw [versionHere?_of_beginsNumber hgap₁ hgap₂ hsigns hgap₃ (hversion.beginsNumber rest),
      fullVersion?_eq_some_iff]
    exact ⟨rest, hversion, hrest, rfl⟩

/-! ## The first version of a text -/

lemma versionHere?_eq_none_iff {cs : List Char} :
    versionHere? cs = none ↔ ∀ version, ¬NamesVersion version cs := by
  simp only [Option.eq_none_iff_forall_ne_some, ne_eq, versionHere?_eq_some_iff]

lemma version?_eq_some_iff {text version : List Char} :
    version? text = some version ↔ NamesFirst version text := by
  simp only [version?, first?_eq_some_iff, NamesFirst, versionHere?_eq_some_iff,
    versionHere?_eq_none_iff]

lemma version?_eq_none_iff {text : List Char} : version? text = none ↔ NamesNone text := by
  simp only [version?, first?_eq_none_iff, NamesNone, versionHere?_eq_none_iff]

/-- A text has its first letter nowhere else, and it is that of the word `pragma`. -/
def BeginsOnce (text : List Char) : Prop :=
  ∃ cs, text = 'p' :: cs ∧ 'p' ∉ cs

lemma IsGap.not_mem {gap : List Char} (h : IsGap gap) : 'p' ∉ gap :=
  fun hp => absurd (h 'p' hp) (by decide)

lemma IsNumber.not_mem {ds : List Char} (h : IsNumber ds) : 'p' ∉ ds :=
  fun hp => absurd (h.2 'p' hp) (by decide)

lemma IsNaming.beginsOnce {version naming : List Char} (h : IsNaming version naming) :
    BeginsOnce naming := by
  obtain ⟨gap₁, gap₂, signs, gap₃, hgap₁, hgap₂, hsigns, hgap₃,
    ⟨major, minor, patch, hmajor, hminor, hpatch, rfl⟩, rfl⟩ := h
  have hsign : 'p' ∉ signs := fun hp => absurd (hsigns 'p' hp) (by decide)
  refine ⟨"ragma".toList ++ (gap₁ ++ ("solidity".toList ++ (gap₂ ++ (signs ++ (gap₃ ++
    (major ++ '.' :: minor ++ '.' :: patch)))))), rfl, ?_⟩
  simp [hgap₁.2.not_mem, hgap₂.2.not_mem, hgap₃.not_mem, hsign, hmajor.not_mem, hminor.not_mem,
    hpatch.not_mem]

/-- What a text names at a place is named in front of the next place where a pragma may begin. -/
lemma namesVersion_append_iff {version place rest : List Char} (hplace : place ≠ []) :
    NamesVersion version (place ++ 'p' :: rest) ↔ NamesVersion version place := by
  constructor
  · rintro ⟨naming, tail, hnaming, htail, hsplit⟩
    obtain ⟨cs, rfl, hcs⟩ := hnaming.beginsOnce
    obtain ⟨c, place, rfl⟩ := List.exists_cons_of_ne_nil hplace
    rcases List.append_eq_append_iff.mp hsplit with
      ⟨inside, hinside, hrest⟩ | ⟨behind, hbehind, hrest⟩
    · cases inside with
      | nil => exact ⟨_, [], hnaming, by simp [EndsNumber], by simpa using hinside.symm⟩
      | cons d ds =>
        -- the letter would stand inside the naming
        obtain ⟨rfl, -⟩ := List.cons.inj hrest
        obtain ⟨-, rfl⟩ := List.cons.inj hinside
        exact absurd (by simp) hcs
    · refine ⟨_, behind, hnaming, ?_, hbehind⟩
      intro d hd
      apply htail
      rw [hrest]
      cases behind with
      | nil => cases hd
      | cons => exact hd
  · rintro ⟨naming, tail, hnaming, htail, rfl⟩
    refine ⟨naming, tail ++ 'p' :: rest, hnaming, ?_, List.append_assoc _ _ _⟩
    cases tail with
    | nil => exact endsNumber_cons (by decide) rest
    | cons => exact htail

/-! ## Version pragmas -/

/-- A text of comparators with blanks between them.  There may be blanks behind a sign, and behind
the last comparator. -/
inductive Spells : List Comparator → List Char → Prop
  | last (c : Comparator) {gap stop : List Char} (hgap : IsGap gap) (hstop : IsGap stop) :
      Spells [c] (c.comparison.sign.toList ++ (gap ++ (c.numberText ++ stop)))
  | cons (c : Comparator) {gap sep text : List Char} {cs : List Comparator} (hgap : IsGap gap)
      (hsep : sep ≠ [] ∧ IsGap sep) (h : Spells cs text) :
      Spells (c :: cs) (c.comparison.sign.toList ++ (gap ++ (c.numberText ++ (sep ++ text))))

/-- A version pragma that asks for what all of its comparators admit. -/
def IsVersionPragma (comparators : List Comparator) (text : List Char) : Prop :=
  ∃ gap₁ gap₂ body, (gap₁ ≠ [] ∧ IsGap gap₁) ∧ (gap₂ ≠ [] ∧ IsGap gap₂) ∧ Spells comparators body ∧
    text = "pragma".toList ++ (gap₁ ++ ("solidity".toList ++ (gap₂ ++ (body ++ [';']))))

section Pragmas

variable {c : Comparator} {cs : List Comparator} {text : List Char}

lemma isComparison_of_mem_sign {comparison : Comparison} {d : Char}
    (h : d ∈ comparison.sign.toList) : isComparison d = true := by
  have hall : comparison.sign.toList.all isComparison = true := by
    cases comparison <;> decide
  exact List.all_eq_true.mp hall d h

lemma not_mem_numberText (c : Comparator) : 'p' ∉ c.numberText := by
  obtain ⟨comparison, major, minor, patch⟩ := c
  have hdecimal : ∀ n, 'p' ∉ decimal n := fun n => (isNumber_decimal n).not_mem
  cases patch <;> simp [Comparator.numberText, hdecimal]

lemma Spells.not_mem (h : Spells cs text) : 'p' ∉ text := by
  have hsign : ∀ comparison : Comparison, 'p' ∉ comparison.sign.toList :=
    fun _ hp => absurd (isComparison_of_mem_sign hp) (by decide)
  induction h with
  | last c hgap hstop => simp [hsign, hgap.not_mem, not_mem_numberText, hstop.not_mem]
  | cons c hgap hsep _ ih => simp [hsign, hgap.not_mem, not_mem_numberText, hsep.2.not_mem, ih]

lemma IsVersionPragma.beginsOnce (h : IsVersionPragma cs text) : BeginsOnce text := by
  obtain ⟨gap₁, gap₂, body, hgap₁, hgap₂, hbody, rfl⟩ := h
  refine ⟨"ragma".toList ++ (gap₁ ++ ("solidity".toList ++ (gap₂ ++ (body ++ [';'])))), rfl, ?_⟩
  simp [hgap₁.2.not_mem, hgap₂.2.not_mem, hbody.not_mem]

/-- The first comparator stands in front, and something else than numbers and points behind it. -/
lemma Spells.exists_first (h : Spells (c :: cs) text) :
    ∃ gap behind, IsGap gap ∧ (∀ d ∈ behind.head?, isBlank d = true) ∧
      text = c.comparison.sign.toList ++ (gap ++ (c.numberText ++ behind)) := by
  have hhead : ∀ {gap : List Char}, IsGap gap → ∀ d ∈ gap.head?, isBlank d = true :=
    fun h d hd => h d (List.mem_of_mem_head? hd)
  cases h with
  | last _ hgap hstop => exact ⟨_, _, hgap, hhead hstop, rfl⟩
  | cons _ hgap hsep _ =>
    refine ⟨_, _, hgap, ?_, rfl⟩
    obtain ⟨d, sep, rfl⟩ := List.exists_cons_of_ne_nil hsep.1
    intro e he
    obtain rfl := Option.some.inj he
    exact hsep.2 d List.mem_cons_self

/-- The version that a comparator names, if it names all of its numbers. -/
def Comparator.named? (c : Comparator) : Option Version :=
  c.patch.map fun patch => ⟨c.major, c.minor, patch⟩

/-- A comparator names a full version where it has all three numbers. -/
lemma fullVersion?_numberText {behind : List Char}
    (hbehind : ∀ d ∈ behind.head?, isDigit d = false ∧ d ≠ '.') :
    fullVersion? (c.numberText ++ behind) = c.named?.map Version.text := by
  obtain ⟨comparison, major, minor, patch⟩ := c
  have hend : EndsNumber behind := fun d hd => (hbehind d hd).1
  cases patch with
  | some patch =>
    refine fullVersion?_eq_some_iff.mpr ⟨behind, ⟨decimal major, decimal minor, decimal patch,
      isNumber_decimal major, isNumber_decimal minor, isNumber_decimal patch, rfl⟩, hend, ?_⟩
    simp [Comparator.numberText, Version.text]
  | none =>
    have hmajor : digits? (decimal major ++ '.' :: (decimal minor ++ behind)) =
        some (decimal major, '.' :: (decimal minor ++ behind)) :=
      digits?_eq_some_iff.mpr ⟨isNumber_decimal major, endsNumber_cons (by decide) _, rfl⟩
    have hminor : digits? (decimal minor ++ behind) = some (decimal minor, behind) :=
      digits?_eq_some_iff.mpr ⟨isNumber_decimal minor, hend, rfl⟩
    have hpoint : after? ['.'] behind = none := by
      cases behind with
      | nil => rfl
      | cons d ds => exact if_neg (Ne.symm (hbehind d (by simp)).2)
    simp [Comparator.numberText, Comparator.named?, fullVersion?, hmajor, after?, hminor, hpoint]

lemma beginsNumber_numberText (c : Comparator) (behind : List Char) :
    BeginsNumber (c.numberText ++ behind) := by
  rw [Comparator.numberText, List.append_assoc, List.append_assoc]
  exact (isNumber_decimal c.major).beginsNumber _

/-- The version in a version pragma is that of the first comparator. -/
lemma versionHere?_of_isVersionPragma (h : IsVersionPragma (c :: cs) text) (rest : List Char) :
    versionHere? (text ++ rest) = c.named?.map Version.text := by
  obtain ⟨gap₁, gap₂, body, hgap₁, hgap₂, hbody, rfl⟩ := h
  obtain ⟨gap, behind, hgap, hbehind, rfl⟩ := hbody.exists_first
  simp only [List.append_assoc]
  rw [versionHere?_of_beginsNumber hgap₁ hgap₂ (fun _ => isComparison_of_mem_sign) hgap
    (beginsNumber_numberText c _)]
  apply fullVersion?_numberText
  intro d hd
  cases behind with
  | nil =>
    obtain rfl := Option.some.inj hd
    exact ⟨by decide, by decide⟩
  | cons e es =>
    obtain rfl := Option.some.inj hd
    have hblank := hbehind e rfl
    constructor
    · by_contra hdigit
      rw [isBlank_of_isDigit (Bool.not_eq_false _ ▸ hdigit)] at hblank
      cases hblank
    · rintro rfl
      exact absurd hblank (by decide)

/-- Nothing is named where the first letter is another one. -/
lemma versionHere?_eq_none {d : Char} (hd : d ≠ 'p') (ds : List Char) :
    versionHere? (d :: ds) = none := by
  rw [versionHere?_eq_none_iff]
  rintro version ⟨naming, rest, hnaming, -, hsplit⟩
  obtain ⟨tail, rfl, -⟩ := hnaming.beginsOnce
  exact hd (List.cons.inj hsplit).1

/-- **What a version pragma does to the search.**  The search finds what is named in front of the
pragma, or else the version with which the pragma begins, or else what is named behind the
pragma. -/
theorem version?_around (h : IsVersionPragma (c :: cs) text) (front rest : List Char) :
    version? (front ++ (text ++ rest)) =
      (version? front).or ((c.named?.map Version.text).or (version? rest)) := by
  have hhere := versionHere?_of_isVersionPragma h rest
  obtain ⟨tail, rfl, htail⟩ := h.beginsOnce
  have hskip : version? (tail ++ rest) = version? rest := by
    apply first?_append_of_none
    intro d hd ds
    apply versionHere?_eq_none
    rintro rfl
    exact htail hd
  have hfront : version? (front ++ ('p' :: tail ++ rest)) =
      (version? front).or (version? ('p' :: tail ++ rest)) := by
    apply first?_append rfl
    intro place hplace _
    apply Option.ext
    intro version
    simp only [versionHere?_eq_some_iff]
    exact namesVersion_append_iff hplace
  have hpragma : version? ('p' :: tail ++ rest) =
      (versionHere? ('p' :: tail ++ rest)).or (version? (tail ++ rest)) := by
    rw [List.cons_append, version?, first?]
    cases versionHere? ('p' :: (tail ++ rest)) <;> rfl
  rw [hfront, hpragma, hhere, hskip]

end Pragmas

/-! ## Versions that are asked for -/

lemma decimal_injective : Function.Injective decimal :=
  Function.LeftInverse.injective spelled_decimal

/-- A version is told by its text. -/
lemma Version.text_injective : Function.Injective Version.text := by
  rintro ⟨major, minor, patch⟩ ⟨major', minor', patch'⟩ h
  have hsplit : ∀ n cs, digits? (decimal n ++ '.' :: cs) = some (decimal n, '.' :: cs) := by
    intro n cs
    exact digits?_eq_some_iff.mpr ⟨isNumber_decimal n, endsNumber_cons (by decide) cs, rfl⟩
  have hfirst := congrArg digits? h
  simp only [Version.text, List.append_assoc, List.cons_append, hsplit, Option.some.injEq,
    Prod.mk.injEq, List.cons.injEq, true_and] at hfirst
  obtain ⟨hmajor, hrest⟩ := hfirst
  have hsecond := congrArg digits? hrest
  simp only [hsplit, Option.some.injEq, Prod.mk.injEq, List.cons.injEq, true_and] at hsecond
  obtain ⟨hminor, hpatch⟩ := hsecond
  rw [decimal_injective hmajor, decimal_injective hminor, decimal_injective hpatch]

lemma satisfies_text_iff {v : Version} {comparators : List Comparator} :
    Satisfies v.text comparators ↔ ∀ c ∈ comparators, c.admits v = true := by
  constructor
  · rintro ⟨w, hw, hadmits⟩
    rwa [Version.text_injective hw]
  · intro hadmits
    exact ⟨v, rfl, hadmits⟩

/-- The version that is found for a source with a version pragma, or used if none is found, is one
that the pragma asks for. -/
inductive FindsAdmitted (front : List Char) (c : Comparator) (cs : List Comparator)
    (rest fallback : List Char) : Prop
  /-- What is named in front of the pragma is admitted. -/
  | inFront {version : List Char} (hfront : NamesFirst version front)
      (hadmits : Satisfies version (c :: cs))
  /-- The pragma begins with a full version that it admits. -/
  | first {v : Version} (hfront : NamesNone front) (hnamed : c.named? = some v)
      (hself : c.comparison ≠ .above ∧ c.comparison ≠ .below)
      (hothers : ∀ d ∈ cs, d.admits v = true)
  /-- The pragma does not begin with a full version, and what is named behind it is admitted. -/
  | behind {version : List Char} (hfront : NamesNone front) (hnamed : c.named? = none)
      (hrest : NamesFirst version rest) (hadmits : Satisfies version (c :: cs))
  /-- Nothing is named, and the version that is used then is admitted. -/
  | fallback (hfront : NamesNone front) (hnamed : c.named? = none) (hrest : NamesNone rest)
      (hadmits : Satisfies fallback (c :: cs))

section Search

variable {c : Comparator} {cs : List Comparator} {front text rest fallback : List Char}

lemma Comparator.admits_of_named? {v : Version} (h : c.named? = some v) :
    c.admits v = true ↔ c.comparison ≠ .above ∧ c.comparison ≠ .below := by
  obtain ⟨patch, hpatch, rfl⟩ := Option.map_eq_some_iff.mp h
  exact admits_self hpatch

lemma namesFirst_unique {version other : List Char} (h : NamesFirst version text)
    (h' : NamesFirst other text) : version = other :=
  Option.some.inj ((version?_eq_some_iff.mpr h).symm.trans (version?_eq_some_iff.mpr h'))

lemma NamesNone.not_namesFirst (h : NamesNone text) (version : List Char) :
    ¬NamesFirst version text := by
  rintro ⟨behind, hsuffix, hnames, -⟩
  exact h behind hsuffix version hnames

/-- What is named in front of the pragma decides. -/
lemma findsAdmitted_iff_of_inFront {version : List Char} (hfront : NamesFirst version front) :
    FindsAdmitted front c cs rest fallback ↔ Satisfies version (c :: cs) := by
  constructor
  · intro h
    cases h with
    | inFront hother hadmits => rwa [namesFirst_unique hfront hother]
    | first hnone | behind hnone | fallback hnone => exact absurd hfront (hnone.not_namesFirst _)
  · exact .inFront hfront

/-- Or else the full version with which the pragma begins, which its own comparator may exclude. -/
lemma findsAdmitted_iff_of_named {v : Version} (hfront : NamesNone front)
    (hnamed : c.named? = some v) :
    FindsAdmitted front c cs rest fallback ↔ Satisfies v.text (c :: cs) := by
  rw [satisfies_text_iff, List.forall_mem_cons, Comparator.admits_of_named? hnamed]
  constructor
  · intro h
    cases h with
    | inFront hother => exact absurd hother (hfront.not_namesFirst _)
    | first _ hv hself hothers =>
      obtain rfl := Option.some.inj (hnamed.symm.trans hv)
      exact ⟨hself, hothers⟩
    | behind _ hnone | fallback _ hnone =>
      rw [hnamed] at hnone
      cases hnone
  · rintro ⟨hself, hothers⟩
    exact .first hfront hnamed hself hothers

/-- Or else what is named behind the pragma. -/
lemma findsAdmitted_iff_of_behind {version : List Char} (hfront : NamesNone front)
    (hnamed : c.named? = none) (hrest : NamesFirst version rest) :
    FindsAdmitted front c cs rest fallback ↔ Satisfies version (c :: cs) := by
  constructor
  · intro h
    cases h with
    | inFront hother => exact absurd hother (hfront.not_namesFirst _)
    | first _ hv => exact absurd (hnamed.symm.trans hv) (by simp)
    | behind _ _ hother hadmits => rwa [namesFirst_unique hrest hother]
    | fallback _ _ hnone => exact absurd hrest (hnone.not_namesFirst _)
  · exact .behind hfront hnamed hrest

/-- Or else the version that is used where none is found. -/
lemma findsAdmitted_iff_of_none (hfront : NamesNone front) (hnamed : c.named? = none)
    (hrest : NamesNone rest) :
    FindsAdmitted front c cs rest fallback ↔ Satisfies fallback (c :: cs) := by
  constructor
  · intro h
    cases h with
    | inFront hother => exact absurd hother (hfront.not_namesFirst _)
    | first _ hv => exact absurd (hnamed.symm.trans hv) (by simp)
    | behind _ _ hother => exact absurd hother (hrest.not_namesFirst _)
    | fallback _ _ _ hadmits => exact hadmits
  · exact .fallback hfront hnamed hrest

/-- The version for a source with a pragma is one that the pragma asks for in four cases, and in no
others. -/
theorem satisfies_version_iff (h : IsVersionPragma (c :: cs) text) :
    Satisfies ((version? (front ++ (text ++ rest))).getD fallback) (c :: cs) ↔
      FindsAdmitted front c cs rest fallback := by
  rw [version?_around h]
  cases hfront : version? front with
  | some version => exact (findsAdmitted_iff_of_inFront (version?_eq_some_iff.mp hfront)).symm
  | none =>
    have hfree := version?_eq_none_iff.mp hfront
    cases hnamed : c.named? with
    | some v => exact (findsAdmitted_iff_of_named hfree hnamed).symm
    | none =>
      cases hrest : version? rest with
      | some version =>
        exact (findsAdmitted_iff_of_behind hfree hnamed (version?_eq_some_iff.mp hrest)).symm
      | none =>
        exact (findsAdmitted_iff_of_none hfree hnamed (version?_eq_none_iff.mp hrest)).symm

end Search

end HoneypotAudit.Solidity.Pragma
