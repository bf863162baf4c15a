import HoneypotAudit.Abi.TypeText
import HoneypotAudit.Proofs.Text.Decimal
import HoneypotAudit.Proofs.Text.Spans

/-!
# Reading and writing type texts

`TypeText.parse` and `TypeText.text` undo each other.  Whatever is read is spelled by the text it
was read from (`text_of_parse`), tuples and all.  The other way round, a basic type is read from its
spelling (`parse_text`) if its base is made of letters and its numbers are not zero.

The first statement goes through the grammar from its small parts to its large ones: each attempt
that finds something has taken its spelling off the text (`Takes`).  Where an attempt failed does
not matter for either statement, so the attempts are first reduced to what they find.
-/

namespace HoneypotAudit.Abi.TypeText

open HoneypotAudit.Text

variable {α β : Type}

/-! ## What attempts find -/

namespace Attempt

@[simp] lemma found_succeed (x : α) (c : Cursor) : (succeed x c).found = some (x, c) := rfl

@[simp] lemma found_fail (c : Cursor) : (fail c : Attempt α).found = none := rfl

@[simp] lemma found_andThen (a : Attempt α) (next : α → Cursor → Attempt β) :
    (a.andThen next).found = a.found.bind fun p => (next p.1 p.2).found := by
  unfold andThen
  split <;> simp [*]

@[simp] lemma found_named (c : Cursor) (a : Attempt α) : (named c a).found = a.found := by
  unfold named
  split <;> simp [*]

@[simp] lemma found_orElse (a : Attempt α) (other : Unit → Attempt α) :
    (a.orElse other).found = a.found.or (other ()).found := by
  unfold orElse
  split <;> simp [*]

/-- An optional part is found as such, or not at all. -/
lemma found_optional (c : Cursor) (attempt : Cursor → Attempt α) :
    (optional c attempt).found =
      if c.rest.isEmpty then some (none, c)
      else some (((attempt c).found.map fun p => (some p.1, p.2)).getD (none, c)) := by
  unfold optional
  split
  · simp [*]
  · simp only [*]
    split <;> simp [*]

end Attempt

/-! ## Soundness -/

/-- What an attempt finds at a place, it takes off the text there in its spelling. -/
def Takes (a : Attempt α) (c : Cursor) (spell : α → List Char) : Prop :=
  ∀ x c', a.found = some (x, c') → c.rest = spell x ++ c'.rest

lemma takes_optional {c : Cursor} {attempt : Cursor → Attempt α} {spell : α → List Char}
    (h : Takes (attempt c) c spell) :
    Takes (Attempt.optional c attempt) c fun o => (o.map spell).getD [] := by
  intro o c' hfound
  rw [Attempt.found_optional] at hfound
  split at hfound
  · obtain ⟨rfl, rfl⟩ := by simpa using hfound
    rfl
  · cases ha : (attempt c).found with
    | none =>
      obtain ⟨rfl, rfl⟩ := by simpa [ha] using hfound
      rfl
    | some p =>
      obtain ⟨rfl, rfl⟩ := by simpa [ha] using hfound
      exact h _ _ ha

lemma takes_char (ch : Char) (c : Cursor) : Takes (char ch c) c fun _ => [ch] := by
  intro x c' hfound
  unfold char at hfound
  split at hfound
  next d rest hrest =>
    split at hfound
    next hd =>
      obtain ⟨-, rfl⟩ := by simpa using hfound
      simp [hrest, hd]
    next => simp at hfound
  next => simp at hfound

/-- A number is found where a digit other than zero stands, and is what the digits there spell. -/
lemma found_number (c : Cursor) :
    (number c).found = (c.rest.head?.filter fun d => isAsciiDigit d && d != '0').map fun _ =>
      (spelled (c.rest.takeWhile isAsciiDigit), c.skip isAsciiDigit) := by
  unfold number
  split
  next d rest hrest =>
    simp only [hrest, List.head?_cons, Option.filter_some]
    split
    next h => simp [h, Attempt.succeed, spelled]
    next h => simp [h, Attempt.fail]
  next hrest => simp [hrest, Attempt.fail]

lemma takes_number (c : Cursor) : Takes (number c) c decimal := by
  intro n c' hfound
  rw [found_number, Option.map_eq_some_iff] at hfound
  obtain ⟨d, hd, hfound⟩ := hfound
  obtain ⟨hd, hfirst⟩ := Option.filter_eq_some_iff.mp hd
  obtain ⟨hdigit, hzero⟩ : isAsciiDigit d = true ∧ d ≠ '0' := by simpa using hfirst
  obtain ⟨rfl, rfl⟩ := Prod.mk.inj hfound
  have hhead : (c.rest.takeWhile isAsciiDigit).head? = some d := by
    rw [List.head?_takeWhile, hd]
    simp [hdigit]
  have hne : c.rest.takeWhile isAsciiDigit ≠ [] := fun h => by simp [h] at hhead
  rw [decimal_spelled hne (fun x hx => List.mem_takeWhile_imp hx) (by simpa [hhead] using hzero)]
  exact (List.takeWhile_append_dropWhile).symm

lemma takes_base (c : Cursor) : Takes (base c) c String.toList := by
  intro b c' hfound
  unfold base at hfound
  split at hfound
  · simp at hfound
  next letters _ =>
    obtain ⟨rfl, rfl⟩ := by simpa using hfound
    simp [Cursor.skip]

lemma takes_sizePair (c : Cursor) : Takes (sizePair c) c fun s => sizeText (some s) := by
  intro s c' hfound
  simp only [sizePair, Attempt.found_named, Attempt.found_andThen, Option.bind_eq_some_iff,
    Attempt.found_succeed, Option.some.injEq, Prod.exists, Prod.mk.injEq] at hfound
  obtain ⟨a, c₁, ha, ⟨⟩, c₂, hx, b, c₃, hb, rfl, rfl⟩ := hfound
  rw [takes_number c _ _ ha, takes_char 'x' c₁ _ _ hx, takes_number c₂ _ _ hb]
  simp [sizeText]

lemma takes_size (c : Cursor) : Takes (size c) c fun s => sizeText (some s) := by
  intro s c' hfound
  simp only [size, Attempt.found_named, Attempt.found_orElse, Option.or_eq_some_iff] at hfound
  rcases hfound with hpair | ⟨-, hone⟩
  · exact takes_sizePair c _ _ hpair
  · simp only [Attempt.found_andThen, Option.bind_eq_some_iff, Attempt.found_succeed,
      Option.some.injEq, Prod.exists, Prod.mk.injEq] at hone
    obtain ⟨n, c₁, hn, rfl, rfl⟩ := hone
    exact takes_number c _ _ hn

lemma takes_dim (c : Cursor) : Takes (dim c) c dimText := by
  intro d c' hfound
  simp only [dim, fixedDim, openDim, Attempt.found_orElse, Attempt.found_named,
    Attempt.found_andThen, Option.or_eq_some_iff, Option.bind_eq_some_iff, Attempt.found_succeed,
    Option.some.injEq, Prod.exists, Prod.mk.injEq] at hfound
  rcases hfound with ⟨⟨⟩, c₁, hopen, n, c₂, hn, ⟨⟩, c₃, hclose, rfl, rfl⟩ |
    ⟨-, ⟨⟩, c₁, hopen, ⟨⟩, c₂, hclose, rfl, rfl⟩
  · rw [takes_char '[' c _ _ hopen, takes_number c₁ _ _ hn, takes_char ']' c₂ _ _ hclose]
    simp [dimText]
  · rw [takes_char '[' c _ _ hopen, takes_char ']' c₁ _ _ hclose]
    simp [dimText]

/-- Parts that are taken one by one, as far as they go, take their spellings one behind the
other. -/
lemma takes_several {c : Cursor} {attempt : Cursor → Attempt α} {spell : α → List Char}
    {more : Cursor → Attempt (List α)} {next : Option α → Cursor → Attempt (List α)}
    (hnone : ∀ c, next none c = .succeed [] c)
    (hsome : ∀ x c, next (some x) c = (more c).andThen fun xs c₁ => .succeed (x :: xs) c₁)
    (hfirst : Takes (attempt c) c spell)
    (hmore : ∀ c, Takes (more c) c fun xs => xs.flatMap spell) :
    Takes ((Attempt.optional c attempt).andThen next) c fun xs => xs.flatMap spell := by
  intro xs c' hfound
  simp only [Attempt.found_andThen, Option.bind_eq_some_iff, Prod.exists] at hfound
  obtain ⟨o, c₁, ho, hrest⟩ := hfound
  have htaken := takes_optional hfirst _ _ ho
  cases o with
  | none =>
    obtain ⟨rfl, rfl⟩ := by simpa [hnone] using hrest
    simpa using htaken
  | some x =>
    simp only [hsome, Attempt.found_andThen, Option.bind_eq_some_iff, Attempt.found_succeed,
      Option.some.injEq, Prod.exists, Prod.mk.injEq] at hrest
    obtain ⟨xs, c₂, hxs, rfl, rfl⟩ := hrest
    rw [htaken, hmore c₁ _ _ hxs]
    simp

lemma takes_dimsFrom (fuel : Nat) (c : Cursor) :
    Takes (dimsFrom fuel c) c fun ds => ds.flatMap dimText := by
  induction fuel generalizing c with
  | zero =>
    intro ds c' hfound
    obtain ⟨rfl, rfl⟩ := by simpa [dimsFrom] using hfound
    rfl
  | succ fuel ih =>
    rw [dimsFrom]
    exact takes_several (fun _ => rfl) (fun _ _ => rfl) (takes_dim c) ih

lemma takes_basicType (c : Cursor) : Takes (basicType c) c text := by
  intro t c' hfound
  simp only [basicType, dims, Attempt.found_named, Attempt.found_andThen, Option.bind_eq_some_iff,
    Attempt.found_succeed, Option.some.injEq, Prod.exists, Prod.mk.injEq] at hfound
  obtain ⟨b, c₁, hb, s, c₂, hs, ds, c₃, hds, rfl, rfl⟩ := hfound
  rw [takes_base c _ _ hb, takes_optional (takes_size c₁) _ _ hs, takes_dimsFrom _ c₂ _ _ hds]
  cases s <;> simp [text, sizeText]

lemma textOfItems_cons (t : TypeText) (ts : List TypeText) :
    textOfItems (t :: ts) = text t ++ ts.flatMap fun t => ',' :: text t := by
  induction ts generalizing t with
  | nil => simp [textOfItems]
  | cons u us ih => simp [textOfItems, ih]

section Nested

variable {fuel : Nat} (htype : ∀ c, Takes (typeAt fuel c) c text)
include htype

lemma takes_tuple
    (hmore : ∀ c, Takes (moreTypes fuel c) c fun ts => ts.flatMap fun t => ',' :: text t)
    (c : Cursor) : Takes (tupleAt (fuel + 1) c) c text := by
  intro t c' hfound
  simp only [tupleAt, dims, Attempt.found_named, Attempt.found_andThen, Option.bind_eq_some_iff,
    Attempt.found_succeed, Option.some.injEq, Prod.exists, Prod.mk.injEq] at hfound
  obtain ⟨⟨⟩, c₁, hopen, t, c₂, ht, ts, c₃, hts, hfound⟩ := hfound
  obtain ⟨⟨⟩, c₄, hclose, ds, c₅, hds, rfl, rfl⟩ := hfound
  rw [takes_char '(' c _ _ hopen, htype c₁ _ _ ht, hmore c₂ _ _ hts,
    takes_char ')' c₃ _ _ hclose, takes_dimsFrom _ c₄ _ _ hds]
  simp [text, textOfItems_cons]

lemma takes_further (c : Cursor) :
    Takes (.named c ((char ',' c).andThen fun _ c₁ => typeAt fuel c₁)) c fun t =>
      ',' :: text t := by
  intro t c' hfound
  simp only [Attempt.found_named, Attempt.found_andThen, Option.bind_eq_some_iff,
    Prod.exists] at hfound
  obtain ⟨⟨⟩, c₁, hcomma, ht⟩ := hfound
  rw [takes_char ',' c _ _ hcomma, htype c₁ _ _ ht]
  rfl

end Nested

/-- A type, a tuple and the further types of a tuple take their spellings, whatever the fuel. -/
lemma takes_types (fuel : Nat) :
    (∀ c, Takes (typeAt fuel c) c text) ∧ (∀ c, Takes (tupleAt fuel c) c text) ∧
      ∀ c, Takes (moreTypes fuel c) c fun ts => ts.flatMap fun t => ',' :: text t := by
  induction fuel with
  | zero =>
    refine ⟨fun c t c' h => by simp [typeAt] at h, fun c t c' h => by simp [tupleAt] at h, ?_⟩
    intro c ts c' hfound
    obtain ⟨rfl, rfl⟩ := by simpa [moreTypes] using hfound
    rfl
  | succ fuel ih =>
    obtain ⟨htype, htuple, hmore⟩ := ih
    refine ⟨fun c t c' hfound => ?_, takes_tuple htype hmore, fun c => ?_⟩
    · simp only [typeAt, Attempt.found_named, Attempt.found_orElse, Option.or_eq_some_iff] at hfound
      rcases hfound with h | ⟨-, h⟩
      · exact htuple c _ _ h
      · exact takes_basicType c _ _ h
    · rw [moreTypes]
      exact takes_several (fun _ => rfl) (fun _ _ => rfl) (takes_further htype c) hmore

/-- **What is read is spelled by the text.** -/
theorem text_of_parse {room : Nat} {cs : List Char} {t : TypeText} (h : parse room cs = .ok t) :
    text t = cs := by
  unfold parse at h
  simp only at h
  split at h
  · cases h
  · split at h
    · cases h
    next t' behind hfound =>
      split at h
      next hempty =>
        cases h
        have htaken := (takes_types _).1 _ _ _ hfound
        rw [List.isEmpty_iff.mp hempty] at htaken
        simpa using htaken.symm
      next => cases h

/-! ## Completeness -/

/-- An attempt finds something and leaves a rest behind it. -/
def Finds (a : Attempt α) (x : α) (rest : List Char) : Prop :=
  ∃ position, a.found = some (x, ⟨position, rest⟩)

/-- A text does not go on with a character of a class. -/
def StopsAt (p : Char → Bool) (rest : List Char) : Prop :=
  ∀ c ∈ rest.head?, p c = false

lemma stopsAt_cons {p : Char → Bool} (c : Char) (rest : List Char) (hc : p c = false) :
    StopsAt p (c :: rest) := by
  simpa [StopsAt] using hc

/-- A run of a class in front of a text that does not go on with the class. -/
lemma span_append {p : Char → Bool} {run rest : List Char} (hrun : ∀ c ∈ run, p c = true)
    (hrest : StopsAt p rest) :
    (run ++ rest).takeWhile p = run ∧ (run ++ rest).dropWhile p = rest :=
  ⟨takeWhile_append_of_stop hrun hrest, dropWhile_append_of_stop hrun hrest⟩

lemma finds_number {n : Nat} (hn : 0 < n) {rest : List Char} (hrest : StopsAt isAsciiDigit rest)
    (position : Nat) : Finds (number ⟨position, decimal n ++ rest⟩) n rest := by
  obtain ⟨htake, hdrop⟩ := span_append (fun _ => isAsciiDigit_of_mem_decimal) hrest
  obtain ⟨d, ds, hds⟩ := List.exists_cons_of_ne_nil (decimal_ne_nil n)
  have hdigit : isAsciiDigit d = true := isAsciiDigit_of_mem_decimal (n := n) (by simp [hds])
  have hzero : d ≠ '0' := by simpa [hds] using head?_decimal hn
  have hfirst : (decimal n ++ rest).head?.filter (fun d => isAsciiDigit d && d != '0')
      = some d := by
    simp [hds, hdigit, hzero]
  refine ⟨position + (decimal n).length, ?_⟩
  rw [found_number, hfirst, Option.map_some, Cursor.skip, htake, hdrop, spelled_decimal]

/-- No number begins where there is no digit. -/
lemma found_number_of_stopsAt {rest : List Char} (h : StopsAt isAsciiDigit rest)
    (position : Nat) : (number ⟨position, rest⟩).found = none := by
  have hnone : rest.head?.filter (fun d => isAsciiDigit d && d != '0') = none := by
    rw [Option.filter_eq_none_iff]
    intro d hd
    simp [h d hd]
  rw [found_number, hnone, Option.map_none]

lemma finds_char (ch : Char) (rest : List Char) (position : Nat) :
    Finds (char ch ⟨position, ch :: rest⟩) () rest :=
  ⟨position + 1, by simp [char]⟩

/-- A character is not found where the text goes on with another one, or not at all. -/
lemma found_char_of_ne {ch : Char} {rest : List Char} (h : rest.head? ≠ some ch)
    (position : Nat) : (char ch ⟨position, rest⟩).found = none := by
  cases rest with
  | nil => rfl
  | cons c rest =>
    have hc : c ≠ ch := by simpa using h
    simp [char, hc]

lemma finds_dim {d : Option Nat} (hd : d ≠ some 0) (rest : List Char) (position : Nat) :
    Finds (dim ⟨position, dimText d ++ rest⟩) d rest := by
  cases d with
  | none =>
    obtain ⟨p₁, hopen⟩ := finds_char '[' (']' :: rest) position
    obtain ⟨p₂, hclose⟩ := finds_char ']' rest p₁
    have hnumber := found_number_of_stopsAt (stopsAt_cons ']' rest (by decide)) p₁
    refine ⟨p₂, ?_⟩
    simp [dim, fixedDim, openDim, dimText, hopen, hclose, hnumber]
  | some n =>
    have hn : 0 < n := Nat.pos_of_ne_zero fun h => hd (by rw [h])
    obtain ⟨p₁, hopen⟩ := finds_char '[' (decimal n ++ ']' :: rest) position
    obtain ⟨p₂, hnumber⟩ := finds_number hn (stopsAt_cons ']' rest (by decide)) p₁
    obtain ⟨p₃, hclose⟩ := finds_char ']' rest p₂
    refine ⟨p₃, ?_⟩
    simp [dim, fixedDim, dimText, hopen, hclose, hnumber]

lemma dimText_ne_nil (d : Option Nat) : dimText d ≠ [] := by
  cases d <;> simp [dimText]

lemma finds_dimsFrom {ds : List (Option Nat)} (hds : ∀ d ∈ ds, d ≠ some 0) (fuel : Nat)
    (hfuel : ds.length ≤ fuel) (position : Nat) :
    Finds (dimsFrom fuel ⟨position, ds.flatMap dimText⟩) ds [] := by
  induction ds generalizing fuel position with
  | nil =>
    cases fuel with
    | zero => exact ⟨position, by simp [dimsFrom]⟩
    | succ fuel => exact ⟨position, by simp [dimsFrom, Attempt.found_optional]⟩
  | cons d ds ih =>
    obtain ⟨fuel, rfl⟩ : ∃ k, fuel = k + 1 := ⟨fuel - 1, by simp at hfuel; omega⟩
    obtain ⟨p₁, hdim⟩ := finds_dim (hds d (by simp)) (ds.flatMap dimText) position
    obtain ⟨p₂, hrest⟩ := ih (fun x hx => hds x (by simp [hx])) fuel (by simpa using hfuel) p₁
    refine ⟨p₂, ?_⟩
    simp [dimsFrom, Attempt.found_optional, dimText_ne_nil, hdim, hrest]

/-- Dimensions begin with a bracket. -/
lemma stopsAt_dims {p : Char → Bool} (hp : p '[' = false) (ds : List (Option Nat)) :
    StopsAt p (ds.flatMap dimText) := by
  cases ds with
  | nil => simp [StopsAt]
  | cons d ds => cases d <;> simpa [StopsAt, dimText] using hp

/-- The numbers of a size are above zero. -/
def PositiveSize : Option Size → Prop
  | none => True
  | some (.one n) => 0 < n
  | some (.pair a b) => 0 < a ∧ 0 < b

lemma finds_size {s : Option Size} (hs : PositiveSize s) (ds : List (Option Nat))
    (position : Nat) :
    Finds (Attempt.optional ⟨position, sizeText s ++ ds.flatMap dimText⟩ size) s
      (ds.flatMap dimText) := by
  have hdigit : StopsAt isAsciiDigit (ds.flatMap dimText) := stopsAt_dims (by decide) ds
  have hcross : (ds.flatMap dimText).head? ≠ some 'x' := fun h => by
    simpa using stopsAt_dims (p := (· == 'x')) (by decide) ds 'x' h
  match s, hs with
  | none, _ =>
    have hnone : (size ⟨position, ds.flatMap dimText⟩).found = none := by
      simp [size, sizePair, found_number_of_stopsAt hdigit]
    exact ⟨position, by simp [sizeText, Attempt.found_optional, hnone]⟩
  | some (.one n), hn =>
    obtain ⟨p₁, hnumber⟩ := finds_number hn hdigit position
    have hchar := found_char_of_ne hcross p₁
    refine ⟨p₁, ?_⟩
    simp [sizeText, Attempt.found_optional, size, sizePair, hnumber, hchar, decimal_ne_nil]
  | some (.pair a b), ⟨ha, hb⟩ =>
    obtain ⟨p₁, hfirst⟩ :=
      finds_number ha (stopsAt_cons 'x' (decimal b ++ ds.flatMap dimText) (by decide)) position
    obtain ⟨p₂, hchar⟩ := finds_char 'x' (decimal b ++ ds.flatMap dimText) p₁
    obtain ⟨p₃, hsecond⟩ := finds_number hb hdigit p₂
    refine ⟨p₃, ?_⟩
    simp [sizeText, Attempt.found_optional, size, sizePair, hfirst, hchar, hsecond, decimal_ne_nil]

/-- A basic type that is read as it is spelled. -/
structure Spellable (base : String) (size : Option Size) (dims : List (Option Nat)) : Prop where
  nonempty : base.toList ≠ []
  letters : ∀ c ∈ base.toList, isAsciiLetter c = true
  size : PositiveSize size
  dims : ∀ d ∈ dims, d ≠ some 0

lemma finds_base {b : String} (hne : b.toList ≠ [])
    (hletters : ∀ c ∈ b.toList, isAsciiLetter c = true) {rest : List Char}
    (hrest : StopsAt isAsciiLetter rest) (position : Nat) :
    Finds (base ⟨position, b.toList ++ rest⟩) b rest := by
  obtain ⟨htake, hdrop⟩ := span_append hletters hrest
  refine ⟨position + b.toList.length, ?_⟩
  unfold base
  split
  next h => exact absurd (htake.symm.trans h) hne
  next => simp [Cursor.skip, htake, hdrop]

/-- No size begins with a letter. -/
lemma stopsAt_sizeText (s : Option Size) (ds : List (Option Nat)) :
    StopsAt isAsciiLetter (sizeText s ++ ds.flatMap dimText) := by
  have hdecimal (n : Nat) (rest : List Char) : StopsAt isAsciiLetter (decimal n ++ rest) := by
    obtain ⟨c, cs, hcs⟩ := List.exists_cons_of_ne_nil (decimal_ne_nil n)
    rw [hcs]
    refine stopsAt_cons c _ ?_
    have hc : isAsciiDigit c = true := isAsciiDigit_of_mem_decimal (n := n) (by simp [hcs])
    rw [isAsciiDigit_iff] at hc
    simp [isAsciiLetter]
    omega
  match s with
  | none => exact stopsAt_dims (by decide) ds
  | some (.one n) => exact hdecimal n _
  | some (.pair a b) =>
    rw [sizeText, List.append_assoc]
    exact hdecimal a _

/-- A dimension takes a character at least. -/
lemma length_le_flatMap_dimText (ds : List (Option Nat)) :
    ds.length ≤ (ds.flatMap dimText).length := by
  induction ds with
  | nil => simp
  | cons d ds ih =>
    have hd := List.length_pos_iff.mpr (dimText_ne_nil d)
    simp only [List.length_cons, List.flatMap_cons, List.length_append]
    omega

lemma finds_basicType {b : String} {s : Option Size} {ds : List (Option Nat)}
    (h : Spellable b s ds) (position : Nat) :
    Finds (basicType ⟨position, text (.basic b s ds)⟩) (.basic b s ds) [] := by
  have htext : text (.basic b s ds) = b.toList ++ (sizeText s ++ ds.flatMap dimText) := by
    simp [text]
  obtain ⟨p₁, hbase⟩ := finds_base h.nonempty h.letters (stopsAt_sizeText s ds) position
  obtain ⟨p₂, hsize⟩ := finds_size h.size ds p₁
  obtain ⟨p₃, hdims⟩ := finds_dimsFrom h.dims _ (length_le_flatMap_dimText ds) p₂
  refine ⟨p₃, ?_⟩
  rw [htext]
  simp only [basicType, dims, Attempt.found_named, Attempt.found_andThen, hbase, hsize, hdims,
    Option.bind_some, Attempt.found_succeed]

/-- Nothing is nested in a text without opening parentheses. -/
lemma nesting_eq_zero {cs : List Char} (h : '(' ∉ cs) : nesting 0 cs = 0 := by
  induction cs with
  | nil => rfl
  | cons c cs ih =>
    simp only [List.mem_cons, not_or] at h
    have hrest := ih h.2
    unfold nesting
    split
    next heq => cases heq
    next heq => exact absurd (List.cons.inj heq).1.symm h.1
    next heq =>
      obtain ⟨-, rfl⟩ := List.cons.inj heq
      simpa using hrest
    next heq =>
      obtain ⟨-, rfl⟩ := List.cons.inj heq
      exact hrest

lemma paren_notMem_text {b : String} {s : Option Size} {ds : List (Option Nat)}
    (h : Spellable b s ds) : '(' ∉ text (.basic b s ds) := by
  have hdecimal (n : Nat) : '(' ∉ decimal n := fun hmem =>
    absurd (isAsciiDigit_of_mem_decimal hmem) (by decide)
  have hbase : '(' ∉ b.toList := fun hmem => absurd (h.letters _ hmem) (by decide)
  have hsize : '(' ∉ sizeText s := by
    match s with
    | none => simp [sizeText]
    | some (.one n) => exact hdecimal n
    | some (.pair a c) => simp [sizeText, hdecimal]
  have hdims : '(' ∉ ds.flatMap dimText := by
    simp only [List.mem_flatMap, not_exists, not_and]
    intro d _
    cases d <;> simp [dimText, hdecimal]
  simp [text, hbase, hsize, hdims]

/-- **A basic type is read from its spelling.** -/
theorem parse_text {b : String} {s : Option Size} {ds : List (Option Nat)}
    (h : Spellable b s ds) (room : Nat) :
    parse room (text (.basic b s ds)) = .ok (.basic b s ds) := by
  obtain ⟨p, hfound⟩ := finds_basicType h 0
  have hparen := paren_notMem_text h
  have htype : (typeAt (2 * (text (.basic b s ds)).length + 2) ⟨0, text (.basic b s ds)⟩).found
      = some (.basic b s ds, ⟨p, []⟩) := by
    have hchar : (char '(' ⟨0, text (.basic b s ds)⟩).found = none :=
      found_char_of_ne (fun h => hparen (List.mem_of_mem_head? h)) 0
    simp [typeAt, tupleAt, hchar, hfound]
  have hnesting : nesting 0 ((text (.basic b s ds)).take p) = 0 :=
    nesting_eq_zero fun h => hparen (List.mem_of_mem_take h)
  simp [parse, htype, hnesting]

end HoneypotAudit.Abi.TypeText
