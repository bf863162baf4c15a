import HoneypotAudit.Text.Lines
import Mathlib.Data.List.Basic

/-!
# Lines of texts

What `Text.splitOn` and `Text.lines` make of a text that is put together from others: a separator
ends a piece whatever stands in front of it (`splitOn_append_sep`), and so does a line feed with a
line (`exists_lines_append`); a text without separators is one piece (`splitOn_of_not_mem`), and one
without line breaks is one line (`lines_of_unbroken`, `lines_append_of_unbroken`).
-/

namespace HoneypotAudit.Text

/-! ## Pieces -/

section Pieces

variable {sep : Char}

lemma splitOn_cons_self (cs : List Char) : splitOn sep (sep :: cs) = [] :: splitOn sep cs := by
  rw [splitOn, if_pos rfl]

lemma splitOn_cons_ne {c : Char} (hc : c ≠ sep) {cs piece : List Char} {pieces : List (List Char)}
    (hcs : splitOn sep cs = piece :: pieces) : splitOn sep (c :: cs) = (c :: piece) :: pieces := by
  rw [splitOn, if_neg hc, hcs]

/-- There is one piece more than there are separators. -/
lemma length_splitOn (cs : List Char) : (splitOn sep cs).length = cs.count sep + 1 := by
  induction cs with
  | nil => rfl
  | cons c cs ih =>
    by_cases hc : c = sep
    · subst hc
      rw [splitOn_cons_self, List.length_cons, ih, List.count_cons_self]
    · obtain ⟨piece, pieces, hcs⟩ := List.exists_cons_of_ne_nil (splitOn_ne_nil sep cs)
      have hlength : (piece :: pieces).length = cs.count sep + 1 := hcs ▸ ih
      rw [splitOn_cons_ne hc hcs, List.count_cons_of_ne hc]
      simpa using hlength

/-- No piece holds the separator. -/
lemma not_mem_of_mem_splitOn {cs piece : List Char} (h : piece ∈ splitOn sep cs) : sep ∉ piece := by
  induction cs generalizing piece with
  | nil =>
    rw [splitOn, List.mem_singleton] at h
    simp [h]
  | cons c cs ih =>
    by_cases hc : c = sep
    · subst hc
      rw [splitOn_cons_self, List.mem_cons] at h
      rcases h with rfl | h
      · simp
      · exact ih h
    · obtain ⟨first, rest, hcs⟩ := List.exists_cons_of_ne_nil (splitOn_ne_nil sep cs)
      rw [splitOn_cons_ne hc hcs, List.mem_cons] at h
      rcases h with rfl | h
      · have hfirst : sep ∉ first := ih (hcs ▸ List.mem_cons_self)
        simpa [Ne.symm hc] using hfirst
      · exact ih (hcs ▸ List.mem_cons_of_mem first h)

/-- The last piece of a text and the first one of the text behind it are one piece. -/
lemma splitOn_append {cs ds last first : List Char} {init rest : List (List Char)}
    (hcs : splitOn sep cs = init ++ [last]) (hds : splitOn sep ds = first :: rest) :
    splitOn sep (cs ++ ds) = init ++ (last ++ first) :: rest := by
  induction cs generalizing init last with
  | nil =>
    obtain ⟨rfl, rfl⟩ : init = [] ∧ last = [] := by
      simpa [splitOn, List.singleton_eq_append_iff] using hcs
    simpa using hds
  | cons c cs ih =>
    obtain ⟨piece, pieces, htail⟩ := List.exists_cons_of_ne_nil (splitOn_ne_nil sep cs)
    rw [List.cons_append]
    by_cases hc : c = sep
    · subst hc
      rw [splitOn_cons_self] at hcs ⊢
      cases init with
      | nil => simp [splitOn_ne_nil] at hcs
      | cons line init =>
        obtain ⟨rfl, htail⟩ := List.cons_eq_cons.mp hcs
        rw [ih htail, List.cons_append]
    · rw [splitOn_cons_ne hc htail] at hcs
      cases init with
      | nil =>
        -- the first text has one piece only
        obtain ⟨rfl, rfl⟩ : c :: piece = last ∧ pieces = [] := by simpa using hcs
        have hwhole : splitOn sep (cs ++ ds) = [] ++ (piece ++ first) :: rest := ih htail
        rw [splitOn_cons_ne hc hwhole]
        rfl
      | cons line init =>
        obtain ⟨rfl, rfl⟩ := List.cons_eq_cons.mp hcs
        have hwhole : splitOn sep (cs ++ ds) = (piece :: init) ++ (last ++ first) :: rest :=
          ih htail
        rw [splitOn_cons_ne hc hwhole]
        rfl

/-- A text without a separator is a single piece. -/
lemma splitOn_of_not_mem {cs : List Char} (h : sep ∉ cs) : splitOn sep cs = [cs] := by
  induction cs with
  | nil => rfl
  | cons c cs ih =>
    simp only [List.mem_cons, not_or] at h
    rw [splitOn_cons_ne (Ne.symm h.1) (ih h.2)]

/-- A separator ends a piece, whatever stands in front of it. -/
lemma splitOn_append_sep (cs behind : List Char) :
    splitOn sep (cs ++ sep :: behind) = splitOn sep cs ++ splitOn sep behind := by
  have hfront := (List.dropLast_concat_getLast (splitOn_ne_nil sep cs)).symm
  rw [splitOn_append hfront (splitOn_cons_self behind), List.append_nil]
  nth_rewrite 3 [hfront]
  rw [List.append_assoc, List.singleton_append]

/-- The first piece ends at the first separator. -/
lemma splitOn_append_cons {cs : List Char} (h : sep ∉ cs) (behind : List Char) :
    splitOn sep (cs ++ sep :: behind) = cs :: splitOn sep behind := by
  rw [splitOn_append_sep, splitOn_of_not_mem h, List.singleton_append]

/-! ## Printed lines -/

/-- The lines of what was printed: what stands in front of each line feed. -/
def printedLines (cs : List Char) : List (List Char) :=
  (splitOn '\n' cs).dropLast

lemma printedLines_append (cs behind : List Char) :
    printedLines (cs ++ '\n' :: behind) = splitOn '\n' cs ++ printedLines behind := by
  rw [printedLines, splitOn_append_sep, List.dropLast_append_of_ne_nil (splitOn_ne_nil '\n' behind),
    printedLines]

/-- Texts that are printed one after the other, a line feed behind each. -/
lemma printedLines_join (texts : List String) :
    printedLines (String.join (texts.map (· ++ "\n"))).toList =
      texts.flatMap fun text => splitOn '\n' text.toList := by
  induction texts with
  | nil => rfl
  | cons text texts ih =>
    have hline : (text ++ "\n").toList = text.toList ++ ['\n'] := String.toList_append
    rw [List.map_cons, String.toList_join, List.flatMap_cons, hline, List.append_assoc,
      List.singleton_append, printedLines_append, List.flatMap_cons, ← ih, String.toList_join]

/-- A text without a line feed in it. -/
def IsOneLine (text : String) : Prop :=
  '\n' ∉ text.toList

instance (text : String) : Decidable (IsOneLine text) :=
  inferInstanceAs (Decidable ('\n' ∉ text.toList))

lemma isOneLine_append {s t : String} : IsOneLine (s ++ t) ↔ IsOneLine s ∧ IsOneLine t := by
  simp [IsOneLine, String.toList_append]

lemma isOneLine_intercalate {sep : String} {texts : List String} (hsep : IsOneLine sep)
    (h : ∀ text ∈ texts, IsOneLine text) : IsOneLine (sep.intercalate texts) := by
  induction texts with
  | nil => simp [IsOneLine]
  | cons text texts ih =>
    obtain ⟨htext, htexts⟩ := List.forall_mem_cons.mp h
    cases texts with
    | nil => rwa [String.intercalate_singleton]
    | cons next texts =>
      rw [String.intercalate_cons_cons, isOneLine_append, isOneLine_append]
      exact ⟨⟨htext, hsep⟩, ih htexts⟩

/-- Texts of one line each are printed as they are. -/
lemma printedLines_of_isOneLine {texts : List String} (h : ∀ text ∈ texts, IsOneLine text) :
    printedLines (String.join (texts.map (· ++ "\n"))).toList = texts.map (·.toList) := by
  rw [printedLines_join]
  induction texts with
  | nil => rfl
  | cons text texts ih =>
    obtain ⟨htext, htexts⟩ := List.forall_mem_cons.mp h
    rw [List.flatMap_cons, splitOn_of_not_mem htext, ih htexts, List.map_cons,
      List.singleton_append]

/-- What is printed last is printed as it is, if it is one line. -/
lemma getLast?_printedLines {texts : List String} {last : String} (hlast : IsOneLine last) :
    (printedLines (String.join ((texts ++ [last]).map (· ++ "\n"))).toList).getLast? =
      some last.toList := by
  rw [printedLines_join, List.flatMap_append, List.flatMap_singleton, splitOn_of_not_mem hlast,
    List.getLast?_concat]

end Pieces

/-! ## Line breaks -/

/-- The line breaks that are no control characters of ASCII. -/
def separators : List Char := ['\u0085', '\u2028', '\u2029']

lemma isLineBreak_cases {c : Char} (h : isLineBreak c = true) :
    c.toNat < 0x20 ∨ c ∈ separators := by
  have hmem : ∀ d : Char, c.toNat = d.toNat → d ∈ separators → c ∈ separators :=
    fun d heq hd => Char.toNat_inj.mp heq ▸ hd
  simp only [isLineBreak, Bool.or_eq_true, Bool.and_eq_true, decide_eq_true_eq, beq_iff_eq] at h
  rcases h with (((h | h) | h) | h) | h
  · exact .inl (by omega)
  · exact .inl (by omega)
  · exact .inr (hmem '\u0085' h (by decide))
  · exact .inr (hmem '\u2028' h (by decide))
  · exact .inr (hmem '\u2029' h (by decide))

/-! ## Lines -/

lemma lines_cons_of_isLineBreak {c : Char} {cs : List Char} (hc : isLineBreak c = true)
    (hpair : ∀ cs', c = '\r' → cs ≠ '\n' :: cs') : lines (c :: cs) = [] :: lines cs := by
  rw [lines, if_pos hc]
  exact hpair

lemma lines_cons {c : Char} {cs : List Char} (hc : isLineBreak c = false) :
    lines (c :: cs) = (c :: (lines cs).headD []) :: (lines cs).tail := by
  rw [lines, if_neg (by simp [hc])]
  · cases lines cs <;> rfl
  · rintro _ rfl
    cases hc

/-- A line feed ends a line, whatever stands in front of it. -/
lemma exists_lines_append (front behind : List Char) :
    ∃ line before, lines (front ++ '\n' :: behind) = line :: before ++ lines behind := by
  have hline : ∀ {c : Char} {cs : List Char}, isLineBreak c = false →
      (∃ line before, lines (cs ++ '\n' :: behind) = line :: before ++ lines behind) →
      ∃ line before, lines (c :: cs ++ '\n' :: behind) = line :: before ++ lines behind := by
    rintro c cs hc ⟨line, before, h⟩
    exact ⟨c :: line, before, by rw [List.cons_append, lines_cons hc, h]; rfl⟩
  induction front using lines.induct with
  | case1 => exact ⟨[], [], rfl⟩
  | case2 cs ih =>
    obtain ⟨line, before, h⟩ := ih
    exact ⟨[], line :: before, by simp [lines, h]⟩
  | case3 c cs hpair hc ih =>
    obtain ⟨line, before, h⟩ := ih
    cases cs with
    | nil =>
      -- the line feed may end the line together with a carriage return in front of it
      by_cases hreturn : c = '\r'
      · subst hreturn
        exact ⟨[], [], rfl⟩
      · refine ⟨[], line :: before, ?_⟩
        rw [List.cons_append, lines_cons_of_isLineBreak hc fun _ heq => absurd heq hreturn, h]
        rfl
    | cons d cs =>
      refine ⟨[], line :: before, ?_⟩
      rw [List.cons_append, lines_cons_of_isLineBreak hc, h]
      · rfl
      · intro cs' hreturn heq
        exact hpair cs hreturn (by rw [(List.cons.inj heq).1])
  | case4 c cs _ hc _ ih => exact hline (by simpa using hc) ih
  | case5 c cs _ hc _ _ _ ih => exact hline (by simpa using hc) ih

lemma lines_append_of_unbroken {line : List Char} (h : ∀ c ∈ line, isLineBreak c = false)
    (behind : List Char) : lines (line ++ '\n' :: behind) = line :: lines behind := by
  induction line with
  | nil => exact lines_cons_of_isLineBreak rfl fun _ heq => absurd heq (by decide)
  | cons c line ih =>
    obtain ⟨hc, hline⟩ := List.forall_mem_cons.mp h
    rw [List.cons_append, lines_cons hc, ih hline]
    rfl

lemma lines_of_unbroken {cs ending : List Char} (hne : cs ≠ [])
    (h : ∀ c ∈ cs, isLineBreak c = false) (hending : ending = [] ∨ ending = ['\n']) :
    lines (cs ++ ending) = [cs] := by
  induction cs with
  | nil => exact absurd rfl hne
  | cons c cs ih =>
    obtain ⟨hc, hcs⟩ := List.forall_mem_cons.mp h
    rw [List.cons_append, lines_cons hc]
    by_cases hlast : cs = []
    · subst hlast
      rcases hending with rfl | rfl
      · rfl
      · rfl
    · rw [ih hlast hcs]
      rfl

end HoneypotAudit.Text
