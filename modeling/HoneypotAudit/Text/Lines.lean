/-!
# Lines and pieces

Cutting texts at line breaks and at separators.
-/

namespace HoneypotAudit.Text

/-! ## Pieces -/

/-- The pieces between the occurrences of a separator; always at least one. -/
def splitOn (sep : Char) : List Char → List (List Char)
  | [] => [[]]
  | c :: cs =>
    if c = sep then [] :: splitOn sep cs
    else match splitOn sep cs with
      | [] => [[c]]
      | piece :: pieces => (c :: piece) :: pieces

/-- The pieces of a text put together again with a separator. -/
def joinWith (sep : List Char) : List (List Char) → List Char
  | [] => []
  | [piece] => piece
  | piece :: pieces => piece ++ sep ++ joinWith sep pieces

theorem splitOn_ne_nil (sep : Char) (cs : List Char) : splitOn sep cs ≠ [] := by
  cases cs with
  | nil => simp [splitOn]
  | cons c cs =>
    rw [splitOn]
    split
    · simp
    · split <;> simp

/-- Cutting loses nothing. -/
theorem joinWith_splitOn (sep : Char) (cs : List Char) :
    joinWith [sep] (splitOn sep cs) = cs := by
  induction cs with
  | nil => rfl
  | cons c cs ih =>
    rw [splitOn]
    split
    · next h =>
      cases hs : splitOn sep cs with
      | nil => exact absurd hs (splitOn_ne_nil sep cs)
      | cons piece pieces =>
        rw [hs] at ih
        simp [joinWith, ih, h]
    · split
      · next hs => exact absurd hs (splitOn_ne_nil sep cs)
      · next piece pieces hs =>
        rw [hs] at ih
        cases pieces with
        | nil => simpa [joinWith] using ih
        | cons q qs => simpa [joinWith] using ih

/-- The text before the first occurrence of a character, and the text behind it if there is one. -/
def cutFirst (sep : Char) : List Char → List Char × Option (List Char)
  | [] => ([], none)
  | c :: cs =>
    if c = sep then ([], some cs)
    else
      let (before, behind) := cutFirst sep cs
      (c :: before, behind)

/-- The first cut is made where the separator is first met. -/
theorem cutFirst_fst (sep : Char) (cs : List Char) :
    (cutFirst sep cs).1 = cs.takeWhile (· ≠ sep) := by
  induction cs with
  | nil => rfl
  | cons c cs ih =>
    rw [cutFirst]
    split
    next h => simp [h]
    next h => simp [h, ih]

/-- What is behind the first separator is a part of the text. -/
theorem subset_of_cutFirst_snd {sep : Char} {cs behind : List Char}
    (h : (cutFirst sep cs).2 = some behind) : behind ⊆ cs := by
  induction cs with
  | nil => cases h
  | cons c cs ih =>
    rw [cutFirst] at h
    split at h
    · obtain rfl : cs = behind := Option.some.inj h
      exact List.subset_cons_self c cs
    · exact List.Subset.trans (ih h) (List.subset_cons_self c cs)

/-- The text before the last occurrence of a character and the text behind it, if there is one. -/
def cutLast? (sep : Char) : List Char → Option (List Char × List Char)
  | [] => none
  | c :: cs =>
    match cutLast? sep cs with
    | some (before, behind) => some (c :: before, behind)
    | none => if c = sep then some ([], cs) else none

theorem cutLast?_of_not_mem {sep : Char} {cs : List Char} (h : sep ∉ cs) :
    cutLast? sep cs = none := by
  induction cs with
  | nil => rfl
  | cons c cs ih =>
    simp only [List.mem_cons, not_or] at h
    rw [cutLast?, ih h.2, if_neg (Ne.symm h.1)]

/-- A text is cut at the last occurrence of a character. -/
theorem cutLast?_append {sep : Char} {behind : List Char} (h : sep ∉ behind)
    (before : List Char) : cutLast? sep (before ++ sep :: behind) = some (before, behind) := by
  induction before with
  | nil => simp [cutLast?, cutLast?_of_not_mem h]
  | cons c cs ih => rw [List.cons_append, cutLast?, ih]

/-- The text behind the last occurrence of a character, or all of it. -/
def afterLast (sep : Char) (cs : List Char) : List Char :=
  match cutLast? sep cs with
  | some (_, behind) => behind
  | none => cs

theorem afterLast_of_not_mem {sep : Char} {cs : List Char} (h : sep ∉ cs) :
    afterLast sep cs = cs := by
  rw [afterLast, cutLast?_of_not_mem h]

theorem afterLast_append {sep : Char} {behind : List Char} (h : sep ∉ behind)
    (before : List Char) : afterLast sep (before ++ sep :: behind) = behind := by
  rw [afterLast, cutLast?_append h]

/-! ## Lines -/

/-- The characters that end a line; a carriage return and a line feed behind it end one
together. -/
def isLineBreak (c : Char) : Bool :=
  let n := c.toNat
  (decide (0x0A ≤ n) && decide (n ≤ 0x0D)) || (decide (0x1C ≤ n) && decide (n ≤ 0x1E)) ||
    n == 0x85 || n == 0x2028 || n == 0x2029

/-- The lines of a text without their ends; a text that ends with a line break has no empty line
behind it. -/
def lines : List Char → List (List Char)
  | [] => []
  | '\r' :: '\n' :: cs => [] :: lines cs
  | c :: cs =>
    if isLineBreak c then [] :: lines cs
    else match lines cs with
      | [] => [[c]]
      | line :: rest => (c :: line) :: rest

/-- A text whose line ends, a carriage return with or without a line feed, all are line feeds. -/
def unifyLineEnds : List Char → List Char
  | [] => []
  | '\r' :: '\n' :: cs => '\n' :: unifyLineEnds cs
  | '\r' :: cs => '\n' :: unifyLineEnds cs
  | c :: cs => c :: unifyLineEnds cs

end HoneypotAudit.Text
