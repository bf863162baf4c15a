import HoneypotAudit.Proofs.Text.Lines
import HoneypotAudit.Proofs.Text.Utf8
import HoneypotAudit.Source.Splice
import Mathlib.Data.List.TakeWhile

/-!
# Insertion

A position that a byte offset stands for is a place between two characters, and `splice` inserts
there and nowhere else (`splice_behind`).  Three ways of counting have to agree: bytes of the UTF-8
form, lines with columns in characters, and lists of lines.  An offset inside a character counts as
the place behind it, since its bytes up to there are read as one replacement character
(`splice_ofOffset`).

The lines of a text are the only thing that all three know, so every lemma is about them: the text
in front of the place is its lines `init ++ [last]`, the position is the number of those lines and
the length of the last one, and the text behind goes on in that line.
-/

namespace HoneypotAudit.Text

/-! ## Lines of two texts -/

/-- A text has a last piece. -/
lemma exists_lines (cs : List Char) : ∃ init last, splitOn '\n' cs = init ++ [last] :=
  ⟨_, _, (List.dropLast_concat_getLast (splitOn_ne_nil '\n' cs)).symm⟩

/-- Two texts that go on in one line. -/
lemma joinWith_append (sep last first : List Char) (init rest : List (List Char)) :
    joinWith sep (init ++ (last ++ first) :: rest) =
      joinWith sep (init ++ [last]) ++ joinWith sep (first :: rest) := by
  induction init with
  | nil => cases rest <;> simp [joinWith]
  | cons line init ih =>
    have hstep {next : List Char} {lines : List (List Char)} :
        joinWith sep (line :: (init ++ next :: lines)) =
          line ++ sep ++ joinWith sep (init ++ next :: lines) := by
      cases init <;> rfl
    rw [List.cons_append, List.cons_append, hstep, hstep, ih]
    simp only [List.append_assoc]

end HoneypotAudit.Text

namespace HoneypotAudit.Source

open HoneypotAudit.Text

/-! ## Positions -/

/-- A line feed is its own byte and part of no other character. -/
lemma count_lineFeed_utf8EncodeChar (c : Char) :
    (String.utf8EncodeChar c).count lineFeed = if c = '\n' then 1 else 0 := by
  by_cases hc : c = '\n'
  · subst hc
    decide
  · rw [if_neg hc, List.count_eq_zero]
    intro hmem
    have hnumber := Utf8.toNat_eq_of_mem hmem (by decide)
    exact hc (Char.toNat_inj.mp hnumber)

lemma count_lineFeed_encode (cs : List Char) :
    (Utf8.encode cs).count lineFeed = cs.count '\n' := by
  induction cs with
  | nil => rfl
  | cons c cs ih =>
    rw [Utf8.encode_cons, List.count_append, count_lineFeed_utf8EncodeChar, ih, List.count_cons]
    simp only [beq_iff_eq]
    omega

lemma lineFeed_mem_encode_iff {cs : List Char} : lineFeed ∈ Utf8.encode cs ↔ '\n' ∈ cs := by
  rw [← List.count_pos_iff, count_lineFeed_encode, List.count_pos_iff]

/-- The bytes of a last line are followed by others of that line. -/
lemma lastLine_append (bs : Bytes) {more : Bytes} (h : lineFeed ∉ more) :
    lastLine (bs ++ more) = lastLine bs ++ more := by
  have hall : ∀ b ∈ more.reverse, decide (b ≠ lineFeed) = true := by
    intro b hb
    have hmem : b ∈ more := List.mem_reverse.mp hb
    exact decide_eq_true fun hfeed => h (hfeed ▸ hmem)
  rw [lastLine, List.reverse_append, List.takeWhile_append_of_pos hall, List.reverse_append,
    List.reverse_reverse, lastLine]

/-- The bytes of the last line are those of the characters behind the last line feed. -/
lemma lastLine_encode {cs last : List Char} {init : List (List Char)}
    (hcs : splitOn '\n' cs = init ++ [last]) : lastLine (Utf8.encode cs) = Utf8.encode last := by
  have hlast : lineFeed ∉ Utf8.encode last := by
    have hpiece : last ∈ splitOn '\n' cs := hcs ▸ List.mem_append_right init (.head _)
    exact fun h => not_mem_of_mem_splitOn hpiece (lineFeed_mem_encode_iff.mp h)
  have htext : joinWith ['\n'] (init ++ [last]) = cs := by rw [← hcs, joinWith_splitOn]
  cases init using List.reverseRecOn with
  | nil =>
    obtain rfl : last = cs := htext
    exact lastLine_append [] hlast
  | append_singleton init line =>
    have hsplit : cs = joinWith ['\n'] (init ++ [line]) ++ '\n' :: last := by
      rw [← htext, List.append_assoc, List.singleton_append,
        show line :: [last] = (line ++ []) :: [last] by rw [List.append_nil], joinWith_append]
      rfl
    have hfeed : Utf8.encode ('\n' :: last) = [lineFeed] ++ Utf8.encode last := rfl
    rw [hsplit, Utf8.encode_append, hfeed, ← List.append_assoc, lastLine_append _ hlast]
    simp [lastLine]

/-- The position behind a text is its number of lines and the length of the last one. -/
lemma behind_encode {cs last : List Char} {init : List (List Char)}
    (hcs : splitOn '\n' cs = init ++ [last]) :
    Position.behind (Utf8.encode cs) = ⟨init.length + 1, last.length⟩ := by
  have hlines : init.length + 1 = cs.count '\n' + 1 := by
    rw [← length_splitOn, hcs, List.length_append, List.length_singleton]
  rw [Position.behind, lastLine_encode hcs, Utf8.decodeLossy_encode, count_lineFeed_encode,
    Nat.add_right_cancel hlines]

/-- A byte offset at the end of some characters stands for the place behind them. -/
lemma ofOffset_encode {before after : List Char} {offset : Int}
    (hoffset : offset = (Utf8.encode before).length) :
    Position.ofOffset (Utf8.encode (before ++ after)) offset =
      .behind (Utf8.encode before) := by
  have hclamp : clamp offset (Utf8.encode (before ++ after)).length =
      (Utf8.encode before).length := by
    rw [clamp, hoffset, Utf8.encode_append, List.length_append, Int.toNat_natCast]
    omega
  rw [Position.ofOffset, hclamp, Utf8.encode_append, List.take_left]

/-! ## Offsets -/

/-- The number of characters of a text whose bytes begin before an offset. -/
def charactersBefore (offset : Nat) (cs : List Char) : Nat :=
  (List.range cs.length).countP fun i => decide ((Utf8.encode (cs.take i)).length < offset)

@[simp] lemma charactersBefore_zero (cs : List Char) : charactersBefore 0 cs = 0 := by
  simp [charactersBefore]

lemma charactersBefore_cons {offset : Nat} (h : 0 < offset) (c : Char) (cs : List Char) :
    charactersBefore offset (c :: cs) =
      charactersBefore (offset - (String.utf8EncodeChar c).length) cs + 1 := by
  have hshift (i : Nat) : (Utf8.encode ((c :: cs).take (i + 1))).length < offset ↔
      (Utf8.encode (cs.take i)).length < offset - (String.utf8EncodeChar c).length := by
    rw [List.take_succ_cons, Utf8.encode_cons, List.length_append]
    omega
  have hfirst : decide ((Utf8.encode ((c :: cs).take 0)).length < offset) = true :=
    decide_eq_true h
  rw [charactersBefore, List.length_cons, List.range_succ_eq_map, List.countP_cons, hfirst,
    if_pos rfl, List.countP_map, charactersBefore]
  refine congrArg (· + 1) (List.countP_congr fun i _ => ?_)
  rw [Function.comp, decide_eq_true_iff, decide_eq_true_iff]
  exact hshift i

/-- The bytes up to an offset are those of the characters that begin before it, and of the last one
perhaps only a part. -/
lemma exists_cut {cs : List Char} {offset : Nat} (h : offset ≤ (Utf8.encode cs).length) :
    ∃ before after, cs = before ++ after ∧ before.length = charactersBefore offset cs ∧
      ((Utf8.encode cs).take offset = Utf8.encode before ∨
        ∃ init c j, before = init ++ [c] ∧ 0 < j ∧ j < (String.utf8EncodeChar c).length ∧
          (Utf8.encode cs).take offset = Utf8.encode init ++ (String.utf8EncodeChar c).take j) := by
  induction cs generalizing offset with
  | nil =>
    obtain rfl : offset = 0 := Nat.le_zero.mp h
    exact ⟨[], [], rfl, rfl, .inl rfl⟩
  | cons c cs ih =>
    rcases Nat.eq_zero_or_pos offset with rfl | hpos
    · exact ⟨[], c :: cs, rfl, by simp, .inl rfl⟩
    rw [charactersBefore_cons hpos, Utf8.encode_cons] at *
    by_cases hinside : offset < (String.utf8EncodeChar c).length
    · refine ⟨[c], cs, rfl, ?_, .inr ⟨[], c, offset, rfl, hpos, hinside, ?_⟩⟩
      · rw [Nat.sub_eq_zero_of_le hinside.le, charactersBefore_zero, List.length_singleton]
      · rw [List.take_append_of_le_length hinside.le, Utf8.encode_nil, List.nil_append]
    · rw [List.length_append] at h
      obtain ⟨before, after, rfl, hlength, hbytes⟩ :=
        ih (show offset - (String.utf8EncodeChar c).length ≤ _ by omega)
      have htake : (String.utf8EncodeChar c ++ Utf8.encode (before ++ after)).take offset =
          String.utf8EncodeChar c ++ (Utf8.encode (before ++ after)).take
            (offset - (String.utf8EncodeChar c).length) := by
        rw [List.take_append, List.take_of_length_le (by omega)]
      refine ⟨c :: before, after, rfl, by rw [List.length_cons, hlength], ?_⟩
      rw [htake]
      rcases hbytes with hwhole | ⟨init, d, j, rfl, hj, hlt, hpart⟩
      · exact .inl (by rw [hwhole, Utf8.encode_cons])
      · refine .inr ⟨c :: init, d, j, rfl, hj, hlt, ?_⟩
        rw [hpart, Utf8.encode_cons, List.append_assoc]

/-- **A place inside a character is the place behind it.** -/
lemma behind_append_take (init : List Char) {c : Char} {j : Nat} (hj : 0 < j)
    (hlt : j < (String.utf8EncodeChar c).length) :
    Position.behind (Utf8.encode init ++ (String.utf8EncodeChar c).take j) =
      .behind (Utf8.encode (init ++ [c])) := by
  -- a character of several bytes is no line feed
  have hfeed : lineFeed ∉ String.utf8EncodeChar c := by
    intro hmem
    have hnumber := Utf8.toNat_eq_of_mem hmem (by decide)
    obtain rfl : c = '\n' := Char.toNat_inj.mp hnumber
    have hone : (String.utf8EncodeChar '\n').length = 1 := rfl
    omega
  have hpart : lineFeed ∉ (String.utf8EncodeChar c).take j :=
    fun hmem => hfeed (List.mem_of_mem_take hmem)
  obtain ⟨lines, last, hinit⟩ := exists_lines init
  have hone : Utf8.encode [c] = String.utf8EncodeChar c := by
    rw [Utf8.encode_cons, Utf8.encode_nil, List.append_nil]
  have hchar : Utf8.decodeLossy (String.utf8EncodeChar c) = [c] := by
    rw [← hone, Utf8.decodeLossy_encode]
  rw [Utf8.encode_append, hone, Position.behind, Position.behind, lastLine_append _ hpart,
    lastLine_append _ hfeed, lastLine_encode hinit, Utf8.decodeLossy_encode_append,
    Utf8.decodeLossy_encode_append, Utf8.decodeLossy_take c hj hlt, hchar]
  simp only [List.count_append, List.count_eq_zero.mpr hpart, List.count_eq_zero.mpr hfeed,
    List.length_append, List.length_singleton]

/-! ## Insertion -/

/-- Text is inserted into the line in which the text in front of it ends. -/
lemma insertInLine?_append (code last first : List Char) (init rest : List (List Char)) :
    insertInLine? code last.length init.length (init ++ (last ++ first) :: rest) =
      some (init ++ (last ++ (code ++ first)) :: rest) := by
  induction init with
  | nil =>
    rw [List.nil_append, List.length_nil, insertInLine?,
      if_pos (by rw [List.length_append]; omega), insertAt, List.take_left, List.drop_left,
      List.append_assoc]
    rfl
  | cons line init ih =>
    rw [List.cons_append, List.length_cons, insertInLine?, ih]
    rfl

/-- **Text is inserted exactly at its position**: behind the text whose end the position is, and in
front of all that follows. -/
theorem splice_behind (before after code : List Char) :
    splice (before ++ after) (.behind (Utf8.encode before)) code =
      .ok (before ++ code ++ after) := by
  obtain ⟨init, last, hbefore⟩ := exists_lines before
  obtain ⟨first, rest, hafter⟩ := List.exists_cons_of_ne_nil (splitOn_ne_nil '\n' after)
  have hinside : ¬((init.length : Int) + 1 < 1 ∨ (last.length : Int) < 0) := by omega
  have hindex : ((init.length : Int) + 1).toNat - 1 = init.length := by omega
  rw [behind_encode hbefore, splice, if_neg hinside, splitOn_append hbefore hafter, hindex,
    Int.toNat_natCast, insertInLine?_append]
  simp only [Except.ok.injEq]
  have hback : joinWith ['\n'] (init ++ [last]) = before := by rw [← hbefore, joinWith_splitOn]
  have hfirst : joinWith ['\n'] ((code ++ first) :: rest) = code ++ after := by
    have h := joinWith_append ['\n'] code first [] rest
    rwa [← hafter, joinWith_splitOn] at h
  rw [joinWith_append, hback, hfirst, List.append_assoc]

/-- **Text is inserted at any byte offset**, behind the characters that begin before it.  Offsets
outside the text count as its nearer end, and no offset is refused. -/
theorem splice_ofOffset (source : List Char) (offset : Int) (code : List Char) :
    let place := charactersBefore (max 0 (min offset (Utf8.encode source).length)).toNat source
    splice source (.ofOffset (Utf8.encode source) offset) code =
      .ok (source.take place ++ code ++ source.drop place) := by
  intro place
  have hclamp : clamp offset (Utf8.encode source).length =
      (max 0 (min offset (Utf8.encode source).length)).toNat := by
    rw [clamp]
    omega
  have hwithin : clamp offset (Utf8.encode source).length ≤ (Utf8.encode source).length :=
    Nat.min_le_right _ _
  obtain ⟨before, after, hsource, hlength, hbytes⟩ := exists_cut hwithin
  have hposition : Position.ofOffset (Utf8.encode source) offset =
      .behind (Utf8.encode before) := by
    rcases hbytes with hwhole | ⟨init, c, j, rfl, hj, hlt, hpart⟩
    · rw [Position.ofOffset, hwhole]
    · rw [Position.ofOffset, hpart, behind_append_take init hj hlt]
  have hplace : place = before.length := by rw [hlength, hclamp]
  rw [hposition, hplace, hsource, splice_behind, List.take_left, List.drop_left]

/-- Between the two bytes of the umlaut is behind it. -/
example : charactersBefore 2 "aüb".toList = 2 := by decide

end HoneypotAudit.Source
