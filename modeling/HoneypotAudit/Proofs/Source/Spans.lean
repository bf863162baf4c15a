import HoneypotAudit.Proofs.Source.Insertion
import HoneypotAudit.Proofs.Text.Integer
import Mathlib.Data.List.DropRight

/-!
# First and last characters

A declaration is described by the byte offset at which it begins and the number of its bytes.  The
position of the first character of such a span is that of the character, always.  The position of
the last one is taken at the last byte, which is right exactly if the character has no other byte:
inside a character of several bytes a position counts as the place behind it
(`positions_of_span_iff`).
-/

namespace HoneypotAudit.Source

open HoneypotAudit.Text

/-! ## Characters -/

/-- Where a character stands, by its index: the number of its line, counted from one, and the number
of characters in front of it on that line. -/
def characterAt (source : List Char) (i : Nat) : Position :=
  ⟨(source.take i).count '\n' + 1, ((source.take i).rtakeWhile (· ≠ '\n')).length⟩

/-- The number of bytes in front of a character. -/
def byteOffset (source : List Char) (i : Nat) : Nat :=
  (Utf8.encode (source.take i)).length

/-- The bytes of the last line are those of the characters behind the last line feed. -/
lemma lastLine_encode_eq (cs : List Char) :
    lastLine (Utf8.encode cs) = Utf8.encode (cs.rtakeWhile (· ≠ '\n')) := by
  induction cs using List.reverseRecOn with
  | nil => rfl
  | append_singleton cs c ih =>
    rw [Utf8.encode_append]
    by_cases hc : c = '\n'
    · subst hc
      have hfeed : Utf8.encode ['\n'] = [lineFeed] := rfl
      rw [hfeed, List.rtakeWhile_concat_neg _ _ _ (by simp)]
      simp [lastLine]
    · have hnone : lineFeed ∉ Utf8.encode [c] := fun h =>
        hc (List.mem_singleton.mp (lineFeed_mem_encode_iff.mp h)).symm
      rw [lastLine_append _ hnone, ih, List.rtakeWhile_concat_pos _ _ _ (by simpa using hc),
        Utf8.encode_append]

/-- The position behind a text is that of the character that comes next. -/
lemma behind_encode_take (source : List Char) (i : Nat) :
    Position.behind (Utf8.encode (source.take i)) = characterAt source i := by
  rw [Position.behind, lastLine_encode_eq, Utf8.decodeLossy_encode, count_lineFeed_encode,
    characterAt]

section Positions

variable {source : List Char} {i : Nat} {c : Char}

/-- A byte offset at which a character begins stands for that character. -/
lemma ofOffset_byteOffset (source : List Char) (i : Nat) :
    Position.ofOffset (Utf8.encode source) (byteOffset source i) = characterAt source i := by
  have hsource : source = source.take i ++ source.drop i := (List.take_append_drop i source).symm
  conv_lhs => rw [hsource]
  rw [ofOffset_encode (by rw [← hsource, byteOffset]), behind_encode_take]

lemma byteOffset_succ (hc : source[i]? = some c) :
    byteOffset source (i + 1) = byteOffset source i + (String.utf8EncodeChar c).length := by
  rw [byteOffset, Utf8.encode_take_succ hc, List.length_append, byteOffset]

/-- A byte offset inside a character stands for the next one. -/
lemma ofOffset_inside (hc : source[i]? = some c) {m : Nat} (hm : 0 < m)
    (hlt : m < (String.utf8EncodeChar c).length) :
    Position.ofOffset (Utf8.encode source) (byteOffset source i + m : Nat) =
      characterAt source (i + 1) := by
  have htake : source.take (i + 1) = source.take i ++ [c] := by
    rw [List.take_add_one, hc, Option.toList_some]
  have hsplit : Utf8.encode source = Utf8.encode (source.take i) ++
      (String.utf8EncodeChar c ++ Utf8.encode (source.drop (i + 1))) := by
    conv_lhs => rw [← List.take_append_drop (i + 1) source]
    rw [Utf8.encode_append, Utf8.encode_take_succ hc, List.append_assoc]
  have hclamp : clamp (byteOffset source i + m : Nat) (Utf8.encode source).length =
      (Utf8.encode (source.take i)).length + m := by
    rw [clamp, Int.toNat_natCast, byteOffset, hsplit, List.length_append, List.length_append]
    omega
  rw [Position.ofOffset, hclamp, hsplit, List.take_length_add_append,
    List.take_append_of_le_length hlt.le, behind_append_take _ hm hlt, ← htake, behind_encode_take]

/-- Characters that follow each other stand at different places. -/
lemma characterAt_succ_ne (hc : source[i]? = some c) :
    characterAt source (i + 1) ≠ characterAt source i := by
  rw [characterAt, List.take_add_one, hc, Option.toList_some, characterAt]
  by_cases hfeed : c = '\n'
  · subst hfeed
    rw [List.count_append, List.count_singleton_self, ne_eq, Position.mk.injEq]
    omega
  · rw [List.rtakeWhile_concat_pos _ _ _ (by simpa using hfeed), List.length_append,
      List.length_singleton, ne_eq, Position.mk.injEq]
    omega

end Positions

/-! ## Locations -/

/-- The text of a location. -/
def locationText (offset length file : Int) : List Char :=
  signedDecimal offset ++ ':' :: (signedDecimal length ++ ':' :: signedDecimal file)

/-- A location is read from its text. -/
lemma read_locationText (data : Option Bytes) {offset length file : Int}
    (hoffset : Integer.isWritable offset = true) (hlength : Integer.isWritable length = true)
    (hfile : Integer.isWritable file = true) :
    Location.read data (locationText offset length file)
      = .ok (.ofSpan data offset length file) := by
  have hcolon : ∀ n, ':' ∉ signedDecimal n := fun n h =>
    absurd (Integer.isNumeralChar_of_mem_signedDecimal h) (by decide)
  rw [Location.read, locationText, splitOn_append_cons (hcolon offset),
    splitOn_append_cons (hcolon length), splitOn_of_not_mem (hcolon file)]
  simp only [Integer.readText_signedDecimal hoffset, Integer.readText_signedDecimal hlength,
    Integer.readText_signedDecimal hfile]
  rfl

/-- The last byte of a span stands for the last character if that is all of the character, and for
the one behind it if it is not. -/
lemma last_ofSpan {source : List Char} {i j : Nat} {c : Char} (hij : i ≤ j)
    (hc : source[j]? = some c) (file : Int) :
    (Location.ofSpan (some (Utf8.encode source)) (byteOffset source i)
        (byteOffset source (j + 1) - byteOffset source i) file).last =
      characterAt source (if c.toNat < 0x80 then j else j + 1) := by
  have hle : byteOffset source i ≤ byteOffset source j :=
    Utf8.length_encode_le (List.take_prefix_take_left hij)
  have hbytes := byteOffset_succ hc
  have hpos : 0 < (String.utf8EncodeChar c).length := by
    rw [String.length_utf8EncodeChar]
    exact c.utf8Size_pos
  have hlast : (byteOffset source i : Int) +
      max ((byteOffset source (j + 1) : Int) - byteOffset source i - 1) 0 =
      (byteOffset source j + ((String.utf8EncodeChar c).length - 1) : Nat) := by
    omega
  simp only [Location.ofSpan, hlast]
  split
  next hascii =>
    have hone := Utf8.length_utf8EncodeChar_eq_one_iff.mpr hascii
    rw [hone, Nat.sub_self, Nat.add_zero, ofOffset_byteOffset]
  next hwide =>
    have hmore := mt Utf8.length_utf8EncodeChar_eq_one_iff.mp hwide
    exact ofOffset_inside hc (by omega) (by omega)

/-- **The positions of a span are those of its first and its last character, if the last one is in
ASCII.**  The first one always is.  The span is that of the characters from one with an index up to
one in front of another index, and described by its bytes. -/
theorem positions_of_span_iff {source : List Char} {i j : Nat} {c : Char} (hij : i < j)
    (hc : source[j - 1]? = some c) {file : Int}
    (hsize : Integer.isWritable (Utf8.encode source).length = true)
    (hfile : Integer.isWritable file = true) :
    ∃ l, Location.read (some (Utf8.encode source))
        (locationText (byteOffset source i) (byteOffset source j - byteOffset source i) file)
          = .ok l ∧
      l.first = characterAt source i ∧
      (l.last = characterAt source (j - 1) ↔ c.toNat < 0x80) := by
  obtain ⟨j, rfl⟩ : ∃ k, j = k + 1 := ⟨j - 1, by omega⟩
  rw [Nat.add_sub_cancel] at hc ⊢
  have hbegin : byteOffset source i ≤ byteOffset source (j + 1) :=
    Utf8.length_encode_le (List.take_prefix_take_left (by omega))
  have hend : byteOffset source (j + 1) ≤ (Utf8.encode source).length :=
    Utf8.length_encode_le (List.take_prefix _ source)
  have hoffset : Integer.isWritable (byteOffset source i) = true :=
    Integer.isWritable_of_natAbs_le (by omega) hsize
  have hlength : Integer.isWritable (byteOffset source (j + 1) - byteOffset source i) = true :=
    Integer.isWritable_of_natAbs_le (by omega) hsize
  refine ⟨_, read_locationText _ hoffset hlength hfile, ofOffset_byteOffset source i, ?_⟩
  rw [last_ofSpan (by omega) hc]
  split
  next hascii => simp [hascii]
  next hwide => simp [hwide, characterAt_succ_ne hc]

/-- A closing brace behind an umlaut and a line break. -/
theorem positions_of_span_brace :
    ∃ l, Location.read (some (Utf8.encode ['{', 'ü', '\n', '}'])) (locationText 1 4 (-1)) = .ok l ∧
      l.first = ⟨1, 1⟩ ∧ l.last = ⟨2, 0⟩ := by
  have hc : ['{', 'ü', '\n', '}'][4 - 1]? = some '}' := rfl
  have hsize : Integer.isWritable (Utf8.encode ['{', 'ü', '\n', '}']).length = true := by
    decide +kernel
  have hfile : Integer.isWritable (-1) = true := by decide +kernel
  obtain ⟨l, hread, hfirst, hlast⟩ :=
    positions_of_span_iff (show 1 < 4 by decide) hc hsize hfile
  exact ⟨l, hread, hfirst, hlast.mpr (by decide)⟩

/-- An umlaut by itself: its last byte does not stand for it. -/
theorem umlaut_without_last_position :
    ¬∀ (source : List Char) (i j : Nat) (file : Int) (l : Location),
      i < j → j ≤ source.length →
      Location.read (some (Utf8.encode source))
        (locationText (byteOffset source i) (byteOffset source j - byteOffset source i) file)
          = .ok l →
      l.first = characterAt source i ∧ l.last = characterAt source (j - 1) := by
  intro hall
  have h := hall ['ü'] 0 1 0 ⟨0, 2, 0, ⟨1, 0⟩, ⟨1, 1⟩⟩ (by decide) (by decide) (by decide +kernel)
  exact absurd h.2 (by decide)

end HoneypotAudit.Source
