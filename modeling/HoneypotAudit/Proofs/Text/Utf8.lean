import HoneypotAudit.Text.Utf8
import Mathlib.Data.List.Induction

/-!
# UTF-8 both ways

Every text is read back from its UTF-8 bytes (`Utf8.decode_encode`).  The step is a single
character: `next_utf8EncodeChar` reads it off the front of whatever follows.
-/

namespace HoneypotAudit.Text.Utf8

/-! ## Continuation bytes -/

/-- A byte in its window adds its six bits. -/
lemma follow_cons {w : Window} {b : UInt8} (h : w.holds b = true) {bits : Nat}
    {ws : List Window} {bs : Bytes} {n : Nat}
    (hrest : follow (bits * 64 + (b.toNat - 0x80)) ws bs = .ok n) :
    follow bits (w :: ws) (b :: bs) = .ok n := by
  simp only [follow, if_pos h, hrest]

/-- A continuation byte of six bits. -/
def continuation (n : Nat) : UInt8 :=
  UInt8.ofNat (n % 0x40 + 0x80)

@[simp] lemma toNat_continuation (n : Nat) : (continuation n).toNat = n % 0x40 + 0x80 := by
  rw [continuation, UInt8.toNat_ofNat']
  omega

lemma plain_holds (n : Nat) : plain.holds (continuation n) = true := by
  simp [plain, Window.holds]
  omega

/-! ## One character -/

/-- A character whose first byte announces what follows. -/
lemma next_eq_char {b : UInt8} {bs : Bytes} {bits n : Nat} {ws : List Window}
    (hannounce : announce? b = some (bits, ws)) (hfollow : follow bits ws bs = .ok n) :
    next b bs = .char (Char.ofNat n) (ws.length + 1) := by
  simp only [next, hannounce, hfollow]

/-- Code numbers of characters leave out the surrogates. -/
lemma toNat_range (c : Char) : c.toNat < 0xD800 ∨ 0xDFFF < c.toNat ∧ c.toNat < 0x110000 :=
  c.valid

/-- The number of a first byte. -/
lemma toNat_first {n mark : Nat} (h : n + mark < 0x100) :
    (UInt8.ofNat (n + mark)).toNat = n + mark := by
  rw [UInt8.toNat_ofNat']
  omega

/-- The bytes of a character by its code number. -/
lemma utf8EncodeChar_eq (c : Char) : String.utf8EncodeChar c =
    if c.toNat ≤ 0x7F then [UInt8.ofNat (c.toNat + 0)]
    else if c.toNat ≤ 0x7FF then
      [UInt8.ofNat (c.toNat / 0x40 + 0xC0), continuation c.toNat]
    else if c.toNat ≤ 0xFFFF then
      [UInt8.ofNat (c.toNat / 0x1000 + 0xE0), continuation (c.toNat / 0x40), continuation c.toNat]
    else
      [UInt8.ofNat (c.toNat / 0x40000 + 0xF0), continuation (c.toNat / 0x1000),
        continuation (c.toNat / 0x40), continuation c.toNat] := by
  have hrange := toNat_range c
  have hval : c.val.toNat = c.toNat := rfl
  simp only [String.utf8EncodeChar, hval, continuation]
  by_cases h₁ : c.toNat ≤ 0x7F
  · rw [if_pos h₁, if_pos h₁, Nat.add_zero]
  rw [if_neg h₁, if_neg h₁]
  by_cases h₂ : c.toNat ≤ 0x7FF
  · rw [if_pos h₂, if_pos h₂, Nat.mod_eq_of_lt (show c.toNat / 64 < 0x20 by omega)]
  rw [if_neg h₂, if_neg h₂]
  by_cases h₃ : c.toNat ≤ 0xFFFF
  · rw [if_pos h₃, if_pos h₃, Nat.mod_eq_of_lt (show c.toNat / 4096 < 0x10 by omega)]
  rw [if_neg h₃, if_neg h₃, Nat.mod_eq_of_lt (show c.toNat / 262144 < 0x08 by omega)]

/-! Each number of bytes has a first byte of its own.  The window of the second byte leaves out what
is overlong and the surrogates. -/

lemma announce?_one {n : Nat} (hn : n ≤ 0x7F) :
    announce? (UInt8.ofNat (n + 0)) = some (n, []) := by
  simp only [announce?, toNat_first (show n + 0 < 0x100 by omega)]
  rw [if_pos (by omega), Nat.add_zero]

lemma announce?_two {n : Nat} (hlow : ¬n ≤ 0x7F) (hn : n ≤ 0x7FF) :
    announce? (UInt8.ofNat (n / 0x40 + 0xC0)) = some (n / 0x40, [plain]) := by
  simp only [announce?, toNat_first (show n / 0x40 + 0xC0 < 0x100 by omega)]
  rw [if_neg (by omega), if_neg (by omega), if_pos (by omega), Nat.add_sub_cancel]

lemma announce?_three {n : Nat} (hlow : ¬n ≤ 0x7FF) (hn : n ≤ 0xFFFF)
    (hrange : n < 0xD800 ∨ 0xDFFF < n) :
    ∃ w, announce? (UInt8.ofNat (n / 0x1000 + 0xE0)) = some (n / 0x1000, [w, plain]) ∧
      w.holds (continuation (n / 0x40)) = true := by
  simp only [announce?, toNat_first (show n / 0x1000 + 0xE0 < 0x100 by omega)]
  rw [if_neg (by omega), if_neg (by omega), if_neg (by omega), if_pos (by omega),
    Nat.add_sub_cancel]
  refine ⟨_, rfl, ?_⟩
  split
  · simp [Window.holds]
    omega
  split
  · simp [Window.holds]
    omega
  · exact plain_holds _

lemma announce?_four {n : Nat} (hlow : ¬n ≤ 0xFFFF) (hn : n < 0x110000) :
    ∃ w, announce? (UInt8.ofNat (n / 0x40000 + 0xF0)) = some (n / 0x40000, [w, plain, plain]) ∧
      w.holds (continuation (n / 0x1000)) = true := by
  simp only [announce?, toNat_first (show n / 0x40000 + 0xF0 < 0x100 by omega)]
  rw [if_neg (by omega), if_neg (by omega), if_neg (by omega), if_neg (by omega),
    if_pos (by omega), Nat.add_sub_cancel]
  refine ⟨_, rfl, ?_⟩
  split
  · simp [Window.holds]
    omega
  split
  · simp [Window.holds]
    omega
  · exact plain_holds _

/-- The first byte of a character announces the bytes behind it, and these bring back the rest of
the code number, whatever comes behind them. -/
lemma exists_announced (c : Char) : ∃ b bs bits ws,
    String.utf8EncodeChar c = b :: bs ∧ announce? b = some (bits, ws) ∧ ws.length = bs.length ∧
      ∀ rest, follow bits ws (bs ++ rest) = .ok c.toNat := by
  have hrange := toNat_range c
  rw [utf8EncodeChar_eq]
  split
  next h =>
    exact ⟨_, _, _, _, rfl, announce?_one h, rfl, fun _ => rfl⟩
  split
  next h₁ h₂ =>
    refine ⟨_, _, _, _, rfl, announce?_two h₁ h₂, rfl, fun rest => ?_⟩
    refine follow_cons (plain_holds _) ?_
    simp only [toNat_continuation, follow, Except.ok.injEq]
    omega
  split
  next h₁ h₂ h₃ =>
    obtain ⟨w, hannounce, hw⟩ := announce?_three h₂ h₃ (by omega)
    refine ⟨_, _, _, _, rfl, hannounce, rfl, fun rest => ?_⟩
    refine follow_cons hw (follow_cons (plain_holds _) ?_)
    simp only [toNat_continuation, follow, Except.ok.injEq]
    omega
  next h₁ h₂ h₃ =>
    obtain ⟨w, hannounce, hw⟩ := announce?_four h₃ (by omega)
    refine ⟨_, _, _, _, rfl, hannounce, rfl, fun rest => ?_⟩
    refine follow_cons hw (follow_cons (plain_holds _) (follow_cons (plain_holds _) ?_))
    simp only [toNat_continuation, follow, Except.ok.injEq]
    omega

/-- **A character is read off its bytes**, whatever comes behind them. -/
lemma next_utf8EncodeChar (c : Char) (rest : Bytes) :
    ∃ b bs, String.utf8EncodeChar c = b :: bs ∧ next b (bs ++ rest) = .char c (bs.length + 1) := by
  obtain ⟨b, bs, bits, ws, hc, hannounce, hlength, hfollow⟩ := exists_announced c
  refine ⟨b, bs, hc, ?_⟩
  rw [next_eq_char hannounce (hfollow rest), Char.ofNat_toNat, hlength]

/-- Bytes that were to be followed by more of them stop at their end. -/
lemma follow_take {ws : List Window} {bs : Bytes} {bits n j : Nat}
    (hfollow : follow bits ws bs = .ok n) (hj : j < ws.length) :
    follow bits ws (bs.take j) = .error (j, .unexpectedEnd) := by
  induction ws generalizing bits bs n j with
  | nil => simp at hj
  | cons w ws ih =>
    cases bs with
    | nil => simp [follow] at hfollow
    | cons b bs =>
      cases j with
      | zero => rfl
      | succ j =>
        rw [follow] at hfollow
        split at hfollow
        next hb =>
          have hrest : ∃ m, follow (bits * 64 + (b.toNat - 0x80)) ws bs = .ok m := by
            split at hfollow
            next m hm => exact ⟨m, hm⟩
            next => cases hfollow
          obtain ⟨m, hm⟩ := hrest
          rw [List.take_succ_cons, follow, if_pos hb, ih hm (by simpa using hj)]
        next => cases hfollow

/-- A part of a character is the beginning of none, all of it. -/
lemma next_take (c : Char) {j : Nat} (hj : 0 < j) (hlt : j < (String.utf8EncodeChar c).length) :
    ∃ b bs, (String.utf8EncodeChar c).take j = b :: bs ∧
      next b bs = .bad (bs.length + 1) .unexpectedEnd := by
  obtain ⟨b, bs, bits, ws, hc, hannounce, hlength, hfollow⟩ := exists_announced c
  rw [hc, List.length_cons] at hlt
  obtain ⟨j, rfl⟩ := Nat.exists_eq_succ_of_ne_zero (Nat.ne_of_gt hj)
  have hfollow := hfollow []
  rw [List.append_nil] at hfollow
  refine ⟨b, bs.take j, by rw [hc, List.take_succ_cons], ?_⟩
  have hlength' : (bs.take j).length = j := List.length_take_of_le (by omega)
  rw [next, hannounce, hlength']
  simp only [follow_take hfollow (show j < ws.length by omega)]

/-! ## Whole texts -/

@[simp] lemma encode_nil : encode [] = [] :=
  rfl

lemma encode_cons (c : Char) (cs : List Char) :
    encode (c :: cs) = String.utf8EncodeChar c ++ encode cs :=
  rfl

@[simp] lemma encode_append (cs ds : List Char) : encode (cs ++ ds) = encode cs ++ encode ds :=
  List.flatMap_append

/-- One more character is one more piece of the bytes. -/
lemma encode_take_succ {cs : List Char} {i : Nat} {c : Char} (hc : cs[i]? = some c) :
    encode (cs.take (i + 1)) = encode (cs.take i) ++ String.utf8EncodeChar c := by
  rw [List.take_add_one, hc, Option.toList_some, encode_append, encode_cons, encode_nil,
    List.append_nil]

/-- A beginning of a text has no more bytes than the text. -/
lemma length_encode_le {cs ds : List Char} (h : cs <+: ds) :
    (encode cs).length ≤ (encode ds).length := by
  obtain ⟨behind, rfl⟩ := h
  rw [encode_append, List.length_append]
  exact Nat.le_add_right _ _

/-- The bytes of a text begin with those of its first character. -/
lemma exists_encode_cons (c : Char) (cs : List Char) :
    ∃ b bs, encode (c :: cs) = b :: (bs ++ encode cs) ∧
      next b (bs ++ encode cs) = .char c (bs.length + 1) := by
  obtain ⟨b, bs, hc, hnext⟩ := next_utf8EncodeChar c (encode cs)
  exact ⟨b, bs, by rw [encode_cons, hc, List.cons_append], hnext⟩

/-- **Every text is read back from its bytes**, at whatever position they start. -/
theorem decodeFrom_encode (cs : List Char) (position : Nat) :
    decodeFrom position (encode cs) = .ok cs := by
  induction cs generalizing position with
  | nil =>
    rw [encode_nil, decodeFrom]
  | cons c cs ih =>
    obtain ⟨b, bs, hsplit, hnext⟩ := exists_encode_cons c cs
    rw [hsplit, decodeFrom, hnext]
    simp only [Nat.add_sub_cancel, List.drop_left, ih]

theorem decode_encode (cs : List Char) : decode (encode cs) = .ok cs :=
  decodeFrom_encode cs 0

/-- The bytes of a text are read before whatever comes behind them. -/
lemma decodeLossy_encode_append (cs : List Char) (rest : Bytes) :
    decodeLossy (encode cs ++ rest) = cs ++ decodeLossy rest := by
  induction cs with
  | nil => rfl
  | cons c cs ih =>
    obtain ⟨b, bs, hc, hnext⟩ := next_utf8EncodeChar c (encode cs ++ rest)
    rw [encode_cons, hc, List.cons_append, List.cons_append, List.append_assoc, decodeLossy, hnext]
    simp only [Nat.add_sub_cancel, List.drop_left, ih, List.cons_append]

/-- Nothing is replaced in the bytes of a text. -/
theorem decodeLossy_encode (cs : List Char) : decodeLossy (encode cs) = cs := by
  have h := decodeLossy_encode_append cs []
  rwa [List.append_nil, decodeLossy, List.append_nil] at h

/-- **A part of a character is replaced by one character.** -/
theorem decodeLossy_take (c : Char) {j : Nat} (hj : 0 < j)
    (hlt : j < (String.utf8EncodeChar c).length) :
    decodeLossy ((String.utf8EncodeChar c).take j) = [replacement] := by
  obtain ⟨b, bs, hpart, hnext⟩ := next_take c hj hlt
  rw [hpart, decodeLossy, hnext]
  simp only [Nat.add_sub_cancel, List.drop_length]
  rw [decodeLossy]

/-! ## Bytes of one character

Bytes below `80` stand for themselves: no other character has one of them among its bytes. -/

/-- The characters of ASCII are those that have a single byte. -/
lemma length_utf8EncodeChar_eq_one_iff {c : Char} :
    (String.utf8EncodeChar c).length = 1 ↔ c.toNat < 0x80 := by
  rw [utf8EncodeChar_eq]
  split
  next h =>
    rw [List.length_singleton]
    omega
  split
  next h _ =>
    simp only [List.length_cons]
    omega
  split
  all_goals
    simp only [List.length_cons]
    omega

lemma toNat_eq_of_mem {c : Char} {b : UInt8} (hb : b ∈ String.utf8EncodeChar c)
    (hlow : b.toNat < 0x80) : c.toNat = b.toNat := by
  have hrange := toNat_range c
  have hcontinuation {n : Nat} (h : b = continuation n) : 0x80 ≤ b.toNat := by
    rw [h, toNat_continuation]
    omega
  have hfirst {n mark : Nat} (h : b = UInt8.ofNat (n + mark)) (hsmall : n + mark < 0x100) :
      b.toNat = n + mark := by
    rw [h, toNat_first hsmall]
  rw [utf8EncodeChar_eq] at hb
  split at hb
  next h =>
    exact (hfirst (List.mem_singleton.mp hb) (by omega)).symm
  split at hb
  next h₁ h₂ =>
    rcases List.mem_cons.mp hb with h | h
    · have := hfirst h (by omega)
      omega
    · have := hcontinuation (List.mem_singleton.mp h)
      omega
  split at hb
  all_goals
    simp only [List.mem_cons, List.not_mem_nil, or_false] at hb
    rcases hb with h | hb
    · have := hfirst h (by omega)
      omega
  · rcases hb with h | h <;> have := hcontinuation h <;> omega
  · rcases hb with h | h | h <;> have := hcontinuation h <;> omega

end HoneypotAudit.Text.Utf8
