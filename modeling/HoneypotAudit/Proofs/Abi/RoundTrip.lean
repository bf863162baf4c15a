import HoneypotAudit.Proofs.Abi.Encoding

/-!
# Decoding undoes encoding

Where data holds the encoding of a value of a standard type, the decoder reads the value
(`readValue_encode`); for the values of a whole signature this is `decode_encodeAll`, with anything
behind the encoding.

Data holds bytes at a position if they stand there (`Holds`), whatever comes before and behind.
Single words and byte strings are read back first.  A list of members is read back if its members
are: the statement is about heads and bodies that stand in two places of the data
(`readMembers_heads`), since this is what is left of the layout behind its first member.
-/

namespace HoneypotAudit.Abi

open HoneypotAudit.Text HoneypotAudit.Outcome

/-! ## Data that holds bytes -/

/-- Bytes stand in the data at a position. -/
def Holds (data : Bytes) (pos : Nat) (bs : Bytes) : Prop :=
  bs <+: data.drop pos

namespace Holds

variable {data bs cs : Bytes} {pos : Nat}

lemma left (h : Holds data pos (bs ++ cs)) : Holds data pos bs :=
  (List.prefix_append bs cs).trans h

lemma right (h : Holds data pos (bs ++ cs)) : Holds data (pos + bs.length) cs := by
  obtain ⟨rest, hrest⟩ := h
  refine ⟨rest, ?_⟩
  rw [← List.drop_drop, ← hrest, List.append_assoc, List.drop_left]

lemma take_eq (h : Holds data pos bs) : (data.drop pos).take bs.length = bs :=
  (List.prefix_iff_eq_take.mp h).symm

lemma length_le (h : Holds data pos bs) : bs.length ≤ data.length - pos := by
  rw [← List.length_drop]
  exact List.IsPrefix.length_le h

end Holds

/-- Data that begins with bytes holds them at its start. -/
lemma holds_append (bs rest : Bytes) : Holds (bs ++ rest) 0 bs :=
  List.prefix_append bs rest

/-! ## Words -/

section Words

variable {data : Bytes} {pos : Nat}

lemma readWord_eq {w : Bytes} (hw : w.length = wordSize) (h : Holds data pos w) :
    readWord data pos = .ok w := by
  have htake : (data.drop pos).take wordSize = w := hw ▸ h.take_eq
  simp only [readWord, htake, hw, if_true]

lemma readNat_word {n : Nat} (hn : n < 2 ^ (8 * wordSize)) (h : Holds data pos (word n)) :
    readNat data pos = .ok n := by
  rw [readNat, readWord_eq (length_word n) h]
  simp only [Except.map, word, natOfBytes_bytesOfNat, Nat.mod_eq_of_lt hn]

lemma checkPadding_replicate (fill : UInt8) (n : Nat) :
    checkPadding fill (List.replicate n fill) = .ok () := by
  simp [checkPadding]

/-- The two ends of a word. -/
lemma rightAligned_append {size : Nat} {padding body : Bytes}
    (hpadding : padding.length = wordSize - size) :
    rightAligned (8 * size) (padding ++ body) = (body, padding) := by
  rw [rightAligned, Nat.mul_div_cancel_left size (by decide), ← hpadding, List.drop_left,
    List.take_left]

lemma readUnsigned_word {size : Nat} (hsize : size ≤ wordSize) {n : Nat} (hn : n < 2 ^ (8 * size))
    (h : Holds data pos (word n)) : readUnsigned (8 * size) data pos = .ok n := by
  have hword : word n = List.replicate (wordSize - size) 0 ++ bytesOfNat size n := by
    have hadd := bytesOfNat_add hn (wordSize - size) 0
    rwa [Nat.sub_add_cancel hsize, Nat.zero_mul, Nat.zero_add, bytesOfNat_zero] at hadd
  rw [hword] at h
  rw [readUnsigned, readWord_eq (by simp; omega) h, ok_bind,
    rightAligned_append (by simp)]
  simp only [checkPadding_replicate, ok_bind, natOfBytes_bytesOfNat, Nat.mod_eq_of_lt hn]

lemma intOfBytes_bytesOfNat {size r : Nat} (hr : r < 2 ^ (8 * size)) :
    intOfBytes (bytesOfNat size r)
      = if r < 2 ^ (8 * size - 1) then (r : Int) else (r : Int) - 2 ^ (8 * size) := by
  simp only [intOfBytes_eq, natOfBytes_bytesOfNat, Nat.mod_eq_of_lt hr, length_bytesOfNat]

/-- The word of a negative number is that of the greatest number of its front bytes, then `r`. -/
lemma signedWord_of_neg {size r : Nat} (hsize : size ≤ wordSize) {n : Int} (hneg : n < 0)
    (hr : (r : Int) = 2 ^ (8 * size) + n) :
    signedWord n = List.replicate (wordSize - size) 0xFF ++ bytesOfNat size r := by
  have hlt : r < 2 ^ (8 * size) := by exact_mod_cast (by omega : (r : Int) < 2 ^ (8 * size))
  have hsplit : (2 : Int) ^ (8 * (wordSize - size)) * 2 ^ (8 * size) = 2 ^ (8 * wordSize) := by
    rw [← Int.pow_add, ← Nat.mul_add, Nat.sub_add_cancel hsize]
  have hfront : ((2 ^ (8 * (wordSize - size)) - 1 : Nat) : Int)
      = 2 ^ (8 * (wordSize - size)) - 1 := by
    rw [Int.ofNat_sub Nat.one_le_two_pow]
    norm_cast
  have hcast : (((2 ^ (8 * (wordSize - size)) - 1) * 2 ^ (8 * size) + r : Nat) : Int)
      = n + 2 ^ (8 * wordSize) := by
    rw [Int.natCast_add, Int.natCast_mul, hfront, Int.sub_mul, hr]
    push_cast
    omega
  have hmod : (n % 2 ^ (8 * wordSize)).toNat
      = (2 ^ (8 * (wordSize - size)) - 1) * 2 ^ (8 * size) + r := by
    have hword : (2 : Int) ^ (8 * size) ≤ 2 ^ (8 * wordSize) := by
      exact_mod_cast Nat.pow_le_pow_right (n := 2) (by decide) (by omega)
    rw [← Int.add_emod_right, Int.emod_eq_of_lt (by omega) (by omega), ← hcast]
    exact Int.toNat_natCast _
  have hadd := bytesOfNat_add hlt (wordSize - size) (2 ^ (8 * (wordSize - size)) - 1)
  rw [Nat.sub_add_cancel hsize, bytesOfNat_ones] at hadd
  rw [signedWord, word, hmod, hadd]

lemma signedWord_natCast {size r : Nat} (hsize : size ≤ wordSize) (hr : r < 2 ^ (8 * size)) :
    signedWord r = List.replicate (wordSize - size) 0x00 ++ bytesOfNat size r := by
  have hword : r < 2 ^ (8 * wordSize) :=
    Nat.lt_of_lt_of_le hr (Nat.pow_le_pow_right (by decide) (by omega))
  have hmod : ((r : Int) % 2 ^ (8 * wordSize)).toNat = 0 * 2 ^ (8 * size) + r := by
    rw [Int.emod_eq_of_lt (by omega) (by exact_mod_cast hword)]
    simp
  have hadd := bytesOfNat_add hr (wordSize - size) 0
  rw [Nat.sub_add_cancel hsize, bytesOfNat_zero] at hadd
  rw [signedWord, word, hmod, hadd]

/-- The word of a signed number repeats the sign in front of its own bytes. -/
lemma exists_signedWord_eq {size : Nat} (hpos : 0 < size) (hsize : size ≤ wordSize) {n : Int}
    (hn : -2 ^ (8 * size - 1) ≤ n ∧ n < 2 ^ (8 * size - 1)) :
    ∃ r, signedWord n
        = List.replicate (wordSize - size) (if n < 0 then 0xFF else 0x00) ++ bytesOfNat size r ∧
      intOfBytes (bytesOfNat size r) = n := by
  have hhalf := two_pow_pred_add (8 * size) (by omega)
  by_cases hneg : n < 0
  · obtain ⟨r, hr⟩ : ∃ r : Nat, (r : Int) = 2 ^ (8 * size) + n :=
      ⟨(2 ^ (8 * size) + n).toNat, Int.toNat_of_nonneg (by omega)⟩
    have hlt : r < 2 ^ (8 * size) := by exact_mod_cast (by omega : (r : Int) < 2 ^ (8 * size))
    have hhigh : ¬r < 2 ^ (8 * size - 1) := fun h => by
      have : (r : Int) < 2 ^ (8 * size - 1) := by exact_mod_cast h
      omega
    refine ⟨r, by rw [if_pos hneg, signedWord_of_neg hsize hneg hr], ?_⟩
    rw [intOfBytes_bytesOfNat hlt, if_neg hhigh]
    omega
  · obtain ⟨r, rfl⟩ : ∃ r : Nat, n = r := ⟨n.toNat, (Int.toNat_of_nonneg (by omega)).symm⟩
    have hlow : r < 2 ^ (8 * size - 1) := by exact_mod_cast hn.2
    have hlt : r < 2 ^ (8 * size) :=
      Nat.lt_of_lt_of_le hlow (Nat.pow_le_pow_right (by decide) (by omega))
    refine ⟨r, by rw [if_neg hneg, signedWord_natCast hsize hlt], ?_⟩
    rw [intOfBytes_bytesOfNat hlt, if_pos hlow]

lemma readSigned_word {size : Nat} (hpos : 0 < size) (hsize : size ≤ wordSize) {n : Int}
    (hn : -2 ^ (8 * size - 1) ≤ n ∧ n < 2 ^ (8 * size - 1)) (h : Holds data pos (signedWord n)) :
    readSigned (8 * size) data pos = .ok n := by
  obtain ⟨r, hword, hint⟩ := exists_signedWord_eq hpos hsize hn
  rw [hword] at h
  rw [readSigned, readWord_eq (by simp; omega) h, ok_bind, rightAligned_append (by simp)]
  simp only [hint, checkPadding_replicate, ok_bind]

lemma readBoolean_word (b : Bool) (h : Holds data pos (word (if b then 1 else 0))) :
    readBoolean data pos = .ok b := by
  rw [readBoolean, readWord_eq (length_word _) h, ok_bind]
  cases b <;> decide

lemma readAddress_word {bs : Bytes} (hbs : bs.length = 20) (h : Holds data pos (rightInWord bs)) :
    readAddress data pos = .ok (String.ofList ('0' :: 'x' :: Hex.encode bs)) := by
  have hword : (rightInWord bs).length = wordSize := by simp [rightInWord, hbs, wordSize]
  have hends : rightAligned (8 * 20) (rightInWord bs)
      = (bs, List.replicate (wordSize - bs.length) 0) := rightAligned_append (by simp [hbs])
  rw [readAddress, readWord_eq hword h, ok_bind, show 160 = 8 * 20 from rfl, hends]
  simp only [checkPadding_replicate, ok_bind]

lemma readFixedBytes_word {size : Nat} (hsize : size ≤ wordSize) {bs : Bytes}
    (hbs : bs.length = size) (h : Holds data pos (leftInWord bs)) :
    readFixedBytes size data pos = .ok bs := by
  have hword : (leftInWord bs).length = wordSize := by
    simp [leftInWord, hbs]
    omega
  rw [readFixedBytes, readWord_eq hword h, ok_bind, ← hbs, leftInWord, List.drop_left,
    List.take_left]
  simp only [checkPadding_replicate, ok_bind]

/-! ## Byte strings -/

lemma le_roundUp (n : Nat) : n ≤ roundUp n := by
  simp only [roundUp, wordSize]
  omega

variable (hsize : data.length < lengthLimit)

include hsize

lemma readBytes_sizedBytes {bs : Bytes} (h : Holds data pos (sizedBytes bs)) :
    readBytes data pos = .ok bs := by
  have hround := le_roundUp bs.length
  have hlength : (bs ++ List.replicate (roundUp bs.length - bs.length) 0).length
      = roundUp bs.length := by
    simp only [List.length_append, List.length_replicate]
    omega
  have hbody := h.right
  rw [length_word] at hbody
  have htake : (data.drop (pos + wordSize)).take (roundUp bs.length)
      = bs ++ List.replicate (roundUp bs.length - bs.length) 0 := by
    rw [← hbody.take_eq, hlength]
  have hpadded : roundUp bs.length < lengthLimit := by
    have hle := hbody.length_le
    omega
  have hword : bs.length < 2 ^ (8 * wordSize) := by
    have hlimit : lengthLimit ≤ 2 ^ (8 * wordSize) := by decide
    omega
  rw [readBytes, readNat_word hword h.left, ok_bind]
  simp only [htake, hlength, Nat.lt_irrefl, if_false, if_neg (Nat.not_le.mpr hpadded),
    List.drop_left, List.take_left, checkPadding_replicate, ok_bind]

lemma readString_sizedBytes {s : String} (h : Holds data pos (sizedBytes (Utf8.encode s.toList))) :
    readString data pos = .ok s := by
  rw [readString, readBytes_sizedBytes hsize h, ok_bind]
  simp only [Utf8.decode_encode, String.ofList_toList]

end Words

/-! ## Members -/

section Members

variable {data : Bytes}

/-- A value of a type is read back wherever the data holds its encoding, and a static one ends where
its encoding does. -/
def ReadsBack (data : Bytes) (t : AbiType) (v : Value) : Prop :=
  ∀ pos, Holds data pos (encode t v) →
    ∃ p, readValue data t pos = .ok (v, p) ∧ (t.isDynamic = false → p = pos + (encode t v).length)

/-- A member that can be laid out: its value is read back, and is not empty. -/
structure Solid (data : Bytes) (t : AbiType) (v : Value) : Prop where
  readsBack : ReadsBack data t v
  size : wordSize ≤ (encode t v).length

variable (hsize : data.length < lengthLimit) {ts : List AbiType} {vs : List Value}
  (hsolid : List.Forall₂ (Solid data) ts vs)

include hsize

/-- A body that is not empty lies at an offset that a word can hold. -/
lemma readNat_offset {start offset pos : Nat} {body : Bytes} (hbody : 0 < body.length)
    (hhead : Holds data pos (word offset)) (h : Holds data (start + offset) body) :
    readNat data pos = .ok offset ∧ start + offset < data.length := by
  have hle := h.length_le
  have hlimit : lengthLimit ≤ 2 ^ (8 * wordSize) := by decide
  exact ⟨readNat_word (by omega) hhead, by omega⟩

include hsolid

/-- **Members are read back** from their heads and bodies, wherever both stand. -/
theorem readMembers_heads {start offset pos : Nat}
    (hheads : Holds data pos (heads offset (List.zipWith part ts vs)))
    (hbodies : Holds data (start + offset) (bodies (List.zipWith part ts vs))) :
    readMembers data start ts pos
      = .ok (vs, pos + (heads offset (List.zipWith part ts vs)).length) := by
  induction hsolid generalizing offset pos with
  | nil => simp [readMembers, heads]
  | @cons t v ts vs hmember _ ih =>
    rw [readMembers]
    cases ht : t.isDynamic with
    | true =>
      simp only [List.zipWith_cons_cons, heads, bodies, part, ht, if_true] at hheads hbodies ⊢
      obtain ⟨hoffset, -⟩ := readNat_offset hsize
        (Nat.lt_of_lt_of_le (by decide) hmember.size) hheads.left hbodies.left
      obtain ⟨p, hread, -⟩ := hmember.readsBack _ hbodies.left
      have hrest := hheads.right
      have hbodies' := hbodies.right
      rw [length_word] at hrest
      rw [Nat.add_assoc] at hbodies'
      simp only [readMember, if_true, hoffset, ok_bind, hread, ih hrest hbodies',
        List.length_append, length_word, Nat.add_assoc]
    | false =>
      simp only [List.zipWith_cons_cons, heads, bodies, part, ht, Bool.false_eq_true,
        if_false] at hheads hbodies ⊢
      obtain ⟨p, hread, hp⟩ := hmember.readsBack _ hheads.left
      obtain rfl := hp ht
      simp only [readMember, Bool.false_eq_true, if_false, hread, ok_bind,
        ih hheads.right hbodies, List.length_append, Nat.add_assoc]

/-- The offsets among the heads of members point behind the heads and into the data. -/
theorem checkMembers_heads {start offset pos bound : Nat} (hbound : bound ≤ start + offset)
    (hheads : Holds data pos (heads offset (List.zipWith part ts vs)))
    (hbodies : Holds data (start + offset) (bodies (List.zipWith part ts vs))) :
    checkMembers data start bound ts pos = .ok () := by
  induction hsolid generalizing offset pos with
  | nil => rw [checkMembers]
  | @cons t v ts vs hmember _ ih =>
    rw [checkMembers]
    cases ht : t.isDynamic with
    | true =>
      simp only [List.zipWith_cons_cons, heads, bodies, part, ht, if_true] at hheads hbodies ⊢
      obtain ⟨hoffset, hinside⟩ := readNat_offset hsize
        (Nat.lt_of_lt_of_le (by decide) hmember.size) hheads.left hbodies.left
      have hpointer : checkPointer .tuple data start bound pos = .ok () := by
        rw [checkPointer, hoffset, ok_bind, if_neg (by omega)]
      have hrest := hheads.right
      have hbodies' := hbodies.right
      rw [length_word] at hrest
      rw [Nat.add_assoc] at hbodies'
      rw [hpointer, ok_bind]
      exact ih (by omega) hrest hbodies'
    | false =>
      simp only [List.zipWith_cons_cons, heads, bodies, part, ht, Bool.false_eq_true,
        if_false] at hheads hbodies ⊢
      obtain ⟨p, hread, hp⟩ := hmember.readsBack _ hheads.left
      obtain rfl := hp ht
      rw [hread, ok_bind]
      exact ih hbound hheads.right hbodies

end Members

/-! ## Arrays

An array is read like a tuple whose members all have the item type.
-/

section Arrays

variable {data : Bytes} {item : AbiType} {start : Nat}

lemma readRepeated_eq_readMembers (n pos : Nat) :
    readRepeated (readMember data item.isDynamic (readValue data item) start) n pos
      = readMembers data start (List.replicate n item) pos := by
  induction n generalizing pos with
  | zero => simp [readRepeated, readMembers]
  | succ n ih =>
    rw [List.replicate_succ, readMembers, readRepeated]
    simp only [ih]

lemma checkPointers_of_checkMembers (hitem : item.isDynamic = true) {bound n pos : Nat}
    (h : checkMembers data start bound (List.replicate n item) pos = .ok ()) :
    checkPointers data start bound n pos = .ok () := by
  induction n generalizing pos with
  | zero => rfl
  | succ n ih =>
    rw [List.replicate_succ, checkMembers, if_pos hitem] at h
    obtain ⟨⟨⟩, hpointer, hrest⟩ := bind_eq_ok_iff.mp h
    obtain ⟨offset, hoffset, hinside⟩ := bind_eq_ok_iff.mp hpointer
    have hinside' : ¬(start + offset < bound ∨ data.length ≤ start + offset) := fun hout => by
      simp [hout] at hinside
    rw [checkPointers, checkPointer, hoffset, ok_bind, if_neg hinside', ok_bind, ih hrest]

lemma zipWith_part_replicate (vs : List Value) :
    List.zipWith part (List.replicate vs.length item) vs = vs.map (part item) := by
  induction vs with
  | nil => rfl
  | cons v vs ih => simp [List.replicate_succ, ih]

lemma le_sum_headSize_of_solid {vs : List Value} (hsolid : ∀ v ∈ vs, Solid data item v) :
    wordSize * vs.length ≤ ((vs.map (part item)).map Part.headSize).sum := by
  have hparts : ∀ p ∈ vs.map (part item), wordSize ≤ p.headSize := by
    intro p hp
    obtain ⟨v, hmem, rfl⟩ := List.mem_map.mp hp
    exact wordSize_le_headSize (hsolid v hmem).size
  simpa using le_sum_headSize hparts

/-- **An array is read back** from the layout of its items. -/
theorem readArray_layOut (hsize : data.length < lengthLimit) {vs : List Value}
    (hsolid : ∀ v ∈ vs, Solid data item v) (h : Holds data start (layOut (vs.map (part item)))) :
    readArray data item.isDynamic (readValue data item) vs.length start
      = .ok (vs, start + (((vs.map (part item)).map Part.headSize).sum)) := by
  have hall : List.Forall₂ (Solid data) (List.replicate vs.length item) vs := by
    rw [List.forall₂_iff_get]
    refine ⟨by simp, fun i hi hv => ?_⟩
    simpa using hsolid _ (List.getElem_mem hv)
  rw [← zipWith_part_replicate] at h ⊢
  have hheads := h.left
  have hbodies := h.right
  rw [length_heads] at hbodies
  have hread := readMembers_heads hsize hall hheads hbodies
  rw [readArray_eq, readRepeated_eq_readMembers, hread, length_heads]
  cases hitem : item.isDynamic with
  | false => rfl
  | true =>
    have hbound : start + wordSize * vs.length ≤ start +
        ((List.zipWith part (List.replicate vs.length item) vs).map Part.headSize).sum := by
      rw [zipWith_part_replicate]
      exact Nat.add_le_add_left (le_sum_headSize_of_solid hsolid) start
    have hcheck := checkMembers_heads hsize hall hbound hheads hbodies
    rw [if_pos rfl, checkPointers_of_checkMembers hitem hcheck, ok_bind]

/-- Static parts have no bodies behind their heads. -/
lemma length_layOut_static (hitem : item.isDynamic = false) (vs : List Value) :
    (layOut (vs.map (part item))).length = ((vs.map (part item)).map Part.headSize).sum := by
  have hbodies : bodies (vs.map (part item)) = [] := by
    induction vs with
    | nil => rfl
    | cons v vs ih => simp [bodies, part, hitem] at ih ⊢; exact ih
  rw [layOut, hbodies, List.append_nil, length_heads]

end Arrays

/-! ## Whole values -/

section Values

variable {data : Bytes}

/-! ### Words and byte strings -/

/-- What is read of a single word is read back. -/
lemma readsBack_word {t : AbiType} {v : Value} (hlength : (encode t v).length = wordSize)
    (hread : ∀ pos, Holds data pos (encode t v) → readValue data t pos = .ok (v, pos + wordSize)) :
    ReadsBack data t v := by
  intro pos h
  exact ⟨pos + wordSize, hread pos h, fun _ => by rw [hlength]⟩

/-- Where a value of a dynamic type ends does not matter. -/
lemma readsBack_dynamic {t : AbiType} {v : Value} (ht : t.isDynamic = true)
    (hread : ∀ pos, Holds data pos (encode t v) → ∃ p, readValue data t pos = .ok (v, p)) :
    ReadsBack data t v := by
  intro pos h
  obtain ⟨p, hp⟩ := hread pos h
  exact ⟨p, hp, fun hstatic => by simp [ht] at hstatic⟩

lemma readsBack_unsigned {size n : Nat} (hsize : size ≤ wordSize) (hn : n < 2 ^ (8 * size)) :
    ReadsBack data (.unsigned (8 * size)) (.int n) := by
  refine readsBack_word (by rw [encode, length_word]) fun pos h => ?_
  rw [encode, Int.toNat_natCast] at h
  rw [readValue, readUnsigned_word hsize hn h, ok_bind]

lemma readsBack_signed {size : Nat} (hpos : 0 < size) (hsize : size ≤ wordSize) {n : Int}
    (hn : -2 ^ (8 * size - 1) ≤ n ∧ n < 2 ^ (8 * size - 1)) :
    ReadsBack data (.signed (8 * size)) (.int n) := by
  refine readsBack_word (by rw [encode, signedWord, length_word]) fun pos h => ?_
  rw [readValue, readSigned_word hpos hsize hn h, ok_bind]

lemma readsBack_boolean (b : Bool) : ReadsBack data .boolean (.bool b) := by
  refine readsBack_word (by rw [encode, length_word]) fun pos h => ?_
  rw [readValue, readBoolean_word b h, ok_bind]

lemma readsBack_address {s : String} (hs : IsAddress s) : ReadsBack data .address (.text s) := by
  have hlength := length_addressBytes hs
  have htext : String.ofList ('0' :: 'x' :: Hex.encode (addressBytes s)) = s := by
    obtain ⟨bs, -, rfl⟩ := hs
    simp [addressBytes, Hex.dropMark, Hex.decodePairs_encode, Except.toOption]
  refine readsBack_word (by simp [encode, rightInWord, hlength, wordSize]) fun pos h => ?_
  rw [readValue, readAddress_word hlength h, ok_bind, htext]

lemma readsBack_fixedBytes {bs : Bytes} (hsize : bs.length ≤ wordSize) :
    ReadsBack data (.fixedBytes bs.length) (.bytes bs) := by
  refine readsBack_word ?_ fun pos h => ?_
  · simp only [encode, leftInWord, List.length_append, List.length_replicate]
    omega
  · rw [readValue, readFixedBytes_word hsize rfl h, ok_bind]

variable (hsize : data.length < lengthLimit)

include hsize

lemma readsBack_bytes (bs : Bytes) : ReadsBack data .bytes (.bytes bs) := by
  refine readsBack_dynamic (by simp [AbiType.isDynamic]) fun pos h => ⟨pos + wordSize, ?_⟩
  rw [readValue, readBytes_sizedBytes hsize h, ok_bind]

lemma readsBack_string (s : String) : ReadsBack data .string (.text s) := by
  refine readsBack_dynamic (by simp [AbiType.isDynamic]) fun pos h => ⟨pos + wordSize, ?_⟩
  rw [readValue, readString_sizedBytes hsize h, ok_bind]

/-! ### Arrays -/

variable {item : AbiType} {vs : List Value} (hsolid : ∀ v ∈ vs, Solid data item v)

include hsolid

/-- The number of items is small enough for a word, as every item takes a word of the data. -/
lemma readNat_count {pos : Nat} (h : Holds data pos (encode (.array item) (.tuple vs))) :
    readNat data pos = .ok vs.length := by
  rw [encode_array] at h
  have hlayout := h.right
  rw [length_word] at hlayout
  have hfit := hlayout.left.length_le
  rw [length_heads] at hfit
  have hmany := le_sum_headSize_of_solid hsolid
  have hlimit : lengthLimit ≤ 2 ^ (8 * wordSize) := by decide
  have hword : vs.length ≤ wordSize * vs.length := Nat.le_mul_of_pos_left _ (by decide)
  exact readNat_word (by omega) h.left

lemma readsBack_array : ReadsBack data (.array item) (.tuple vs) := by
  refine readsBack_dynamic (by simp [AbiType.isDynamic]) fun pos h => ?_
  have hcount := readNat_count hsize hsolid h
  rw [encode_array] at h
  have hlayout := h.right
  rw [length_word] at hlayout
  rw [readValue, hcount, ok_bind, readArray_layOut hsize hsolid hlayout, ok_bind]
  exact ⟨_, rfl⟩

lemma readsBack_sized : ReadsBack data (.sized item vs.length) (.tuple vs) := by
  intro pos h
  rw [encode_sized] at h ⊢
  refine ⟨pos + ((vs.map (part item)).map Part.headSize).sum, ?_, fun hstatic => ?_⟩
  · rw [readValue, readArray_layOut hsize hsolid h, ok_bind]
  · rw [AbiType.isDynamic] at hstatic
    rw [length_layOut_static hstatic]

end Values

/-- **Decoding undoes encoding**: a value of a standard type is read wherever the data holds its
encoding. -/
theorem readValue_encode {data : Bytes} (hsize : data.length < lengthLimit) {t : AbiType}
    (ht : Standard t) {v : Value} (hv : Fits t v) : ReadsBack data t v := by
  have hsolid {item : AbiType} (hitem : Standard item)
      (ih : ∀ {v : Value}, Fits item v → ReadsBack data item v) {vs : List Value}
      (hvs : ∀ v ∈ vs, Fits item v) : ∀ v ∈ vs, Solid data item v := fun v hmem =>
    ⟨ih (hvs v hmem), wordSize_le_length_encode hitem (hvs v hmem)⟩
  -- a value that fits is of the kind of its type
  induction ht generalizing v with
  | unsigned hpos hle =>
    cases v <;> simp only [Fits] at hv
    obtain ⟨m, rfl⟩ := Int.eq_ofNat_of_zero_le hv.1
    exact readsBack_unsigned hle (by exact_mod_cast hv.2)
  | signed hpos hle =>
    cases v <;> simp only [Fits] at hv
    exact readsBack_signed hpos hle hv
  | boolean =>
    cases v <;> simp only [Fits] at hv
    exact readsBack_boolean _
  | address =>
    cases v <;> simp only [Fits] at hv
    exact readsBack_address hv
  | fixedBytes hpos hle =>
    cases v <;> simp only [Fits] at hv
    rw [Nat.min_eq_left hle] at hv
    subst hv
    exact readsBack_fixedBytes hle
  | bytes =>
    cases v <;> simp only [Fits] at hv
    exact readsBack_bytes hsize _
  | string =>
    cases v <;> simp only [Fits] at hv
    exact readsBack_string hsize _
  | array hitem ih =>
    cases v <;> simp only [Fits] at hv
    exact readsBack_array hsize (hsolid hitem ih hv)
  | sized hn hitem ih =>
    cases v <;> simp only [Fits] at hv
    obtain ⟨rfl, hvs⟩ := hv
    exact readsBack_sized hsize (hsolid hitem ih hvs)

/-- The decoder expects the heads of a list to end no later than they do. -/
lemma headWordsOf_le {types : List AbiType} {values : List Value}
    (htypes : ∀ t ∈ types, Standard t) (hvalues : List.Forall₂ Fits types values) :
    wordSize * AbiType.headWordsOf types
      ≤ ((List.zipWith part types values).map Part.headSize).sum := by
  induction hvalues with
  | nil => exact Nat.le_refl 0
  | @cons t v ts vs hv _ ih =>
    have hhead := headWords_le (htypes t (by simp)) hv
    have hrest := ih fun u hu => htypes u (by simp [hu])
    simp only [AbiType.headWordsOf, List.map_cons, List.sum_cons, List.zipWith_cons_cons,
      Nat.mul_add]
    omega

/-- **Decoding undoes encoding** for a list of types, with anything behind the encoding. -/
theorem decode_encodeAll {types : List AbiType} {values : List Value} {rest : Bytes}
    (hsize : (encodeAll types values ++ rest).length < lengthLimit)
    (htypes : ∀ t ∈ types, Standard t) (hvalues : List.Forall₂ Fits types values) :
    decode types (encodeAll types values ++ rest) = .ok values := by
  have hsolid : List.Forall₂ (Solid (encodeAll types values ++ rest)) types values := by
    rw [List.forall₂_iff_get] at hvalues ⊢
    refine ⟨hvalues.1, fun i ht hv => ?_⟩
    have hstandard := htypes _ (List.getElem_mem ht)
    exact ⟨readValue_encode hsize hstandard (hvalues.2 i ht hv),
      wordSize_le_length_encode hstandard (hvalues.2 i ht hv)⟩
  have h := holds_append (encodeAll types values) rest
  have hheads := h.left
  have hbodies := h.right
  rw [length_heads] at hbodies
  have hbound : wordSize * AbiType.headWordsOf types
      ≤ 0 + ((List.zipWith part types values).map Part.headSize).sum := by
    rw [Nat.zero_add]
    exact headWordsOf_le htypes hvalues
  have hcheck := checkMembers_heads hsize hsolid hbound hheads hbodies
  have hread := readMembers_heads hsize hsolid hheads hbodies
  rw [decode, hcheck, ok_bind, hread, ok_bind]

end HoneypotAudit.Abi
