import HoneypotAudit.Proofs.Abi.RoundTrip

/-!
# Lengths beyond all bounds

The length of a byte string stands in a word, and a word can hold a number that counts no bytes.
The decoder does not report such a length like other faults of the data, so this file says when it
comes to one.  `ComesTo` follows the decoder through arrays and tuples: to a member it comes only if
the offsets in the list have been checked and the members in front have been read.

The main statement is `decode_eq_oversized_iff`: decoding ends at a length beyond all bounds exactly
when the decoder comes to a byte string that has one (`IsOverlong`).  Words of any other kind do not
matter, however large the numbers in them are (`readValue_ne_oversized`).
-/

namespace HoneypotAudit.Abi

open HoneypotAudit.Text HoneypotAudit.Outcome

/-! ## Following the decoder -/

/-- The length at a position, filled up to whole words, counts no bytes. -/
def IsOverlong (data : Bytes) (pos : Nat) : Prop :=
  ∃ n, readNat data pos = .ok n ∧ lengthLimit ≤ roundUp n

/-- The body of a member is at a position: where its head is, or where the offset there points. -/
def BodyOf (data : Bytes) (start : Nat) (t : AbiType) (head body : Nat) : Prop :=
  if t.isDynamic then ∃ offset, readNat data head = .ok offset ∧ body = start + offset
  else body = head

/-- The decoder comes to the body of a member: it has read all members in front. -/
def ComesToBody (data : Bytes) (start : Nat) (ts : List AbiType) (pos : Nat) (t : AbiType)
    (body : Nat) : Prop :=
  ∃ before after vs head, ts = before ++ t :: after ∧
    readMembers data start before pos = .ok (vs, head) ∧ BodyOf data start t head body

/-- Reading a type from a position on, the decoder comes to the length of a byte string at another
position. -/
inductive ComesTo (data : Bytes) : AbiType → Nat → Nat → Prop
  | bytes (pos : Nat) : ComesTo data .bytes pos pos
  | string (pos : Nat) : ComesTo data .string pos pos
  | array {item : AbiType} {n pos body p : Nat} (hn : readNat data pos = .ok n)
      (hchecked : item.isDynamic = true → checkPointers data (pos + wordSize)
        (pos + wordSize + wordSize * n) n (pos + wordSize) = .ok ())
      (hbody : ComesToBody data (pos + wordSize) (List.replicate n item) (pos + wordSize) item body)
      (h : ComesTo data item body p) : ComesTo data (.array item) pos p
  | sized {item : AbiType} {n pos body p : Nat}
      (hchecked : item.isDynamic = true →
        checkPointers data pos (pos + wordSize * n) n pos = .ok ())
      (hbody : ComesToBody data pos (List.replicate n item) pos item body)
      (h : ComesTo data item body p) : ComesTo data (.sized item n) pos p
  | tuple {items : List AbiType} {t : AbiType} {pos body p : Nat}
      (hchecked : checkMembers data pos (pos + wordSize * AbiType.headWordsOf items) items
        pos = .ok ())
      (hbody : ComesToBody data pos items pos t body)
      (h : ComesTo data t body p) : ComesTo data (.tuple items) pos p

/-! ## Words -/

section Words

variable {data : Bytes} {α β : Type}

lemma bind_ne_oversized {step : Except DataFault α} {next : α → Except DataFault β}
    (hstep : step ≠ .error .oversized) (hnext : ∀ a, next a ≠ .error .oversized) :
    step >>= next ≠ .error .oversized := by
  intro h
  rcases bind_eq_error_iff.mp h with h | ⟨a, -, h⟩
  · exact hstep h
  · exact hnext a h

lemma readWord_ne_oversized (pos : Nat) : readWord data pos ≠ .error .oversized := by
  simp only [readWord]
  split <;> simp

lemma readNat_ne_oversized (pos : Nat) : readNat data pos ≠ .error .oversized := by
  rw [readNat, ne_eq, map_eq_error_iff]
  exact readWord_ne_oversized pos

lemma checkPadding_ne_oversized (fill : UInt8) (bs : Bytes) :
    checkPadding fill bs ≠ .error .oversized := by
  unfold checkPadding
  split <;> simp

lemma readUnsigned_ne_oversized (bits pos : Nat) : readUnsigned bits data pos ≠ .error .oversized :=
  bind_ne_oversized (readWord_ne_oversized pos) fun _ =>
    bind_ne_oversized (checkPadding_ne_oversized _ _) fun _ => nofun

lemma readSigned_ne_oversized (bits pos : Nat) : readSigned bits data pos ≠ .error .oversized :=
  bind_ne_oversized (readWord_ne_oversized pos) fun _ =>
    bind_ne_oversized (checkPadding_ne_oversized _ _) fun _ => nofun

lemma readBoolean_ne_oversized (pos : Nat) : readBoolean data pos ≠ .error .oversized := by
  refine bind_ne_oversized (readWord_ne_oversized pos) fun w => ?_
  dsimp only
  split
  · exact bind_ne_oversized (checkPadding_ne_oversized _ _) fun _ => nofun
  split
  · exact bind_ne_oversized (checkPadding_ne_oversized _ _) fun _ => nofun
  · nofun

lemma readAddress_ne_oversized (pos : Nat) : readAddress data pos ≠ .error .oversized :=
  bind_ne_oversized (readWord_ne_oversized pos) fun _ =>
    bind_ne_oversized (checkPadding_ne_oversized _ _) fun _ => nofun

lemma readFixedBytes_ne_oversized (size pos : Nat) :
    readFixedBytes size data pos ≠ .error .oversized :=
  bind_ne_oversized (readWord_ne_oversized pos) fun _ =>
    bind_ne_oversized (checkPadding_ne_oversized _ _) fun _ => nofun

lemma checkPointer_ne_oversized (kind : ListKind) (start heads pos : Nat) :
    checkPointer kind data start heads pos ≠ .error .oversized := by
  refine bind_ne_oversized (readNat_ne_oversized pos) fun offset => ?_
  split <;> simp

lemma checkPointers_ne_oversized (start heads n pos : Nat) :
    checkPointers data start heads n pos ≠ .error .oversized := by
  induction n generalizing pos with
  | zero => nofun
  | succ n ih => exact bind_ne_oversized (checkPointer_ne_oversized _ _ _ _) fun _ => ih _

/-- A byte string is not read because of its length exactly when that is beyond all bounds. -/
lemma readBytes_eq_oversized_iff {pos : Nat} :
    readBytes data pos = .error .oversized ↔ IsOverlong data pos := by
  rw [readBytes, bind_eq_error_iff]
  simp only [readNat_ne_oversized, false_or, IsOverlong]
  refine exists_congr fun n => and_congr_right fun _ => ?_
  split
  next h => simp [h]
  next h =>
    refine iff_of_false ?_ h
    split
    · simp
    · exact bind_ne_oversized (checkPadding_ne_oversized _ _) fun _ => by simp

lemma readString_eq_oversized_iff {pos : Nat} :
    readString data pos = .error .oversized ↔ IsOverlong data pos := by
  rw [readString, bind_eq_error_iff, readBytes_eq_oversized_iff, or_iff_left_iff_imp]
  rintro ⟨bs, -, h⟩
  split at h <;> cases h

end Words

/-! ## Members -/

section Members

variable {data : Bytes} {start : Nat}

lemma readMember_eq_oversized_iff {t : AbiType} {head : Nat} :
    readMember data t.isDynamic (readValue data t) start head = .error .oversized ↔
      ∃ body, BodyOf data start t head body ∧ readValue data t body = .error .oversized := by
  unfold readMember BodyOf
  split
  · simp only [bind_eq_error_iff, readNat_ne_oversized, false_or, reduceCtorEq, and_false,
      exists_false, or_false]
    constructor
    · rintro ⟨offset, hoffset, h⟩
      exact ⟨_, ⟨offset, hoffset, rfl⟩, h⟩
    · rintro ⟨_, ⟨offset, hoffset, rfl⟩, h⟩
      exact ⟨offset, hoffset, h⟩
  · simp

lemma comesToBody_cons_iff {u t : AbiType} {ts : List AbiType} {pos body : Nat} :
    ComesToBody data start (u :: ts) pos t body ↔
      (u = t ∧ BodyOf data start t pos body) ∨
        ∃ v next, readMember data u.isDynamic (readValue data u) start pos = .ok (v, next) ∧
          ComesToBody data start ts next t body := by
  constructor
  · rintro ⟨before, after, vs, head, hsplit, hbefore, hbody⟩
    cases before with
    | nil =>
      obtain ⟨rfl, -⟩ := List.cons.inj hsplit
      cases hbefore
      exact .inl ⟨rfl, hbody⟩
    | cons b before =>
      obtain ⟨rfl, htail⟩ := List.cons.inj hsplit
      obtain ⟨⟨v, next⟩, hv, hbefore⟩ := bind_eq_ok_iff.mp hbefore
      obtain ⟨⟨vs', head'⟩, hvs, hhead⟩ := bind_eq_ok_iff.mp hbefore
      cases hhead
      exact .inr ⟨v, next, hv, before, after, vs', _, htail, hvs, hbody⟩
  · rintro (⟨rfl, hbody⟩ | ⟨v, next, hv, before, after, vs, head, rfl, hvs, hbody⟩)
    · exact ⟨[], ts, [], pos, rfl, by rw [readMembers], hbody⟩
    · refine ⟨u :: before, after, v :: vs, head, rfl, ?_, hbody⟩
      simp only [readMembers, hv, ok_bind, hvs]

/-- Members are not read because of a length exactly when that is so for a body that the decoder
comes to. -/
lemma readMembers_eq_oversized_iff {ts : List AbiType} {pos : Nat} :
    readMembers data start ts pos = .error .oversized ↔
      ∃ t body, ComesToBody data start ts pos t body ∧
        readValue data t body = .error .oversized := by
  induction ts generalizing pos with
  | nil =>
    refine iff_of_false (by simp [readMembers]) ?_
    rintro ⟨t, body, ⟨before, after, vs, head, hsplit, -⟩, -⟩
    cases before <;> cases hsplit
  | cons u ts ih =>
    rw [readMembers, bind_eq_error_iff, readMember_eq_oversized_iff]
    simp only [comesToBody_cons_iff]
    constructor
    · rintro (⟨body, hbody, h⟩ | ⟨⟨v, next⟩, hv, h⟩)
      · exact ⟨u, body, .inl ⟨rfl, hbody⟩, h⟩
      · rcases bind_eq_error_iff.mp h with h | ⟨a, -, h⟩
        · obtain ⟨t, body, hbody, h⟩ := ih.mp h
          exact ⟨t, body, .inr ⟨v, next, hv, hbody⟩, h⟩
        · cases h
    · rintro ⟨t, body, ⟨rfl, hbody⟩ | ⟨v, next, hv, hbody⟩, h⟩
      · exact .inl ⟨body, hbody, h⟩
      · refine .inr ⟨⟨v, next⟩, hv, ?_⟩
        rw [ih.mpr ⟨t, body, hbody, h⟩, error_bind]

lemma mem_of_comesToBody {ts : List AbiType} {t : AbiType} {pos body : Nat}
    (h : ComesToBody data start ts pos t body) : t ∈ ts := by
  obtain ⟨before, after, -, -, rfl, -⟩ := h
  simp

lemma checkMembers_ne_oversized {ts : List AbiType}
    (hstatic : ∀ t ∈ ts, t.isDynamic = false → ∀ pos, readValue data t pos ≠ .error .oversized)
    (heads pos : Nat) : checkMembers data start heads ts pos ≠ .error .oversized := by
  induction ts generalizing pos with
  | nil => simp [checkMembers]
  | cons t ts ih =>
    have ih := fun pos => ih (fun u hu => hstatic u (List.mem_cons_of_mem t hu)) pos
    rw [checkMembers]
    split
    · exact bind_ne_oversized (checkPointer_ne_oversized _ _ _ _) fun _ => ih _
    next ht =>
      have hhead := hstatic t List.mem_cons_self (by simpa using ht)
      exact bind_ne_oversized (hhead pos) fun p => ih p.2

lemma readMembers_ne_oversized {ts : List AbiType}
    (h : ∀ t ∈ ts, ∀ pos, readValue data t pos ≠ .error .oversized) (pos : Nat) :
    readMembers data start ts pos ≠ .error .oversized := by
  rw [ne_eq, readMembers_eq_oversized_iff]
  rintro ⟨t, body, hbody, hread⟩
  exact h t (mem_of_comesToBody hbody) body hread

/-- An array is not read because of a length exactly when its offsets have been checked and that is
so for an item that the decoder comes to. -/
lemma readArray_eq_oversized_iff {item : AbiType} {n : Nat} :
    readArray data item.isDynamic (readValue data item) n start = .error .oversized ↔
      (item.isDynamic = true →
        checkPointers data start (start + wordSize * n) n start = .ok ()) ∧
      ∃ body, ComesToBody data start (List.replicate n item) start item body ∧
        readValue data item body = .error .oversized := by
  have hmembers : (∃ t body, ComesToBody data start (List.replicate n item) start t body ∧
      readValue data t body = .error .oversized) ↔
        ∃ body, ComesToBody data start (List.replicate n item) start item body ∧
          readValue data item body = .error .oversized := by
    constructor
    · rintro ⟨t, body, hbody, h⟩
      obtain rfl := List.eq_of_mem_replicate (mem_of_comesToBody hbody)
      exact ⟨body, hbody, h⟩
    · rintro ⟨body, hbody, h⟩
      exact ⟨item, body, hbody, h⟩
  rw [readArray_eq, readRepeated_eq_readMembers, bind_eq_error_iff, readMembers_eq_oversized_iff,
    hmembers]
  cases item.isDynamic with
  | false => simp
  | true =>
    simp only [if_true, checkPointers_ne_oversized, false_or, true_implies]
    exact ⟨fun ⟨⟨⟩, h⟩ => h, fun h => ⟨(), h⟩⟩

end Members

/-! ## Types -/

/-- A list has a dynamic type exactly if one of its types is dynamic. -/
lemma anyDynamic_eq_false_iff {ts : List AbiType} :
    AbiType.anyDynamic ts = false ↔ ∀ t ∈ ts, t.isDynamic = false := by
  induction ts with
  | nil => simp [AbiType.anyDynamic]
  | cons t ts ih => simp [AbiType.anyDynamic, ih]

/-- **Static values have no lengths**: no word of theirs is beyond all bounds. -/
theorem readValue_ne_oversized {data : Bytes} : ∀ {t : AbiType}, t.isDynamic = false →
    ∀ pos, readValue data t pos ≠ .error .oversized
  | .unsigned bits, _, pos => by
    rw [readValue]
    exact bind_ne_oversized (readUnsigned_ne_oversized bits pos) fun _ => nofun
  | .signed bits, _, pos => by
    rw [readValue]
    exact bind_ne_oversized (readSigned_ne_oversized bits pos) fun _ => nofun
  | .unsignedFixed bits _, _, pos => by
    rw [readValue]
    exact bind_ne_oversized (readUnsigned_ne_oversized bits pos) fun _ => nofun
  | .signedFixed bits _, _, pos => by
    rw [readValue]
    exact bind_ne_oversized (readSigned_ne_oversized bits pos) fun _ => nofun
  | .boolean, _, pos => by
    rw [readValue]
    exact bind_ne_oversized (readBoolean_ne_oversized pos) fun _ => nofun
  | .address, _, pos => by
    rw [readValue]
    exact bind_ne_oversized (readAddress_ne_oversized pos) fun _ => nofun
  | .fixedBytes size, _, pos => by
    rw [readValue]
    exact bind_ne_oversized (readFixedBytes_ne_oversized size pos) fun _ => nofun
  | .sized item n, ht, pos => by
    rw [readValue]
    refine bind_ne_oversized ?_ fun _ => nofun
    rw [ne_eq, readArray_eq_oversized_iff]
    rintro ⟨-, body, -, h⟩
    exact readValue_ne_oversized (by simpa [AbiType.isDynamic] using ht) body h
  | .tuple items, ht, pos => by
    have hitems : ∀ t ∈ items, ∀ p, readValue data t p ≠ .error .oversized := fun t hmem p =>
      readValue_ne_oversized
        (anyDynamic_eq_false_iff.mp (by simpa [AbiType.isDynamic] using ht) t hmem) p
    rw [readValue]
    refine bind_ne_oversized (checkMembers_ne_oversized (fun t hmem _ => hitems t hmem) _ _) ?_
    exact fun _ => bind_ne_oversized (readMembers_ne_oversized hitems pos) fun _ => nofun

lemma exists_of_comesTo_tuple {data : Bytes} {items : List AbiType} {pos p : Nat}
    (h : ComesTo data (.tuple items) pos p) :
    checkMembers data pos (pos + wordSize * AbiType.headWordsOf items) items pos = .ok () ∧
      ∃ t body, ComesToBody data pos items pos t body ∧ ComesTo data t body p := by
  cases h with
  | tuple hchecked hbody hp => exact ⟨hchecked, _, _, hbody, hp⟩

/-- Values of a type are not read because of a length exactly when the decoder comes to one that is
beyond all bounds. -/
def EndsAtOverlong (data : Bytes) (t : AbiType) : Prop :=
  ∀ pos, readValue data t pos = .error .oversized ↔ ∃ p, ComesTo data t pos p ∧ IsOverlong data p

section EndsAtOverlong

variable {data : Bytes}

lemma endsAtOverlong_bytes : EndsAtOverlong data .bytes := by
  intro pos
  rw [readValue, bind_eq_error_iff, readBytes_eq_oversized_iff]
  constructor
  · rintro (h | ⟨bs, -, h⟩)
    · exact ⟨pos, .bytes pos, h⟩
    · cases h
  · rintro ⟨p, ⟨⟩, h⟩
    exact .inl h

lemma endsAtOverlong_string : EndsAtOverlong data .string := by
  intro pos
  rw [readValue, bind_eq_error_iff, readString_eq_oversized_iff]
  constructor
  · rintro (h | ⟨bs, -, h⟩)
    · exact ⟨pos, .string pos, h⟩
    · cases h
  · rintro ⟨p, ⟨⟩, h⟩
    exact .inl h

lemma endsAtOverlong_array {item : AbiType} (hitem : EndsAtOverlong data item) :
    EndsAtOverlong data (.array item) := by
  intro pos
  rw [readValue, bind_eq_error_iff]
  constructor
  · rintro (h | ⟨n, hn, h⟩)
    · exact absurd h (readNat_ne_oversized pos)
    · rcases bind_eq_error_iff.mp h with h | ⟨vs, -, h⟩
      · obtain ⟨hchecked, body, hbody, h⟩ := readArray_eq_oversized_iff.mp h
        obtain ⟨p, hp, hlong⟩ := (hitem body).mp h
        exact ⟨p, .array hn hchecked hbody hp, hlong⟩
      · cases h
  · rintro ⟨p, hcomes, hlong⟩
    cases hcomes with
    | @array _ n _ body _ hn hchecked hbody hp =>
      have hread := (hitem body).mpr ⟨p, hp, hlong⟩
      refine .inr ⟨n, hn, ?_⟩
      rw [readArray_eq_oversized_iff.mpr ⟨hchecked, body, hbody, hread⟩, error_bind]

lemma endsAtOverlong_sized {item : AbiType} (hitem : EndsAtOverlong data item) (n : Nat) :
    EndsAtOverlong data (.sized item n) := by
  intro pos
  rw [readValue, bind_eq_error_iff]
  constructor
  · rintro (h | ⟨vs, -, h⟩)
    · obtain ⟨hchecked, body, hbody, h⟩ := readArray_eq_oversized_iff.mp h
      obtain ⟨p, hp, hlong⟩ := (hitem body).mp h
      exact ⟨p, .sized hchecked hbody hp, hlong⟩
    · cases h
  · rintro ⟨p, hcomes, hlong⟩
    cases hcomes with
    | @sized _ _ _ body _ hchecked hbody hp =>
      have hread := (hitem body).mpr ⟨p, hp, hlong⟩
      exact .inl (readArray_eq_oversized_iff.mpr ⟨hchecked, body, hbody, hread⟩)

lemma endsAtOverlong_tuple {items : List AbiType} (hitems : ∀ t ∈ items, EndsAtOverlong data t) :
    EndsAtOverlong data (.tuple items) := by
  intro pos
  rw [readValue, bind_eq_error_iff]
  constructor
  · rintro (h | ⟨⟨⟩, hchecked, h⟩)
    · refine absurd h (checkMembers_ne_oversized ?_ _ _)
      exact fun t _ ht p => readValue_ne_oversized ht p
    · rcases bind_eq_error_iff.mp h with h | ⟨vs, -, h⟩
      · obtain ⟨t, body, hbody, h⟩ := readMembers_eq_oversized_iff.mp h
        obtain ⟨p, hp, hlong⟩ := (hitems t (mem_of_comesToBody hbody) body).mp h
        exact ⟨p, .tuple hchecked hbody hp, hlong⟩
      · cases h
  · rintro ⟨p, hcomes, hlong⟩
    obtain ⟨hchecked, t, body, hbody, hp⟩ := exists_of_comesTo_tuple hcomes
    have hread := (hitems t (mem_of_comesToBody hbody) body).mpr ⟨p, hp, hlong⟩
    refine .inr ⟨(), hchecked, ?_⟩
    rw [readMembers_eq_oversized_iff.mpr ⟨t, body, hbody, hread⟩, error_bind]

end EndsAtOverlong

/-- **Reading ends at a length beyond all bounds** exactly when the decoder comes to one, whatever
the type. -/
theorem endsAtOverlong {data : Bytes} : ∀ t : AbiType, EndsAtOverlong data t
  | .bytes => endsAtOverlong_bytes
  | .string => endsAtOverlong_string
  | .array item => endsAtOverlong_array (endsAtOverlong item)
  | .sized item n => endsAtOverlong_sized (endsAtOverlong item) n
  | .tuple items => endsAtOverlong_tuple fun t _ => endsAtOverlong t
  | .unsigned _ => fun pos => iff_of_false (readValue_ne_oversized rfl pos) (by rintro ⟨p, ⟨⟩, -⟩)
  | .signed _ => fun pos => iff_of_false (readValue_ne_oversized rfl pos) (by rintro ⟨p, ⟨⟩, -⟩)
  | .unsignedFixed _ _ => fun pos =>
    iff_of_false (readValue_ne_oversized rfl pos) (by rintro ⟨p, ⟨⟩, -⟩)
  | .signedFixed _ _ => fun pos =>
    iff_of_false (readValue_ne_oversized rfl pos) (by rintro ⟨p, ⟨⟩, -⟩)
  | .boolean => fun pos => iff_of_false (readValue_ne_oversized rfl pos) (by rintro ⟨p, ⟨⟩, -⟩)
  | .address => fun pos => iff_of_false (readValue_ne_oversized rfl pos) (by rintro ⟨p, ⟨⟩, -⟩)
  | .fixedBytes _ => fun pos =>
    iff_of_false (readValue_ne_oversized rfl pos) (by rintro ⟨p, ⟨⟩, -⟩)

/-- Members are decoded like those of a tuple at the beginning of the data. -/
lemma decode_eq (types : List AbiType) (data : Bytes) :
    readValue data (.tuple types) 0 =
      (checkMembers data 0 (wordSize * AbiType.headWordsOf types) types 0) >>= fun _ =>
        readMembers data 0 types 0 >>= fun p => .ok (.tuple p.1, p.2) := by
  rw [readValue, Nat.zero_add]

/-- **Decoding ends at a length beyond all bounds** exactly when the decoder comes to one. -/
theorem decode_eq_oversized_iff {types : List AbiType} {data : Bytes} :
    decode types data = .error .oversized ↔
      ∃ p, ComesTo data (.tuple types) 0 p ∧ IsOverlong data p := by
  rw [← endsAtOverlong (.tuple types) 0, decode_eq, decode]
  simp [bind_eq_error_iff]

end HoneypotAudit.Abi
