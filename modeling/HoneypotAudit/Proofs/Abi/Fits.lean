import HoneypotAudit.Proofs.Abi.Words

/-!
# Values of a type

`Fits t v` says that a value is one of a type: of the right kind and in the range of the type, down
to the items.  Whatever the decoder gives fits the type it was asked for, wherever it reads and
whatever the data holds (`fits_of_readValue`, and `fits_of_decode` for a whole signature).
-/

namespace HoneypotAudit.Abi

open HoneypotAudit.Text HoneypotAudit.Outcome

/-! ## Values that fit -/

/-- The text of an address: `0x` and the forty hexadecimal digits of twenty bytes. -/
def IsAddress (s : String) : Prop :=
  ∃ bs : Bytes, bs.length = 20 ∧ s = String.ofList ('0' :: 'x' :: Hex.encode bs)

mutual

/-- A value is one of a type.  A byte string of a fixed size has no more than a word. -/
def Fits : AbiType → Value → Prop
  | .unsigned bits, .int n => 0 ≤ n ∧ n < 2 ^ bits
  | .signed bits, .int n => -2 ^ (bits - 1) ≤ n ∧ n < 2 ^ (bits - 1)
  | .unsignedFixed _ _, .decimal _ _ => True
  | .signedFixed _ _, .decimal _ _ => True
  | .boolean, .bool _ => True
  | .address, .text s => IsAddress s
  | .fixedBytes size, .bytes bs => bs.length = min size wordSize
  | .bytes, .bytes _ => True
  | .string, .text _ => True
  | .array item, .tuple vs => ∀ v ∈ vs, Fits item v
  | .sized item n, .tuple vs => vs.length = n ∧ ∀ v ∈ vs, Fits item v
  | .tuple items, .tuple vs => FitsAll items vs
  | _, _ => False

/-- The values of a list are those of a list of types, one by one. -/
def FitsAll : List AbiType → List Value → Prop
  | [], [] => True
  | t :: ts, v :: vs => Fits t v ∧ FitsAll ts vs
  | _, _ => False

end

lemma fitsAll_iff_forall₂ {ts : List AbiType} {vs : List Value} :
    FitsAll ts vs ↔ List.Forall₂ Fits ts vs := by
  induction ts generalizing vs with
  | nil => cases vs <;> simp [FitsAll]
  | cons t ts ih => cases vs <;> simp [FitsAll, ih]

/-! ## Numbers that are read -/

lemma length_of_readWord {data : Bytes} {pos : Nat} {w : Bytes} (h : readWord data pos = .ok w) :
    w.length = wordSize := by
  simp only [readWord] at h
  split at h <;> cases h
  assumption

/-- The right end of a word in so many bits has no more of them. -/
lemma length_rightAligned_le (bits : Nat) {w : Bytes} (hw : w.length = wordSize) :
    8 * (rightAligned bits w).1.length ≤ bits := by
  simp only [rightAligned, List.length_drop, hw]
  omega

lemma readUnsigned_lt {bits : Nat} {data : Bytes} {pos n : Nat}
    (h : readUnsigned bits data pos = .ok n) : n < 2 ^ bits := by
  obtain ⟨w, hw, h⟩ := bind_eq_ok_iff.mp h
  obtain ⟨⟨⟩, -, h⟩ := bind_eq_ok_iff.mp h
  cases h
  have hlen := length_rightAligned_le bits (length_of_readWord hw)
  exact Nat.lt_of_lt_of_le (natOfBytes_lt _) (Nat.pow_le_pow_right (by decide) hlen)

lemma readSigned_range {bits : Nat} {data : Bytes} {pos : Nat} {n : Int}
    (h : readSigned bits data pos = .ok n) : -2 ^ (bits - 1) ≤ n ∧ n < 2 ^ (bits - 1) := by
  obtain ⟨w, hw, h⟩ := bind_eq_ok_iff.mp h
  obtain ⟨⟨⟩, -, h⟩ := bind_eq_ok_iff.mp h
  obtain rfl : intOfBytes (rightAligned bits w).1 = n := Except.ok.inj h
  have hlen := length_rightAligned_le bits (length_of_readWord hw)
  have hpow : (2 : Int) ^ (8 * (rightAligned bits w).1.length - 1) ≤ 2 ^ (bits - 1) := by
    exact_mod_cast Nat.pow_le_pow_right (n := 2) (by decide) (by omega)
  have hrange := intOfBytes_range (rightAligned bits w).1
  omega

lemma isAddress_of_readAddress {data : Bytes} {pos : Nat} {s : String}
    (h : readAddress data pos = .ok s) : IsAddress s := by
  obtain ⟨w, hw, h⟩ := bind_eq_ok_iff.mp h
  obtain ⟨⟨⟩, -, h⟩ := bind_eq_ok_iff.mp h
  cases h
  refine ⟨_, ?_, rfl⟩
  simp [length_of_readWord hw, wordSize]

lemma length_of_readFixedBytes {size : Nat} {data : Bytes} {pos : Nat} {bs : Bytes}
    (h : readFixedBytes size data pos = .ok bs) : bs.length = min size wordSize := by
  obtain ⟨w, hw, h⟩ := bind_eq_ok_iff.mp h
  obtain ⟨⟨⟩, -, h⟩ := bind_eq_ok_iff.mp h
  cases h
  rw [List.length_take, length_of_readWord hw]

/-! ## Members that are read -/

/-- A member is read by its reader, somewhere. -/
lemma exists_read_of_readMember {data : Bytes} {dynamic : Bool} {body : Reader Value}
    {start pos p : Nat} {v : Value} (h : readMember data dynamic body start pos = .ok (v, p)) :
    ∃ q p', body q = .ok (v, p') := by
  unfold readMember at h
  split at h
  · obtain ⟨offset, -, h⟩ := bind_eq_ok_iff.mp h
    obtain ⟨⟨v', p'⟩, hbody, h⟩ := bind_eq_ok_iff.mp h
    cases h
    exact ⟨_, _, hbody⟩
  · exact ⟨_, _, h⟩

/-- Repeated members are as many as asked for, each read by the reader. -/
lemma exists_reads_of_readRepeated {member : Reader Value} {n pos p : Nat} {vs : List Value}
    (h : readRepeated member n pos = .ok (vs, p)) :
    vs.length = n ∧ ∀ v ∈ vs, ∃ q p', member q = .ok (v, p') := by
  induction n generalizing pos vs with
  | zero =>
    cases h
    simp
  | succ n ih =>
    obtain ⟨⟨v, p₁⟩, hv, h⟩ := bind_eq_ok_iff.mp h
    obtain ⟨⟨vs', p₂⟩, hvs, h⟩ := bind_eq_ok_iff.mp h
    cases h
    obtain ⟨hlen, hall⟩ := ih hvs
    refine ⟨by simp [hlen], ?_⟩
    simpa using ⟨⟨_, _, hv⟩, hall⟩

/-- An array is read in two steps: the offsets are checked if there are any, and the items read. -/
lemma readArray_eq (data : Bytes) (dynamic : Bool) (body : Reader Value) (n start : Nat) :
    readArray data dynamic body n start =
      (if dynamic then checkPointers data start (start + wordSize * n) n start else .ok ()) >>=
        fun _ => readRepeated (readMember data dynamic body start) n start := by
  cases dynamic <;> rfl

lemma exists_reads_of_readArray {data : Bytes} {dynamic : Bool} {body : Reader Value}
    {n start p : Nat} {vs : List Value} (h : readArray data dynamic body n start = .ok (vs, p)) :
    vs.length = n ∧ ∀ v ∈ vs, ∃ q p', body q = .ok (v, p') := by
  rw [readArray_eq] at h
  obtain ⟨⟨⟩, -, h⟩ := bind_eq_ok_iff.mp h
  obtain ⟨hlen, hall⟩ := exists_reads_of_readRepeated h
  refine ⟨hlen, fun v hv => ?_⟩
  obtain ⟨q, p', hmember⟩ := hall v hv
  exact exists_read_of_readMember hmember

/-! ## Everything that is read fits -/

/-- A value of a single part is made from what a reader gives. -/
lemma exists_part {α : Type} {part : Except DataFault α} {make : α → Value} {next p : Nat}
    {v : Value} (h : (part >>= fun a => .ok (make a, next)) = .ok (v, p)) :
    ∃ a, part = .ok a ∧ v = make a := by
  obtain ⟨a, ha, h⟩ := bind_eq_ok_iff.mp h
  cases h
  exact ⟨a, ha, rfl⟩

mutual

/-- **What is read fits the type**, wherever it is read. -/
theorem fits_of_readValue {data : Bytes} : ∀ {t : AbiType} {pos p : Nat} {v : Value},
    readValue data t pos = .ok (v, p) → Fits t v
  | .unsigned bits, _, _, _, h => by
    obtain ⟨n, hn, rfl⟩ := exists_part h
    have hlt := readUnsigned_lt hn
    exact ⟨Int.natCast_nonneg n, by exact_mod_cast hlt⟩
  | .signed bits, _, _, _, h => by
    obtain ⟨n, hn, rfl⟩ := exists_part h
    exact readSigned_range hn
  | .unsignedFixed _ _, _, _, _, h => by
    obtain ⟨n, -, rfl⟩ := exists_part h
    trivial
  | .signedFixed _ _, _, _, _, h => by
    obtain ⟨n, -, rfl⟩ := exists_part h
    trivial
  | .boolean, _, _, _, h => by
    obtain ⟨b, -, rfl⟩ := exists_part h
    trivial
  | .address, _, _, _, h => by
    obtain ⟨s, hs, rfl⟩ := exists_part h
    exact isAddress_of_readAddress hs
  | .fixedBytes size, _, _, _, h => by
    obtain ⟨bs, hbs, rfl⟩ := exists_part h
    exact length_of_readFixedBytes hbs
  | .bytes, _, _, _, h => by
    obtain ⟨bs, -, rfl⟩ := exists_part h
    trivial
  | .string, _, _, _, h => by
    obtain ⟨s, -, rfl⟩ := exists_part h
    trivial
  | .array item, _, _, _, h => by
    rw [readValue] at h
    obtain ⟨n, -, h⟩ := bind_eq_ok_iff.mp h
    obtain ⟨⟨vs, p'⟩, hvs, h⟩ := bind_eq_ok_iff.mp h
    cases h
    intro v hv
    obtain ⟨q, p', hread⟩ := (exists_reads_of_readArray hvs).2 v hv
    exact fits_of_readValue hread
  | .sized item n, _, _, _, h => by
    rw [readValue] at h
    obtain ⟨⟨vs, p'⟩, hvs, h⟩ := bind_eq_ok_iff.mp h
    cases h
    obtain ⟨hlen, hall⟩ := exists_reads_of_readArray hvs
    refine ⟨hlen, fun v hv => ?_⟩
    obtain ⟨q, p', hread⟩ := hall v hv
    exact fits_of_readValue hread
  | .tuple items, _, _, _, h => by
    rw [readValue] at h
    obtain ⟨⟨⟩, -, h⟩ := bind_eq_ok_iff.mp h
    obtain ⟨⟨vs, p'⟩, hvs, h⟩ := bind_eq_ok_iff.mp h
    cases h
    exact fitsAll_of_readMembers hvs

theorem fitsAll_of_readMembers {data : Bytes} : ∀ {ts : List AbiType} {start pos p : Nat}
    {vs : List Value}, readMembers data start ts pos = .ok (vs, p) → FitsAll ts vs
  | [], _, _, _, _, h => by
    cases h
    trivial
  | t :: ts, start, pos, p, vs, h => by
    obtain ⟨⟨v, p₁⟩, hv, h⟩ := bind_eq_ok_iff.mp h
    obtain ⟨⟨vs', p₂⟩, hvs, h⟩ := bind_eq_ok_iff.mp h
    cases h
    obtain ⟨q, p', hread⟩ := exists_read_of_readMember hv
    exact ⟨fits_of_readValue hread, fitsAll_of_readMembers hvs⟩

end

/-- What is decoded for a list of types fits them one by one. -/
theorem fits_of_decode {types : List AbiType} {data : Bytes} {values : List Value}
    (h : decode types data = .ok values) : List.Forall₂ Fits types values := by
  obtain ⟨⟨⟩, -, h⟩ := bind_eq_ok_iff.mp h
  obtain ⟨⟨vs, p⟩, hvs, h⟩ := bind_eq_ok_iff.mp h
  cases h
  exact fitsAll_iff_forall₂.mp (fitsAll_of_readMembers hvs)

end HoneypotAudit.Abi
