import HoneypotAudit.Proofs.Abi.Fits
import HoneypotAudit.Proofs.Text.Utf8

/-!
# The encoding of values

The layout that the decoder reads, written the other way round.  A basic value fills a word; a byte
string stands behind its length, filled up to whole words.  The members of a list are laid out as
parts (`layOut`): first the heads, which are the static parts themselves and the offsets of the
dynamic ones, then the bodies of the dynamic parts.

`encode` covers the types that are built of basic types, byte strings, texts and arrays
(`Standard`).  Decimals and nested tuples do not come up in declarations and are left out.

Each value takes a word at least, and as much room among the heads as the decoder counts for it
(`headWords_le`).
-/

namespace HoneypotAudit.Abi

open HoneypotAudit.Text HoneypotAudit.Outcome

/-! ## Parts -/

/-- A member of a list as it is laid out. -/
structure Part where
  isDynamic : Bool
  body : Bytes

/-- The number of bytes that a part takes among the heads. -/
def Part.headSize (p : Part) : Nat :=
  if p.isDynamic then wordSize else p.body.length

/-- The heads of parts, where the first body lies at an offset. -/
def heads : Nat → List Part → Bytes
  | _, [] => []
  | offset, p :: ps =>
    if p.isDynamic then word offset ++ heads (offset + p.body.length) ps
    else p.body ++ heads offset ps

/-- The bodies of the dynamic parts. -/
def bodies : List Part → Bytes
  | [] => []
  | p :: ps => if p.isDynamic then p.body ++ bodies ps else bodies ps

/-- The layout of parts. -/
def layOut (ps : List Part) : Bytes :=
  heads (ps.map Part.headSize).sum ps ++ bodies ps

/-! ## Values -/

/-- An integer as a word, in two's complement. -/
def signedWord (n : Int) : Bytes :=
  word (n % 2 ^ (8 * wordSize)).toNat

/-- Bytes at the right end of a word. -/
def rightInWord (bs : Bytes) : Bytes :=
  List.replicate (wordSize - bs.length) 0 ++ bs

/-- Bytes at the left end of a word. -/
def leftInWord (bs : Bytes) : Bytes :=
  bs ++ List.replicate (wordSize - bs.length) 0

/-- Bytes behind their length, filled up to whole words. -/
def sizedBytes (bs : Bytes) : Bytes :=
  word bs.length ++ (bs ++ List.replicate (roundUp bs.length - bs.length) 0)

/-- The bytes of an address. -/
def addressBytes (s : String) : Bytes :=
  (Hex.decodePairs (Hex.dropMark s.toList)).toOption.getD []

/-- The encoding of a value of a standard type. -/
def encode : AbiType → Value → Bytes
  | .unsigned _, .int n => word n.toNat
  | .signed _, .int n => signedWord n
  | .boolean, .bool b => word (if b then 1 else 0)
  | .address, .text s => rightInWord (addressBytes s)
  | .fixedBytes _, .bytes bs => leftInWord bs
  | .bytes, .bytes bs => sizedBytes bs
  | .string, .text s => sizedBytes (Utf8.encode s.toList)
  | .array item, .tuple vs =>
    word vs.length ++ layOut (vs.map fun v => ⟨item.isDynamic, encode item v⟩)
  | .sized item _, .tuple vs => layOut (vs.map fun v => ⟨item.isDynamic, encode item v⟩)
  | _, _ => []

/-- A value of a type as a part. -/
def part (t : AbiType) (v : Value) : Part :=
  ⟨t.isDynamic, encode t v⟩

lemma encode_array (item : AbiType) (vs : List Value) :
    encode (.array item) (.tuple vs) = word vs.length ++ layOut (vs.map (part item)) := by
  rw [encode]
  rfl

lemma encode_sized (item : AbiType) (n : Nat) (vs : List Value) :
    encode (.sized item n) (.tuple vs) = layOut (vs.map (part item)) := by
  rw [encode]
  rfl

/-- The encoding of the values of a list of types, laid out as the members of a tuple. -/
def encodeAll (types : List AbiType) (values : List Value) : Bytes :=
  layOut (List.zipWith part types values)

/-- The types that declared parameters stand for: basic types of their proper sizes, byte strings,
texts, and arrays of these that are open or have a length above zero. -/
inductive Standard : AbiType → Prop
  | unsigned {size : Nat} (hpos : 0 < size) (hsize : size ≤ wordSize) :
      Standard (.unsigned (8 * size))
  | signed {size : Nat} (hpos : 0 < size) (hsize : size ≤ wordSize) : Standard (.signed (8 * size))
  | boolean : Standard .boolean
  | address : Standard .address
  | fixedBytes {size : Nat} (hpos : 0 < size) (hsize : size ≤ wordSize) :
      Standard (.fixedBytes size)
  | bytes : Standard .bytes
  | string : Standard .string
  | array {item : AbiType} (h : Standard item) : Standard (.array item)
  | sized {item : AbiType} {n : Nat} (hn : 0 < n) (h : Standard item) : Standard (.sized item n)

/-! ## Sizes -/

lemma length_heads (offset : Nat) (ps : List Part) :
    (heads offset ps).length = (ps.map Part.headSize).sum := by
  induction ps generalizing offset with
  | nil => rfl
  | cons p ps ih => cases hp : p.isDynamic <;> simp [heads, Part.headSize, hp, ih]

lemma length_addressBytes {s : String} (h : IsAddress s) : (addressBytes s).length = 20 := by
  obtain ⟨bs, hlen, rfl⟩ := h
  simp [addressBytes, Hex.dropMark, Hex.decodePairs_encode, Except.toOption, hlen]

/-- Parts take as many words among the heads as there are parts, or more. -/
lemma le_sum_headSize {ps : List Part} (h : ∀ p ∈ ps, wordSize ≤ p.headSize) :
    wordSize * ps.length ≤ (ps.map Part.headSize).sum := by
  induction ps with
  | nil => simp
  | cons p ps ih =>
    have hp := h p (by simp)
    have hps := ih fun q hq => h q (by simp [hq])
    simp only [List.length_cons, List.map_cons, List.sum_cons, Nat.mul_add]
    omega

lemma wordSize_le_headSize {t : AbiType} {v : Value} (h : wordSize ≤ (encode t v).length) :
    wordSize ≤ (part t v).headSize := by
  unfold Part.headSize part
  split
  · exact Nat.le_refl _
  · exact h

/-- The encoding of a value has a word at least. -/
lemma wordSize_le_length_encode {t : AbiType} (ht : Standard t) {v : Value} (hv : Fits t v) :
    wordSize ≤ (encode t v).length := by
  induction ht generalizing v with
  | @sized item n hn _ ih =>
    cases v with
    | tuple vs =>
      obtain ⟨rfl, hvs⟩ := hv
      have hparts : ∀ p ∈ vs.map (part item), wordSize ≤ p.headSize := by
        intro p hp
        obtain ⟨v, hmem, rfl⟩ := List.mem_map.mp hp
        exact wordSize_le_headSize (ih (hvs v hmem))
      have hsum := le_sum_headSize hparts
      rw [List.length_map] at hsum
      rw [encode_sized, layOut, List.length_append, length_heads]
      have hone := Nat.mul_le_mul_left wordSize hn
      omega
    | _ => simp [Fits] at hv
  | address =>
    cases v <;> simp [Fits] at hv
    simp [encode, rightInWord, length_addressBytes hv, wordSize]
  | fixedBytes _ hsize =>
    cases v <;> simp [Fits] at hv
    rw [encode, leftInWord, List.length_append, List.length_replicate]
    omega
  | _ => cases v <;> simp_all [Fits, encode, signedWord, sizedBytes]

/-- A value has as many words among the heads as the decoder counts, or more. -/
lemma headWords_le {t : AbiType} (ht : Standard t) {v : Value} (hv : Fits t v) :
    wordSize * t.headWords ≤ (part t v).headSize := by
  have hone := wordSize_le_headSize (wordSize_le_length_encode ht hv)
  cases ht with
  | @sized item n hn hitem =>
    cases v with
    | tuple vs =>
      obtain ⟨rfl, hvs⟩ := hv
      cases hdynamic : item.isDynamic with
      | true => simpa [AbiType.headWords, hdynamic] using hone
      | false =>
        have hparts : ∀ p ∈ vs.map (part item), wordSize ≤ p.headSize := by
          intro p hp
          obtain ⟨v, hmem, rfl⟩ := List.mem_map.mp hp
          exact wordSize_le_headSize (wordSize_le_length_encode hitem (hvs v hmem))
        have hsum := le_sum_headSize hparts
        rw [List.length_map] at hsum
        have hstatic : (AbiType.sized item vs.length).isDynamic = false := by
          simpa [AbiType.isDynamic] using hdynamic
        have hsize : (part (.sized item vs.length) (.tuple vs)).headSize
            = (layOut (vs.map (part item))).length := by
          simp [Part.headSize, part, hstatic, encode_sized]
        rw [hsize, layOut, List.length_append, length_heads]
        simp only [AbiType.headWords, hdynamic, Bool.false_eq_true, if_false]
        omega
    | _ => simp [Fits] at hv
  | _ => simpa [AbiType.headWords] using hone

end HoneypotAudit.Abi
