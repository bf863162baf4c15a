import HoneypotAudit.Proofs.Abi.Encoding
import HoneypotAudit.Proofs.Solidity.Containment
import HoneypotAudit.Proofs.Text.Integer

/-!
# Literals by themselves

`readScalar` knows the type that a literal is to have.  A compiler does not: `scanConstant` tells
from the text alone what kind of constant a literal is, by what stands at its front, and
`Constant.Denotes` says which constants are of a type.

* A text in quotes is all of the literal, whatever is in the text (`quote_faithful`).
* What is written for a value of a basic type is a constant of that type, with one exception: forty
  hexadecimal digits are an address, so byte strings of twenty bytes have no constant of their own
  (`constant_of_literal_iff`).
-/

namespace HoneypotAudit.Solidity

open HoneypotAudit.Text HoneypotAudit.Abi HoneypotAudit.Abi.TypeText HoneypotAudit.Number

/-! ## Texts -/

/-- A text literal, from its opening quote on, as bytes. -/
def scanText : Scan Bytes
  | '"' :: cs => scanQuoted cs
  | _ => none

lemma isPlain_of_mem_quote {c : Char} {cs : List Char} (h : c ∈ quote cs) : isPlain c = true := by
  have hbody : LiteralBody '"' (cs.flatMap escapeChar) :=
    literalBody_flatMap fun c _ => literalBody_escapeChar c
  simp only [quote, List.mem_append, List.mem_cons, List.not_mem_nil, or_false] at h
  rcases h with (rfl | h) | rfl
  · decide
  · exact hbody.isPlain c h
  · decide

lemma scanText_quote (cs rest : List Char) :
    scanText (quote cs ++ rest) = some (Utf8.encode cs, rest) := by
  have hsplit : quote cs ++ rest = '"' :: (cs.flatMap escapeChar ++ '"' :: rest) := by simp [quote]
  rw [hsplit]
  exact scanQuoted_flatMap cs rest

/-- **A literal is faithful to its text, and the text does not get out of it.**  It is in printable
ASCII; read from its opening quote on, it ends where it was ended, whatever comes behind it, and
gives the bytes of the text in UTF-8; so different texts have different literals. -/
theorem quote_faithful :
    (∀ cs, ∀ c ∈ quote cs, 0x20 ≤ c.toNat ∧ c.toNat ≤ 0x7E) ∧
      (∀ cs rest, scanText (quote cs ++ rest) = some (Utf8.encode cs, rest)) ∧
      Function.Injective quote := by
  refine ⟨fun cs c hc => ?_, scanText_quote, fun cs ds h => ?_⟩
  · simpa [isPlain] using isPlain_of_mem_quote hc
  · have hbytes : Utf8.encode cs = Utf8.encode ds := by
      have hcs := scanText_quote cs []
      rw [h, scanText_quote ds []] at hcs
      simpa using hcs.symm
    have hread := Utf8.decode_encode cs
    rw [hbytes, Utf8.decode_encode] at hread
    exact (Except.ok.inj hread).symm

/-! ## Constants -/

/-- What a literal is by itself. -/
inductive Constant where
  | boolean (b : Bool)
  | integer (n : Int)
  /-- The digits are in lower case. -/
  | address (digits : String)
  /-- A hexadecimal number, which stands for as many bytes as it has pairs of digits. -/
  | fixedBytes (bs : Bytes)
  | bytes (bs : Bytes)
  | text (bs : Bytes)
  deriving Repr, DecidableEq

/-- The constant behind `0x`: an address if there are forty digits, whose letters have to be in the
case that the checksum asks for, and bytes if there is any other number of pairs. -/
def scanHexNumber : Scan Constant := fun cs =>
  if (cs.takeWhile Hex.isDigit).length = Address.digitCount then
    (scanAddress ('0' :: 'x' :: cs)).map fun (s, rest) => (.address s, rest)
  else (scanHex cs).map fun (bs, rest) => (.fixedBytes bs, rest)

/-- The bytes behind `hex"`, up to the closing quote. -/
def scanHexQuoted : Scan Bytes := fun cs =>
  (scanHex cs).bind fun (bs, cs) => (cs.dropPrefix? ['"']).map fun rest => (bs, rest)

/-- A literal of whatever kind, told by its front. -/
def scanConstant : Scan Constant
  | '0' :: 'x' :: cs => scanHexNumber cs
  | 'h' :: 'e' :: 'x' :: '"' :: cs => (scanHexQuoted cs).map fun (bs, rest) => (.bytes bs, rest)
  | '"' :: cs => (scanQuoted cs).map fun (bs, rest) => (.text bs, rest)
  | 't' :: 'r' :: 'u' :: 'e' :: rest => some (.boolean true, rest)
  | 'f' :: 'a' :: 'l' :: 's' :: 'e' :: rest => some (.boolean false, rest)
  | cs => (scanInteger cs).map fun (n, rest) => (.integer n, rest)

/-- A constant is one of a basic type and stands for a value of it. -/
inductive Constant.Denotes : Constant → AbiType → Value → Prop
  | boolean (b : Bool) : Denotes (.boolean b) .boolean (.bool b)
  | unsigned {bits : Nat} {n : Int} (h : 0 ≤ n ∧ n < 2 ^ bits) :
      Denotes (.integer n) (.unsigned bits) (.int n)
  | signed {bits : Nat} {n : Int} (h : -2 ^ (bits - 1) ≤ n ∧ n < 2 ^ (bits - 1)) :
      Denotes (.integer n) (.signed bits) (.int n)
  | address (digits : String) : Denotes (.address digits) .address (.text digits)
  | fixedBytes (bs : Bytes) : Denotes (.fixedBytes bs) (.fixedBytes bs.length) (.bytes bs)
  | bytes (bs : Bytes) : Denotes (.bytes bs) .bytes (.bytes bs)
  | string {bs : Bytes} {s : String} (h : Utf8.decode bs = .ok s.toList) :
      Denotes (.text bs) .string (.text s)

/-! ## Constants by their fronts -/

lemma scanConstant_mark (cs : List Char) : scanConstant ("0x".toList ++ cs) = scanHexNumber cs :=
  rfl

lemma scanConstant_hex (cs : List Char) : scanConstant ("hex\"".toList ++ cs) =
    (scanHexQuoted cs).map fun (bs, rest) => (.bytes bs, rest) :=
  rfl

lemma scanConstant_quote (cs : List Char) : scanConstant ('"' :: cs) =
    (scanText ('"' :: cs)).map fun (bs, rest) => (.text bs, rest) :=
  rfl

/-- A numeral in front of what ends an expression begins nothing but an integer. -/
lemma scanConstant_signedDecimal (n : Int) {rest : List Char} (hrest : Ends rest) :
    scanConstant (signedDecimal n ++ rest) = some (.integer n, rest) := by
  obtain ⟨d, ds, hcons⟩ := List.exists_cons_of_ne_nil (Integer.signedDecimal_ne_nil n)
  have hnumeral : ∀ c ∈ d :: ds, Integer.isNumeralChar c = true := by
    rw [← hcons]
    exact fun c => Integer.isNumeralChar_of_mem_signedDecimal
  have hfront : ∀ c cs, signedDecimal n ++ rest = c :: cs → Integer.isNumeralChar c = true := by
    intro c cs heq
    rw [hcons, List.cons_append, List.cons.injEq] at heq
    exact heq.1 ▸ hnumeral d (by simp)
  have hmark : ∀ cs, signedDecimal n ++ rest ≠ '0' :: 'x' :: cs := by
    intro cs heq
    rw [hcons, List.cons_append, List.cons.injEq] at heq
    cases ds with
    | nil => exact hrest.ne_cons (by decide) cs heq.2
    | cons e ds =>
      obtain rfl : e = 'x' := by simpa using congrArg List.head? heq.2
      exact absurd (hnumeral 'x' (by simp)) (by decide)
  unfold scanConstant
  split
  next heq => exact absurd heq (hmark _)
  next heq => exact absurd (hfront _ _ heq) (by decide)
  next heq => exact absurd (hfront _ _ heq) (by decide)
  next heq => exact absurd (hfront _ _ heq) (by decide)
  next heq => exact absurd (hfront _ _ heq) (by decide)
  next => rw [scanInteger_signedDecimal n hrest.not_digit, Option.map_some]

/-- What is an address has forty digits. -/
lemma scanHexNumber_of_scanAddress {cs rest : List Char} {s : String}
    (h : scanAddress ('0' :: 'x' :: cs) = some (s, rest)) :
    scanHexNumber cs = some (.address s, rest) := by
  have hcount : (cs.takeWhile Hex.isDigit).length = Address.digitCount := by
    have hfront : '0' :: 'x' :: cs = "0x".toList ++ cs := rfl
    rw [scanAddress, hfront, dropPrefix?_append, Option.bind_some] at h
    simp only at h
    split at h
    next hdigits => exact hdigits.1
    next => cases h
  rw [scanHexNumber, if_pos hcount, h, Option.map_some]

lemma scanConstant_checksummed {bs : Bytes} (hlength : bs.length = 20) {rest : List Char}
    (hrest : Ends rest) :
    scanConstant (Address.checksummed (Hex.encode bs) ++ rest)
      = some (.address (String.ofList ('0' :: 'x' :: Hex.encode bs)), rest) := by
  have hscan := scanAddress_checksummed hlength hrest
  exact (scanConstant_mark _).trans (scanHexNumber_of_scanAddress hscan)

section FixedBytes

variable {bs : Bytes} {rest : List Char}

lemma length_takeWhile_encode (bs : Bytes) (hrest : Ends rest) :
    ((Hex.encode bs ++ rest).takeWhile Hex.isDigit).length = 2 * bs.length := by
  rw [takeWhile_append_of_stop (fun _ => isDigit_of_mem_encode) hrest.not_hexDigit, length_encode]

lemma scanConstant_fixedBytes (hlength : bs.length ≠ 20) (hrest : Ends rest) :
    scanConstant ("0x".toList ++ Hex.encode bs ++ rest) = some (.fixedBytes bs, rest) := by
  have hcount : ((Hex.encode bs ++ rest).takeWhile Hex.isDigit).length ≠ Address.digitCount := by
    rw [length_takeWhile_encode bs hrest, Address.digitCount]
    omega
  rw [List.append_assoc, scanConstant_mark, scanHexNumber, if_neg hcount,
    scanHex_encode bs hrest.not_hexDigit, Option.map_some]

/-- Twenty bytes are an address, or nothing if their letters are in the wrong case. -/
lemma scanConstant_twentyBytes (hlength : bs.length = 20) (hrest : Ends rest) {c : Constant}
    {behind : List Char}
    (h : scanConstant ("0x".toList ++ Hex.encode bs ++ rest) = some (c, behind)) :
    ∃ digits, c = .address digits := by
  have hcount : ((Hex.encode bs ++ rest).takeWhile Hex.isDigit).length = Address.digitCount := by
    rw [length_takeWhile_encode bs hrest, hlength, Address.digitCount]
  rw [List.append_assoc, scanConstant_mark, scanHexNumber, if_pos hcount,
    Option.map_eq_some_iff] at h
  obtain ⟨⟨digits, _⟩, -, heq⟩ := h
  exact ⟨digits, (congrArg Prod.fst heq).symm⟩

end FixedBytes

/-! ## Constants by type -/

/-- A constant is what is written for a value of a basic type, and it is of that type. -/
structure ConstantFor (t : AbiType) (v : Value) (lit : List Char) (c : Constant) : Prop where
  written : literal v (scalarText t) = .ok lit
  scanned : ∀ rest, Ends rest → scanConstant (lit ++ rest) = some (c, rest)
  denotes : c.Denotes t v

lemma constantFor_boolean (b : Bool) :
    ConstantFor .boolean (.bool b) (if b then "true".toList else "false".toList) (.boolean b) where
  written := (literalFor_boolean b).written
  scanned := fun rest _ => by cases b <;> rfl
  denotes := .boolean b

lemma constantFor_unsigned {bits : Nat} {n : Int} (hn : 0 ≤ n ∧ n < 2 ^ bits) :
    ConstantFor (.unsigned bits) (.int n) (signedDecimal n) (.integer n) where
  written := by
    obtain ⟨k, rfl⟩ := Int.eq_ofNat_of_zero_le hn.1
    exact (literalFor_unsigned (by exact_mod_cast hn.2)).written
  scanned := fun _ => scanConstant_signedDecimal n
  denotes := .unsigned hn

lemma constantFor_signed {bits : Nat} {n : Int} (hn : -2 ^ (bits - 1) ≤ n ∧ n < 2 ^ (bits - 1)) :
    ConstantFor (.signed bits) (.int n) (signedDecimal n) (.integer n) where
  written := (literalFor_signed hn).written
  scanned := fun _ => scanConstant_signedDecimal n
  denotes := .signed hn

lemma constantFor_address {bs : Bytes} (hlength : bs.length = 20) :
    ConstantFor .address (.text (String.ofList ('0' :: 'x' :: Hex.encode bs)))
      (Address.checksummed (Hex.encode bs))
      (.address (String.ofList ('0' :: 'x' :: Hex.encode bs))) where
  written := (literalFor_address hlength).written
  scanned := fun _ => scanConstant_checksummed hlength
  denotes := .address _

lemma constantFor_fixedBytes {bs : Bytes} (hlength : bs.length ≠ 20) :
    ConstantFor (.fixedBytes bs.length) (.bytes bs) ("0x".toList ++ Hex.encode bs)
      (.fixedBytes bs) where
  written := (literalFor_fixedBytes bs).written
  scanned := fun _ => scanConstant_fixedBytes hlength
  denotes := .fixedBytes bs

lemma constantFor_bytes (bs : Bytes) :
    ConstantFor .bytes (.bytes bs) ("hex\"".toList ++ (Hex.encode bs ++ ['"'])) (.bytes bs) where
  written := (literalFor_bytes bs).written
  scanned := fun rest _ => by
    have hquoted : scanHexQuoted (Hex.encode bs ++ (['"'] ++ rest)) = some (bs, rest) := by
      simp only [scanHexQuoted, scanHex_encode_quote, Option.bind_some, dropPrefix?_append,
        Option.map_some]
    rw [List.append_assoc, List.append_assoc, scanConstant_hex, hquoted, Option.map_some]
  denotes := .bytes bs

lemma constantFor_string (s : String) :
    ConstantFor .string (.text s) (quote s.toList) (.text (Utf8.encode s.toList)) where
  written := (literalFor_string s).written
  scanned := fun rest _ => by
    have hread := scanText_quote s.toList rest
    rw [quote, List.cons_append, List.cons_append] at hread ⊢
    rw [scanConstant_quote, hread, Option.map_some]
  denotes := .string (Utf8.decode_encode _)

/-- **Every value of a basic type but those of twenty bytes has a constant.** -/
theorem exists_constantFor {t : AbiType} {v : Value} (ht : Standard t) (hv : IsScalar t v)
    (htwenty : t ≠ .fixedBytes 20) : ∃ lit c, ConstantFor t v lit c := by
  unfold IsScalar at hv
  split at hv
  next bits n => exact ⟨_, _, constantFor_unsigned hv⟩
  next bits n => exact ⟨_, _, constantFor_signed hv⟩
  next => cases ht
  next => cases ht
  next b => exact ⟨_, _, constantFor_boolean b⟩
  next s =>
    obtain ⟨bs, hlength, rfl⟩ := hv
    exact ⟨_, _, constantFor_address hlength⟩
  next size bs =>
    obtain rfl : bs.length = size := hv
    exact ⟨_, _, constantFor_fixedBytes fun hlength => htwenty (by rw [hlength])⟩
  next bs => exact ⟨_, _, constantFor_bytes bs⟩
  next s => exact ⟨_, _, constantFor_string s⟩
  next => exact hv.elim

/-- **A literal is a constant of the type it is written for, and stands for the value, exactly if
the type is not that of twenty bytes.** -/
theorem constant_of_literal_iff {t : AbiType} {v : Value} (ht : Standard t) (hv : IsScalar t v) :
    ∃ lit, literal v (scalarText t) = .ok lit ∧ ∀ rest, Ends rest →
      ((∃ c, scanConstant (lit ++ rest) = some (c, rest) ∧ c.Denotes t v) ↔
        t ≠ .fixedBytes 20) := by
  by_cases htwenty : t = .fixedBytes 20
  · subst htwenty
    cases v with
    | bytes bs =>
      have hlength : bs.length = 20 := hv
      have hwritten := (literalFor_fixedBytes bs).written
      rw [hlength] at hwritten
      refine ⟨_, hwritten, fun rest hrest => ⟨?_, fun hne => absurd rfl hne⟩⟩
      rintro ⟨c, hscan, hdenotes⟩
      obtain ⟨digits, rfl⟩ := scanConstant_twentyBytes hlength hrest hscan
      cases hdenotes
    | _ => exact hv.elim
  · obtain ⟨lit, c, hc⟩ := exists_constantFor ht hv htwenty
    exact ⟨lit, hc.written, fun rest hrest =>
      ⟨fun _ => htwenty, fun _ => ⟨c, hc.scanned rest hrest, hc.denotes⟩⟩⟩

/-- The selector of a transfer, as an argument. -/
theorem constant_of_literal_selector :
    ∃ lit, literal (.bytes [0xA9, 0x05, 0x9C, 0xBB]) "bytes4".toList = .ok lit ∧
      ∃ c, scanConstant (lit ++ [')']) = some (c, [')']) ∧
        c.Denotes (.fixedBytes 4) (.bytes [0xA9, 0x05, 0x9C, 0xBB]) := by
  have hstandard : Standard (.fixedBytes 4) := .fixedBytes (by decide) (by decide)
  have hvalue : IsScalar (.fixedBytes 4) (.bytes [0xA9, 0x05, 0x9C, 0xBB]) := rfl
  have htext : scalarText (.fixedBytes 4) = "bytes4".toList := by decide +kernel
  obtain ⟨lit, hwritten, hiff⟩ := constant_of_literal_iff hstandard hvalue
  rw [htext] at hwritten
  exact ⟨lit, hwritten, (hiff [')'] (by simp [Ends])).mpr (by simp)⟩

/-- Twenty zero bytes: the literal is that of the zero address. -/
theorem twentyBytes_without_constant :
    ¬∀ t v, Standard t → IsScalar t v → ∃ lit c, literal v (scalarText t) = .ok lit ∧
      scanConstant lit = some (c, []) ∧ c.Denotes t v := by
  intro hall
  obtain ⟨lit, c, hlit, hscan, hdenotes⟩ := hall (.fixedBytes 20) (.bytes (List.replicate 20 0))
    (.fixedBytes (by decide) (by decide)) rfl
  have hwritten := (literalFor_fixedBytes (List.replicate 20 0)).written
  obtain rfl := Except.ok.inj (hlit.symm.trans hwritten)
  rw [← List.append_nil ("0x".toList ++ _)] at hscan
  obtain ⟨digits, rfl⟩ := scanConstant_twentyBytes rfl (by simp [Ends]) hscan
  cases hdenotes

end HoneypotAudit.Solidity
