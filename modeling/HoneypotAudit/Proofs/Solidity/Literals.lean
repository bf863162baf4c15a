import HoneypotAudit.Proofs.Solidity.Rendering
import HoneypotAudit.Proofs.Text.Integer
import HoneypotAudit.Proofs.Text.Spans
import HoneypotAudit.Proofs.Text.Utf8
import Mathlib.Algebra.BigOperators.Group.List.Basic
import Mathlib.Tactic.FinCases

/-!
# Literals read back

`readScalar` reads a literal of a basic type off the front of a text, in the way the language reads
it: numbers have to be in the range of their type, addresses have to carry their checksum, byte
strings to have their length, and a text is what its bytes are in UTF-8.

What is written for a value of a basic type reads as that value (`exists_literalFor`).
-/

namespace HoneypotAudit.Solidity

open HoneypotAudit.Text HoneypotAudit.Abi HoneypotAudit.Abi.TypeText HoneypotAudit.Number

/-! ## Scans -/

/-- Takes something off the front of a text. -/
abbrev Scan (α : Type) := List Char → Option (α × List Char)

/-- A number in decimal digits. -/
def scanNumber : Scan Nat := fun cs =>
  let ds := cs.takeWhile isAsciiDigit
  if ds = [] then none else some (spelled ds, cs.dropWhile isAsciiDigit)

/-- Whether there is a minus sign in front, and what comes behind it. -/
def scanSign : List Char → Bool × List Char
  | '-' :: cs => (true, cs)
  | cs => (false, cs)

/-- An integer in decimal digits. -/
def scanInteger : Scan Int := fun cs =>
  let (negative, cs) := scanSign cs
  (scanNumber cs).map fun (n, rest) => (Integer.withSign negative n, rest)

/-- The digits behind a point; there may be no point. -/
def scanPlaces : List Char → List Char × List Char
  | '.' :: cs => (cs.takeWhile isAsciiDigit, cs.dropWhile isAsciiDigit)
  | cs => ([], cs)

/-- The power of ten behind the digits of a number; there may be none. -/
def scanExponent : Scan Int
  | 'E' :: cs => scanInteger cs
  | cs => some (0, cs)

/-- A decimal fraction in lowest terms, from its digits and the number of places, which is below
zero if zeros are missing at the end of the digits. -/
def fraction (digits places : Int) : Int × Nat :=
  reduceFraction (digits * 10 ^ (-places).toNat) places.toNat

/-- A decimal fraction. -/
def scanFraction : Scan (Int × Nat) := fun cs =>
  let (negative, cs) := scanSign cs
  let whole := cs.takeWhile isAsciiDigit
  let (behind, cs) := scanPlaces (cs.dropWhile isAsciiDigit)
  (scanExponent cs).bind fun (exponent, rest) =>
    if whole = [] then none
    else
      let digits := Integer.withSign negative (spelled (whole ++ behind))
      some (fraction digits (behind.length - exponent), rest)

/-- Bytes in pairs of hexadecimal digits. -/
def scanHex : Scan Bytes := fun cs =>
  match Hex.decodePairs (cs.takeWhile Hex.isDigit) with
  | .ok bs => some (bs, cs.dropWhile Hex.isDigit)
  | .error _ => none

/-- An address with its checksum, as the text of its digits in lower case. -/
def scanAddress : Scan String := fun cs =>
  (cs.dropPrefix? "0x".toList).bind fun cs =>
    let digits := cs.takeWhile Hex.isDigit
    let lower := digits.map Address.lowerDigit
    if digits.length = Address.digitCount ∧ Address.checksumDigits lower = digits then
      some (String.ofList ('0' :: 'x' :: lower), cs.dropWhile Hex.isDigit)
    else none

/-- The character that a letter behind a backslash stands for. -/
def unescape? : Char → Option Char
  | '"' => some '"'
  | '\\' => some '\\'
  | 'n' => some '\n'
  | 'r' => some '\r'
  | 't' => some '\t'
  | _ => none

/-- The bytes of a text up to the closing quote. -/
def scanQuoted : Scan Bytes
  | [] => none
  | c :: cs =>
    if c = '"' then some ([], cs)
    else if c = '\\' then
      match cs with
      | 'x' :: high :: low :: cs =>
        match Hex.value? high, Hex.value? low with
        | some high, some low =>
          (scanQuoted cs).map fun (bs, rest) => (UInt8.ofNat (high * 16 + low) :: bs, rest)
        | _, _ => none
      | e :: cs =>
        (unescape? e).bind fun c =>
          (scanQuoted cs).map fun (bs, rest) => (String.utf8EncodeChar c ++ bs, rest)
      | [] => none
    else if isPlain c then
      (scanQuoted cs).map fun (bs, rest) => (String.utf8EncodeChar c ++ bs, rest)
    else none

/-- A literal of a basic type. -/
def readScalar : AbiType → Scan Value
  | .unsigned bits, cs =>
    (scanNumber cs).bind fun (n, rest) => if n < 2 ^ bits then some (.int n, rest) else none
  | .signed bits, cs =>
    (scanInteger cs).bind fun (n, rest) =>
      if -2 ^ (bits - 1) ≤ n ∧ n < 2 ^ (bits - 1) then some (.int n, rest) else none
  | .unsignedFixed _ places, cs =>
    (scanFraction cs).bind fun ((c, p), rest) =>
      if 0 ≤ c ∧ p ≤ places then some (.decimal c p, rest) else none
  | .signedFixed _ places, cs =>
    (scanFraction cs).bind fun ((c, p), rest) =>
      if p ≤ places then some (.decimal c p, rest) else none
  | .boolean, cs =>
    match cs.dropPrefix? "true".toList with
    | some rest => some (.bool true, rest)
    | none => (cs.dropPrefix? "false".toList).map fun rest => (.bool false, rest)
  | .address, cs => (scanAddress cs).map fun (s, rest) => (.text s, rest)
  | .fixedBytes size, cs =>
    (cs.dropPrefix? "0x".toList).bind fun cs =>
      (scanHex cs).bind fun (bs, rest) =>
        if bs.length = size then some (.bytes bs, rest) else none
  | .bytes, cs =>
    (cs.dropPrefix? "hex\"".toList).bind fun cs =>
      (scanHex cs).bind fun (bs, cs) =>
        (cs.dropPrefix? ['"']).map fun rest => (.bytes bs, rest)
  | .string, cs =>
    (cs.dropPrefix? ['"']).bind fun cs =>
      (scanQuoted cs).bind fun (bs, rest) =>
        (Utf8.decode bs).toOption.map fun cs => (.text (String.ofList cs), rest)
  | _, _ => none

/-! ## Values of basic types -/

/-- The base and the size of a basic type. -/
def scalarName : AbiType → String × Option Size
  | .unsigned bits => ("uint", some (.one bits))
  | .signed bits => ("int", some (.one bits))
  | .unsignedFixed bits places => ("ufixed", some (.pair bits places))
  | .signedFixed bits places => ("fixed", some (.pair bits places))
  | .boolean => ("bool", none)
  | .address => ("address", none)
  | .fixedBytes size => ("bytes", some (.one size))
  | .bytes => ("bytes", none)
  | .string => ("string", none)
  | _ => ("", none)

/-- The text of a basic type. -/
def scalarText (t : AbiType) : List Char :=
  (scalarName t).1.toList ++ sizeText (scalarName t).2

/-- A value is one of a basic type.  A fixed-point number is an integer in the range of the type
over a power of ten. -/
def IsScalar : AbiType → Value → Prop
  | .unsigned bits, .int n => 0 ≤ n ∧ n < 2 ^ bits
  | .signed bits, .int n => -2 ^ (bits - 1) ≤ n ∧ n < 2 ^ (bits - 1)
  | .unsignedFixed bits places, .decimal c p =>
    ∃ n : Int, (0 ≤ n ∧ n < 2 ^ bits) ∧ reduceFraction n places = (c, p)
  | .signedFixed bits places, .decimal c p =>
    ∃ n : Int, (-2 ^ (bits - 1) ≤ n ∧ n < 2 ^ (bits - 1)) ∧ reduceFraction n places = (c, p)
  | .boolean, .bool _ => True
  | .address, .text s => IsAddress s
  | .fixedBytes size, .bytes bs => bs.length = size
  | .bytes, .bytes _ => True
  | .string, .text _ => True
  | _, _ => False

/-- A text ends an expression: there is nothing, or something that may follow an expression. -/
def Ends (rest : List Char) : Prop :=
  ∀ c ∈ rest.head?, c ∈ [')', ',', ']', ';']

/-! ## Where a scan stops -/

section Stops

variable {p : Char → Bool} {rest : List Char}

/-- Characters that do not follow an expression do not end it. -/
lemma Ends.stop (h : Ends rest) (hp : ∀ c ∈ [')', ',', ']', ';'], p c = false) :
    ∀ c ∈ rest.head?, p c = false :=
  fun c hc => hp c (h c hc)

lemma Ends.ne_cons (h : Ends rest) {c : Char} (hc : c ∉ [')', ',', ']', ';']) (cs : List Char) :
    rest ≠ c :: cs := by
  rintro rfl
  exact hc (h c (by simp))

end Stops

@[simp] lemma dropPrefix?_append (word rest : List Char) :
    (word ++ rest).dropPrefix? word = some rest :=
  List.dropPrefix?_append_of_beq rest (by simp)

/-! ## Numbers -/

lemma scanNumber_decimal (n : Nat) {rest : List Char}
    (hrest : ∀ c ∈ rest.head?, isAsciiDigit c = false) :
    scanNumber (decimal n ++ rest) = some (n, rest) := by
  have hdigits : ∀ c ∈ decimal n, isAsciiDigit c = true := fun c => isAsciiDigit_of_mem_decimal
  simp only [scanNumber, takeWhile_append_of_stop hdigits hrest,
    dropWhile_append_of_stop hdigits hrest, if_neg (decimal_ne_nil n), spelled_decimal]

/-- The minus sign of a number below zero. -/
def minus (n : Int) : List Char :=
  if n < 0 then ['-'] else []

/-- The sign is told from the digits behind it. -/
lemma scanSign_minus (n : Int) {cs : List Char} (hcs : ∀ c ∈ cs.head?, c ≠ '-') :
    scanSign (minus n ++ cs) = (decide (n < 0), cs) := by
  unfold minus
  split
  next h => simp [scanSign, h]
  next h =>
    rw [List.nil_append, decide_eq_false h]
    cases cs with
    | nil => rfl
    | cons c cs =>
      have hc : c ≠ '-' := hcs c (by simp)
      unfold scanSign
      split
      next heq => cases heq; exact absurd rfl hc
      next => rfl

lemma ne_minus_of_isAsciiDigit {c : Char} (h : isAsciiDigit c = true) : c ≠ '-' := by
  rintro rfl
  exact absurd h (by decide)

/-- Digits in front of a text are no sign. -/
lemma head?_ne_minus {ds : List Char} (hne : ds ≠ []) (hds : ∀ c ∈ ds, isAsciiDigit c = true)
    (rest : List Char) : ∀ c ∈ (ds ++ rest).head?, c ≠ '-' := by
  obtain ⟨d, ds, rfl⟩ := List.exists_cons_of_ne_nil hne
  intro c hc
  obtain rfl : d = c := by simpa using hc
  exact ne_minus_of_isAsciiDigit (hds d (by simp))

lemma scanInteger_signedDecimal (n : Int) {rest : List Char}
    (hrest : ∀ c ∈ rest.head?, isAsciiDigit c = false) :
    scanInteger (signedDecimal n ++ rest) = some (n, rest) := by
  have hhead := head?_ne_minus (decimal_ne_nil n.natAbs)
    (fun c => isAsciiDigit_of_mem_decimal) rest
  have hsplit : signedDecimal n = minus n ++ decimal n.natAbs := signedDecimal_eq n
  rw [hsplit, List.append_assoc, scanInteger, scanSign_minus n hhead]
  simp only [scanNumber_decimal n.natAbs hrest, Option.map_some, Integer.withSign_natAbs]

/-! ## Fractions -/

/-- What is in lowest terms stays as it is. -/
lemma reduceFraction_of_reduced {n c : Int} {places p : Nat}
    (h : reduceFraction n places = (c, p)) : reduceFraction c p = (c, p) ∧ p ≤ places := by
  induction places generalizing n with
  | zero =>
    obtain ⟨rfl, rfl⟩ : n = c ∧ 0 = p := by simpa [reduceFraction] using h
    exact ⟨rfl, le_rfl⟩
  | succ places ih =>
    rw [reduceFraction] at h
    split at h
    next =>
      obtain ⟨hreduced, hle⟩ := ih h
      exact ⟨hreduced, by omega⟩
    next hdigit =>
      obtain ⟨rfl, rfl⟩ : n = c ∧ places + 1 = p := by simpa using h
      exact ⟨by rw [reduceFraction, if_neg hdigit], le_rfl⟩

lemma reduceFraction_nonneg {n c : Int} {places p : Nat} (hn : 0 ≤ n)
    (h : reduceFraction n places = (c, p)) : 0 ≤ c := by
  induction places generalizing n with
  | zero =>
    obtain ⟨rfl, -⟩ : n = c ∧ 0 = p := by simpa [reduceFraction] using h
    exact hn
  | succ places ih =>
    rw [reduceFraction] at h
    split at h
    next => exact ih (by omega) h
    next =>
      obtain ⟨rfl, -⟩ : n = c ∧ places + 1 = p := by simpa using h
      exact hn

/-- A fraction is read from its sign, its digits before and behind the point, and its exponent. -/
lemma scanFraction_of {n : Int} {whole behind more more' rest : List Char} {exponent : Int}
    (hne : whole ≠ []) (hwhole : ∀ c ∈ whole, isAsciiDigit c = true)
    (hmore : ∀ c ∈ more.head?, isAsciiDigit c = false) (hplaces : scanPlaces more = (behind, more'))
    (hexponent : scanExponent more' = some (exponent, rest))
    (hdigits : spelled (whole ++ behind) = n.natAbs) :
    scanFraction (minus n ++ whole ++ more)
      = some (fraction n (behind.length - exponent), rest) := by
  rw [scanFraction, List.append_assoc, scanSign_minus n (head?_ne_minus hne hwhole more)]
  simp only [takeWhile_append_of_stop hwhole hmore, dropWhile_append_of_stop hwhole hmore, hplaces,
    hexponent, Option.bind_some, if_neg hne, hdigits, Integer.withSign_natAbs]

@[simp] lemma fraction_natCast (n : Int) (places : Nat) :
    fraction n places = reduceFraction n places := by
  simp [fraction]

/-- Nothing behind the digits of a number: no point and no exponent. -/
lemma Ends.scanPlaces {rest : List Char} (h : Ends rest) :
    Solidity.scanPlaces rest = ([], rest) := by
  unfold Solidity.scanPlaces
  split
  next cs => exact absurd rfl (h.ne_cons (by decide) cs)
  next => rfl

lemma Ends.scanExponent {rest : List Char} (h : Ends rest) :
    Solidity.scanExponent rest = some (0, rest) := by
  unfold Solidity.scanExponent
  split
  next cs => exact absurd rfl (h.ne_cons (by decide) cs)
  next => rfl

lemma Ends.not_digit {rest : List Char} (h : Ends rest) :
    ∀ c ∈ rest.head?, isAsciiDigit c = false :=
  h.stop fun c hc => by fin_cases hc <;> rfl

/-- Digits with a point among them. -/
lemma scanFraction_pointed {c : Int} {p : Nat} {ds rest : List Char}
    (hreduced : reduceFraction c p = (c, p)) (hds : ∀ d ∈ ds, isAsciiDigit d = true)
    (hlength : p < ds.length) (hvalue : spelled ds = c.natAbs) (hrest : Ends rest) :
    scanFraction (minus c ++ ds.take (ds.length - p) ++ '.' :: (ds.drop (ds.length - p) ++ rest))
      = some ((c, p), rest) := by
  have hwhole : ds.take (ds.length - p) ≠ [] := by
    rw [← List.length_pos_iff, List.length_take]
    omega
  have hbehind : (ds.drop (ds.length - p)).length = p := by
    rw [List.length_drop]
    omega
  have hdrop : ∀ d ∈ ds.drop (ds.length - p), isAsciiDigit d = true :=
    fun d hd => hds d (List.mem_of_mem_drop hd)
  have hpoint : scanPlaces ('.' :: (ds.drop (ds.length - p) ++ rest))
      = (ds.drop (ds.length - p), rest) := by
    rw [scanPlaces, takeWhile_append_of_stop hdrop hrest.not_digit,
      dropWhile_append_of_stop hdrop hrest.not_digit]
  rw [scanFraction_of hwhole (fun d hd => hds d (List.mem_of_mem_take hd)) (by simp [isAsciiDigit])
    hpoint hrest.scanExponent (by rw [List.take_append_drop, hvalue]), hbehind, Int.sub_zero,
    fraction_natCast, hreduced]

/-- Digits with a point behind the first one, if there are more, and an exponent. -/
lemma scanFraction_scaled {c : Int} {p : Nat} {d : Char} {ds more rest : List Char} {top : Int}
    (hreduced : reduceFraction c p = (c, p)) (hds : ∀ e ∈ d :: ds, isAsciiDigit e = true)
    (hvalue : spelled (d :: ds) = c.natAbs) (htop : (ds.length : Int) - top = p)
    (hmore : ∀ e ∈ more.head?, isAsciiDigit e = false)
    (hplaces : scanPlaces more = (ds, 'E' :: (signedDecimal top ++ rest))) (hrest : Ends rest) :
    scanFraction (minus c ++ [d] ++ more) = some ((c, p), rest) := by
  have hexponent : scanExponent ('E' :: (signedDecimal top ++ rest)) = some (top, rest) :=
    scanInteger_signedDecimal top hrest.not_digit
  rw [scanFraction_of (by simp) (fun e he => hds e (by simp_all)) hmore hplaces hexponent hvalue,
    htop, fraction_natCast, hreduced]

/-- **A fraction in lowest terms is read back.** -/
lemma scanFraction_fractionText {c : Int} {p : Nat} (hreduced : reduceFraction c p = (c, p))
    {rest : List Char} (hrest : Ends rest) :
    scanFraction (fractionText c p ++ rest) = some ((c, p), rest) := by
  have hds : ∀ d ∈ decimal c.natAbs, isAsciiDigit d = true := fun d => isAsciiDigit_of_mem_decimal
  have hne := decimal_ne_nil c.natAbs
  have hvalue := spelled_decimal c.natAbs
  have hminus : (if c < 0 then ['-'] else []) = minus c := rfl
  simp only [fractionText, hminus]
  split
  next hzero =>
    subst hzero
    rw [scanFraction_of hne hds hrest.not_digit hrest.scanPlaces hrest.scanExponent
      (by rw [List.append_nil, hvalue]), List.length_nil, Int.sub_zero, fraction_natCast, hreduced]
  split
  next =>
    -- filled with zeros, the digits leave one in front of the point
    rw [List.append_assoc, List.cons_append]
    refine scanFraction_pointed hreduced ?_ ?_ ?_ hrest
    · intro d hd
      rcases List.mem_append.mp hd with hd | hd
      · rw [List.eq_of_mem_replicate hd]
        rfl
      · exact hds d hd
    · rw [padLeft, List.length_append, List.length_replicate]
      omega
    · rw [padLeft, spelled_replicate_append, hvalue]
  next =>
    obtain ⟨d, ds, hdecimal⟩ := List.exists_cons_of_ne_nil hne
    rw [hdecimal] at hds hvalue ⊢
    cases ds with
    | nil =>
      rw [List.append_assoc, List.cons_append]
      exact scanFraction_scaled hreduced hds hvalue (by simp) (by simp [isAsciiDigit]) rfl hrest
    | cons e es =>
      have hes : ∀ x ∈ e :: es, isAsciiDigit x = true :=
        fun x hx => hds x (List.mem_cons_of_mem d hx)
      have hsplit : ∀ tail, minus c ++ d :: '.' :: e :: es ++ 'E' :: tail ++ rest
          = minus c ++ [d] ++ '.' :: (e :: es ++ 'E' :: (tail ++ rest)) := by simp
      have hplaces : ∀ tail,
          scanPlaces ('.' :: (e :: es ++ 'E' :: tail)) = (e :: es, 'E' :: tail) := by
        intro tail
        rw [scanPlaces, takeWhile_append_of_stop hes (by simp [isAsciiDigit]),
          dropWhile_append_of_stop hes (by simp [isAsciiDigit])]
      rw [hsplit]
      exact scanFraction_scaled hreduced hds hvalue (by simp) (by simp [isAsciiDigit])
        (hplaces _) hrest

/-! ## Bytes and addresses -/

lemma exists_digit_of_mem_encode {bs : Bytes} {c : Char} (h : c ∈ Hex.encode bs) :
    ∃ k < 16, c = Hex.digit k := by
  obtain ⟨b, -, hc⟩ := List.mem_flatMap.mp h
  have hb := b.toNat_lt
  simp only [Hex.encodeByte, List.mem_cons, List.not_mem_nil, or_false] at hc
  rcases hc with rfl | rfl
  · exact ⟨_, by omega, rfl⟩
  · exact ⟨_, by omega, rfl⟩

lemma scanHex_encode (bs : Bytes) {rest : List Char}
    (hrest : ∀ c ∈ rest.head?, Hex.isDigit c = false) :
    scanHex (Hex.encode bs ++ rest) = some (bs, rest) := by
  have hdigits : ∀ c ∈ Hex.encode bs, Hex.isDigit c = true := fun c => isDigit_of_mem_encode
  simp only [scanHex, takeWhile_append_of_stop hdigits hrest,
    dropWhile_append_of_stop hdigits hrest, Hex.decodePairs_encode]

/-- The digits end at the closing quote. -/
lemma scanHex_encode_quote (bs : Bytes) (rest : List Char) :
    scanHex (Hex.encode bs ++ (['"'] ++ rest)) = some (bs, ['"'] ++ rest) :=
  scanHex_encode bs (by simp [Hex.isDigit, Hex.value?])

lemma Ends.not_hexDigit {rest : List Char} (h : Ends rest) :
    ∀ c ∈ rest.head?, Hex.isDigit c = false :=
  h.stop fun c hc => by fin_cases hc <;> rfl

lemma length_hash (bs : Bytes) : (Address.Keccak.hash bs).length = 32 := by
  simp only [Address.Keccak.hash, Address.Keccak.bytesOfWord, List.length_flatMap, List.length_map,
    List.length_range, List.map_const', List.sum_replicate, List.length_take, Vector.length_toList]
  rfl

/-- The case of a digit does not change its value. -/
lemma digit_cases {k : Nat} (hk : k < 16) :
    Address.lowerDigit (Hex.digit k) = Hex.digit k ∧
      Address.lowerDigit (Address.upperDigit (Hex.digit k)) = Hex.digit k ∧
      Hex.isDigit (Hex.digit k) = true ∧ Hex.isDigit (Address.upperDigit (Hex.digit k)) = true := by
  have h : ∀ k : Fin 16, Address.lowerDigit (Hex.digit k) = Hex.digit k ∧
      Address.lowerDigit (Address.upperDigit (Hex.digit k)) = Hex.digit k ∧
      Hex.isDigit (Hex.digit k) = true ∧ Hex.isDigit (Address.upperDigit (Hex.digit k)) = true := by
    decide
  exact h ⟨k, hk⟩

lemma map_lowerDigit_encode (bs : Bytes) :
    (Hex.encode bs).map Address.lowerDigit = Hex.encode bs := by
  refine List.map_congr_left (fun c hc => ?_) |>.trans (List.map_id _)
  obtain ⟨k, hk, rfl⟩ := exists_digit_of_mem_encode hc
  exact (digit_cases hk).1

/-- The checksum only changes the case of digits. -/
lemma zipWith_case (upper : Char → Bool) {digits hash : List Char}
    (hdigits : ∀ c ∈ digits, ∃ k < 16, c = Hex.digit k) (hlength : digits.length ≤ hash.length) :
    (List.zipWith (fun c h => if upper h then Address.upperDigit c else c) digits hash).map
        Address.lowerDigit = digits ∧
      ∀ c ∈ List.zipWith (fun c h => if upper h then Address.upperDigit c else c) digits hash,
        Hex.isDigit c = true := by
  induction digits generalizing hash with
  | nil => simp
  | cons c cs ih =>
    obtain ⟨h, hs, rfl⟩ : ∃ h hs, hash = h :: hs := by
      refine List.exists_cons_of_ne_nil ?_
      rintro rfl
      simp at hlength
    obtain ⟨k, hk, rfl⟩ := hdigits c (by simp)
    obtain ⟨hlower, hupper, hdigit, hdigitUpper⟩ := digit_cases hk
    obtain ⟨hmap, hall⟩ := ih (fun x hx => hdigits x (by simp [hx])) (by simpa using hlength)
    rw [List.zipWith_cons_cons, List.map_cons, hmap]
    split
    · exact ⟨by rw [hupper], List.forall_mem_cons.mpr ⟨hdigitUpper, hall⟩⟩
    · exact ⟨by rw [hlower], List.forall_mem_cons.mpr ⟨hdigit, hall⟩⟩

/-- **An address is read back from its checksummed form.** -/
lemma scanAddress_checksummed {bs : Bytes} (hlength : bs.length = 20) {rest : List Char}
    (hrest : Ends rest) :
    scanAddress (Address.checksummed (Hex.encode bs) ++ rest)
      = some (String.ofList ('0' :: 'x' :: Hex.encode bs), rest) := by
  have hdigits : (Hex.encode bs).length = 40 := by rw [length_encode, hlength]
  obtain ⟨hash, hhash⟩ : ∃ hash, hash = Hex.encode
      (Address.Keccak.hash ((Hex.encode bs).map fun c => UInt8.ofNat c.toNat)) := ⟨_, rfl⟩
  have hlong : hash.length = 64 := by rw [hhash, length_encode, length_hash]
  have hchecksum : Address.checksumDigits (Hex.encode bs) = List.zipWith
      (fun c h => if decide (7 < (Hex.value? h).getD 0) then Address.upperDigit c else c)
      (Hex.encode bs) hash := by
    simp only [Address.checksumDigits, ← hhash, decide_eq_true_eq]
  obtain ⟨hlower, hall⟩ := zipWith_case (fun h => decide (7 < (Hex.value? h).getD 0))
    (fun c hc => exists_digit_of_mem_encode hc) (show (Hex.encode bs).length ≤ hash.length by omega)
  rw [← hchecksum] at hlower hall
  have hcount : (Address.checksumDigits (Hex.encode bs)).length = Address.digitCount := by
    rw [← List.length_map Address.lowerDigit, hlower, hdigits]
    rfl
  have hfront : Address.checksummed (Hex.encode bs) ++ rest
      = "0x".toList ++ (Address.checksumDigits (Hex.encode bs) ++ rest) := rfl
  rw [scanAddress, hfront, dropPrefix?_append, Option.bind_some]
  simp only [takeWhile_append_of_stop hall hrest.not_hexDigit,
    dropWhile_append_of_stop hall hrest.not_hexDigit, hlower, hcount, and_self, if_true]

/-! ## Texts -/

lemma scanQuoted_quote (cs : List Char) : scanQuoted ('"' :: cs) = some ([], cs) := by
  rw [scanQuoted.eq_def]
  rfl

lemma scanQuoted_plain {c : Char} (hquote : c ≠ '"') (hslash : c ≠ '\\') (hplain : isPlain c = true)
    (cs : List Char) : scanQuoted (c :: cs)
      = (scanQuoted cs).map fun (bs, rest) => (String.utf8EncodeChar c ++ bs, rest) := by
  rw [scanQuoted.eq_def]
  simp only [if_neg hquote, if_neg hslash, if_pos hplain]

lemma scanQuoted_letter {c e : Char} (hletter : unescape? e = some c) (cs : List Char) :
    scanQuoted ('\\' :: e :: cs)
      = (scanQuoted cs).map fun (bs, rest) => (String.utf8EncodeChar c ++ bs, rest) := by
  rw [scanQuoted.eq_def]
  simp only [if_neg (show ¬ '\\' = '"' by decide), if_true]
  split
  next heq => cases heq; cases hletter
  next heq => cases heq; rw [hletter]; rfl
  next heq => cases heq

lemma scanQuoted_byte (b : UInt8) (cs : List Char) :
    scanQuoted (byteEscape b ++ cs) = (scanQuoted cs).map fun (bs, rest) => (b :: bs, rest) := by
  have hb := b.toNat_lt
  have hsplit : byteEscape b ++ cs
      = '\\' :: 'x' :: Hex.digit (b.toNat / 16) :: Hex.digit (b.toNat % 16) :: cs := rfl
  have hbyte : UInt8.ofNat (b.toNat / 16 * 16 + b.toNat % 16) = b := by
    rw [Nat.div_add_mod', UInt8.ofNat_toNat]
  rw [hsplit, scanQuoted, if_neg (by decide), if_pos rfl]
  simp only [Hex.value?_digit (show b.toNat / 16 < 16 by omega),
    Hex.value?_digit (show b.toNat % 16 < 16 by omega), hbyte]

lemma scanQuoted_bytes (bs : Bytes) (cs : List Char) :
    scanQuoted (bs.flatMap byteEscape ++ cs)
      = (scanQuoted cs).map fun (read, rest) => (bs ++ read, rest) := by
  induction bs with
  | nil => simp
  | cons b bs ih =>
    rw [List.flatMap_cons, List.append_assoc, scanQuoted_byte, ih, Option.map_map]
    rfl

lemma unescape?_of_shortEscape? {c e : Char} (h : shortEscape? c = some e) :
    unescape? e = some c := by
  unfold shortEscape? at h
  split at h <;> cases h <;> rfl

/-- The bytes of a character are read back from its escape. -/
lemma scanQuoted_escapeChar (c : Char) (cs : List Char) :
    scanQuoted (escapeChar c ++ cs)
      = (scanQuoted cs).map fun (bs, rest) => (String.utf8EncodeChar c ++ bs, rest) := by
  unfold escapeChar
  split
  next e he => exact scanQuoted_letter (unescape?_of_shortEscape? he) cs
  next hshort =>
    split
    next hplain =>
      have hquote : c ≠ '"' := by
        rintro rfl
        cases hshort
      have hslash : c ≠ '\\' := by
        rintro rfl
        cases hshort
      exact scanQuoted_plain hquote hslash hplain cs
    next => exact scanQuoted_bytes _ cs

/-- **A text is read back from its literal**, as bytes. -/
lemma scanQuoted_flatMap (cs rest : List Char) :
    scanQuoted (cs.flatMap escapeChar ++ '"' :: rest) = some (Utf8.encode cs, rest) := by
  induction cs with
  | nil => exact scanQuoted_quote rest
  | cons c cs ih =>
    rw [List.flatMap_cons, List.append_assoc, scanQuoted_escapeChar, ih, Option.map_some,
      Utf8.encode_cons]

/-! ## Literals by type -/

-- literals are written and read by cases on the type and on its name
attribute [local simp] literal readScalar scalarText scalarName sizeText startsWith

/-- A literal is what is written for a value of a basic type, and reads as the value whatever
follows the expression. -/
structure LiteralFor (t : AbiType) (v : Value) (lit : List Char) : Prop where
  written : literal v (scalarText t) = .ok lit
  reads : ∀ rest, Ends rest → readScalar t (lit ++ rest) = some (v, rest)

lemma literalFor_unsigned {bits k : Nat} (hk : k < 2 ^ bits) :
    LiteralFor (.unsigned bits) (.int k) (decimal k) where
  written := by
    have hint : integerOf (.int k) = .ok (k : Int) := rfl
    simp [hint, Except.map, signedDecimal]
  reads := by
    intro rest hrest
    simp only [readScalar, scanNumber_decimal k hrest.not_digit, Option.bind_some, if_pos hk]

lemma literalFor_signed {bits : Nat} {n : Int} (hn : -2 ^ (bits - 1) ≤ n ∧ n < 2 ^ (bits - 1)) :
    LiteralFor (.signed bits) (.int n) (signedDecimal n) where
  written := by
    have hint : integerOf (.int n) = .ok n := rfl
    simp [hint, Except.map]
  reads := by
    intro rest hrest
    simp only [readScalar, scanInteger_signedDecimal n hrest.not_digit, Option.bind_some, if_pos hn]

lemma literalFor_unsignedFixed {bits places p : Nat} {n c : Int} (hn : 0 ≤ n)
    (h : reduceFraction n places = (c, p)) :
    LiteralFor (.unsignedFixed bits places) (.decimal c p) (fractionText c p) where
  written := by simp [Value.plain]
  reads := by
    intro rest hrest
    obtain ⟨hreduced, hle⟩ := reduceFraction_of_reduced h
    have hpos := reduceFraction_nonneg hn h
    simp only [readScalar, scanFraction_fractionText hreduced hrest, Option.bind_some,
      if_pos (And.intro hpos hle)]

lemma literalFor_signedFixed {bits places p : Nat} {n c : Int}
    (h : reduceFraction n places = (c, p)) :
    LiteralFor (.signedFixed bits places) (.decimal c p) (fractionText c p) where
  written := by simp [Value.plain]
  reads := by
    intro rest hrest
    obtain ⟨hreduced, hle⟩ := reduceFraction_of_reduced h
    simp only [readScalar, scanFraction_fractionText hreduced hrest, Option.bind_some, if_pos hle]

lemma literalFor_boolean (b : Bool) :
    LiteralFor .boolean (.bool b) (if b then "true".toList else "false".toList) where
  written := rfl
  reads := by
    intro rest _
    cases b <;> simp [List.dropPrefix?]

lemma literalFor_address {bs : Bytes} (hlength : bs.length = 20) :
    LiteralFor .address (.text (String.ofList ('0' :: 'x' :: Hex.encode bs)))
      (Address.checksummed (Hex.encode bs)) where
  written := by
    have hdigits : (Hex.encode bs).all Hex.isDigit = true :=
      List.all_eq_true.mpr fun c hc => isDigit_of_mem_encode hc
    have hcount : (Hex.encode bs).length = Address.digitCount := by
      rw [length_encode, hlength]
      rfl
    simp [addressLiteral, Address.ofText, Hex.dropMark, hdigits, map_lowerDigit_encode,
      Address.ofDigits, hcount]
  reads := by
    intro rest hrest
    rw [readScalar, scanAddress_checksummed hlength hrest, Option.map_some]

lemma literalFor_fixedBytes (bs : Bytes) :
    LiteralFor (.fixedBytes bs.length) (.bytes bs) ("0x".toList ++ Hex.encode bs) where
  written := by
    simp [bytesOf, Except.map, decimal_ne_nil]
  reads := by
    intro rest hrest
    rw [List.append_assoc, readScalar, dropPrefix?_append, Option.bind_some,
      scanHex_encode bs hrest.not_hexDigit]
    simp only [Option.bind_some, if_true]

lemma literalFor_bytes (bs : Bytes) :
    LiteralFor .bytes (.bytes bs) ("hex\"".toList ++ (Hex.encode bs ++ ['"'])) where
  written := by simp [bytesOf, Except.map]
  reads := by
    intro rest _
    rw [List.append_assoc, List.append_assoc, readScalar, dropPrefix?_append, Option.bind_some,
      scanHex_encode_quote]
    simp only [Option.bind_some, dropPrefix?_append, Option.map_some]

lemma literalFor_string (s : String) : LiteralFor .string (.text s) (quote s.toList) where
  written := by simp [stringLiteral]
  reads := by
    intro rest _
    have hsplit : quote s.toList ++ rest
        = ['"'] ++ (s.toList.flatMap escapeChar ++ '"' :: rest) := by simp [quote]
    rw [hsplit, readScalar, dropPrefix?_append, Option.bind_some, scanQuoted_flatMap]
    simp only [Option.bind_some, Utf8.decode_encode, Except.toOption, Option.map_some,
      String.ofList_toList]

/-- **Every value of a basic type has a literal that reads as it.** -/
theorem exists_literalFor {t : AbiType} {v : Value} (hv : IsScalar t v) :
    ∃ lit, LiteralFor t v lit := by
  unfold IsScalar at hv
  split at hv
  next bits n =>
    obtain ⟨k, rfl⟩ := Int.eq_ofNat_of_zero_le hv.1
    exact ⟨_, literalFor_unsigned (by exact_mod_cast hv.2)⟩
  next bits n => exact ⟨_, literalFor_signed hv⟩
  next bits places c p =>
    obtain ⟨n, hn, hreduce⟩ := hv
    exact ⟨_, literalFor_unsignedFixed hn.1 hreduce⟩
  next bits places c p =>
    obtain ⟨n, -, hreduce⟩ := hv
    exact ⟨_, literalFor_signedFixed hreduce⟩
  next b => exact ⟨_, literalFor_boolean b⟩
  next s =>
    obtain ⟨bs, hlength, rfl⟩ := hv
    exact ⟨_, literalFor_address hlength⟩
  next size bs =>
    obtain rfl : bs.length = size := hv
    exact ⟨_, literalFor_fixedBytes bs⟩
  next bs => exact ⟨_, literalFor_bytes bs⟩
  next s => exact ⟨_, literalFor_string s⟩
  next => exact hv.elim

lemma scanFraction_letter {c : Char} (h : isAsciiDigit c = false) (hminus : c ≠ '-')
    (cs : List Char) : scanFraction (c :: cs) = none := by
  have hsign : scanSign (c :: cs) = (false, c :: cs) := by
    unfold scanSign
    split
    next heq => cases heq; exact absurd rfl hminus
    next => rfl
  simp [scanFraction, hsign, h]

/-- The name of a basic type is no literal of it. -/
lemma readScalar_scalarText (t : AbiType) (cs : List Char) :
    readScalar t (scalarText t ++ cs) = none := by
  cases t with
  | unsigned bits => simp [scanNumber, isAsciiDigit]
  | signed bits =>
    simp [scanInteger, scanSign, scanNumber, isAsciiDigit]
  | unsignedFixed bits places =>
    have hnone := scanFraction_letter (show isAsciiDigit 'u' = false from rfl) (by decide)
    simp [hnone]
  | signedFixed bits places =>
    have hnone := scanFraction_letter (show isAsciiDigit 'f' = false from rfl) (by decide)
    simp [hnone]
  | fixedBytes size => simp [List.dropPrefix?]
  | boolean => rfl
  | address => rfl
  | bytes => rfl
  | string => rfl
  | array item => rfl
  | sized item n => rfl
  | tuple items => rfl

end HoneypotAudit.Solidity
