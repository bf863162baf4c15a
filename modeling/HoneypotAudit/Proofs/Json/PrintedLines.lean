import HoneypotAudit.Proofs.Json.Numerals
import HoneypotAudit.Proofs.Json.Texts

/-!
# Log lines in ASCII

What a log line writes of a value is printable ASCII, whatever the value is (`printed_lineOf`): all
other characters of texts stand as escapes.
-/

namespace HoneypotAudit.Json

open HoneypotAudit.Text HoneypotAudit.Number

/-! ## Printable ASCII -/

/-- The characters of ASCII from the space to the tilde. -/
def IsPrintableAscii (c : Char) : Prop :=
  0x20 ≤ c.toNat ∧ c.toNat ≤ 0x7E

instance (c : Char) : Decidable (IsPrintableAscii c) :=
  inferInstanceAs (Decidable (_ ∧ _))

/-- A text in printable ASCII. -/
def Printed (cs : List Char) : Prop :=
  ∀ c ∈ cs, IsPrintableAscii c

-- by the characters of the text; trying all characters that there are is hopeless
instance (cs : List Char) : Decidable (Printed cs) :=
  List.decidableBAll IsPrintableAscii cs

lemma printed_nil : Printed [] :=
  List.forall_mem_nil _

lemma Printed.append {cs ds : List Char} (hcs : Printed cs) (hds : Printed ds) :
    Printed (cs ++ ds) :=
  List.forall_mem_append.mpr ⟨hcs, hds⟩

lemma Printed.cons {c : Char} {cs : List Char} (hc : IsPrintableAscii c) (hcs : Printed cs) :
    Printed (c :: cs) :=
  List.forall_mem_cons.mpr ⟨hc, hcs⟩

lemma printed_flatMap {α : Type} {f : α → List Char} (h : ∀ a, Printed (f a)) (as : List α) :
    Printed (as.flatMap f) := by
  intro c hc
  obtain ⟨a, -, hc⟩ := List.mem_flatMap.mp hc
  exact h a c hc

/-! ### Numbers -/

lemma isPrintableAscii_of_isAsciiDigit {c : Char} (h : isAsciiDigit c = true) :
    IsPrintableAscii c := by
  have hrange := isAsciiDigit_iff.mp h
  exact ⟨by omega, by omega⟩

lemma printed_decimal (n : Nat) : Printed (decimal n) :=
  fun _ hc => isPrintableAscii_of_isAsciiDigit (isAsciiDigit_of_mem_decimal hc)

lemma printed_zeros (n : Nat) : Printed (List.replicate n '0') := by
  intro c hc
  rw [List.eq_of_mem_replicate hc]
  decide

lemma printed_signedDecimal (n : Int) : Printed (signedDecimal n) := by
  rw [signedDecimal_eq]
  refine .append ?_ (printed_decimal _)
  split <;> decide

lemma printed_exponent (l : Layout) (p : Int) : Printed (l.exponent p) := by
  have hsign : Printed (if p < 0 then ['-'] else if l.plus then ['+'] else []) := by
    split
    · decide
    · split <;> decide
  exact .append (.cons (by decide) hsign) (.append (printed_zeros _) (printed_decimal _))

lemma printed_scaled (l : Layout) (s : Scaled) : Printed (l.scaled s) := by
  have hdigits := printed_decimal s.digits
  have hpoint : IsPrintableAscii '.' := by decide
  unfold Layout.scaled
  generalize decimal s.digits = ds at hdigits
  dsimp only
  split
  next =>
    split
    next => exact (hdigits.append (printed_zeros _)).append (by decide)
    next =>
      split
      next =>
        exact .append (fun c hc => hdigits c (List.mem_of_mem_take hc))
          (.cons hpoint fun c hc => hdigits c (List.mem_of_mem_drop hc))
      next => exact .append (.cons (by decide) (.cons hpoint (printed_zeros _))) hdigits
  next =>
    match ds with
    | [] => exact printed_nil
    | [d] => exact .cons (hdigits d List.mem_cons_self) (printed_exponent l _)
    | d :: e :: rest =>
      obtain ⟨hd, hrest⟩ := List.forall_mem_cons.mp hdigits
      exact .append (.cons hd (.cons hpoint hrest)) (printed_exponent l _)

lemma printed_finite (l : Layout) (negative : Bool) (m : Nat) (e : Int) :
    Printed (l.finite negative m e) := by
  have hsigned : ∀ body, Printed body → Printed (if negative then '-' :: body else body) := by
    intro body hbody
    split
    · exact .cons (by decide) hbody
    · exact hbody
  refine hsigned _ ?_
  split
  · decide
  · split
    · exact printed_scaled l _
    · exact printed_nil

lemma printed_floatText (x : Binary64) : Printed (floatText lineStyle x) := by
  match x with
  | .nan => decide
  | .infinite true => decide
  | .infinite false => decide
  | .finite negative m e => exact printed_finite _ negative m e

/-! ### Texts -/

lemma printed_hex (n : Nat) : Printed (Hex.ofNat n) := by
  have hdigit : ∀ k : Fin 16, IsPrintableAscii (Hex.digit k.val) := by decide
  induction n using Hex.ofNat.induct with
  | case1 n h =>
    rw [Hex.ofNat, if_pos h]
    exact List.forall_mem_singleton.mpr (hdigit ⟨n, h⟩)
  | case2 n h ih =>
    rw [Hex.ofNat, if_neg h]
    exact ih.append (List.forall_mem_singleton.mpr (hdigit ⟨n % 16, Nat.mod_lt _ (by decide)⟩))

lemma printed_unitEscape (n : Nat) : Printed (unitEscape n) :=
  .cons (by decide) (.cons (by decide) (.append (printed_zeros _) (printed_hex n)))

lemma isPrintableAscii_of_shortEscape? {c e : Char} (h : shortEscape? c = some e) :
    IsPrintableAscii e := by
  obtain ⟨-, hmeant⟩ := lookup_of_shortEscape? h
  obtain ⟨before, after, hsplit, -⟩ := List.lookup_eq_some_iff.mp hmeant
  have hall : ∀ p ∈ letterEscapes, IsPrintableAscii p.1 := by decide
  exact hall (e, c) (by simp [hsplit])

lemma printed_escapeChar (c : Char) : Printed (escapeChar lineStyle c) := by
  unfold escapeChar
  split
  next e hshort =>
    exact .cons (by decide) (.cons (isPrintableAscii_of_shortEscape? hshort) printed_nil)
  next =>
    split
    next hkept =>
      obtain ⟨hlow, hhigh⟩ := Bool.and_eq_true_iff.mp hkept
      exact List.forall_mem_singleton.mpr ⟨of_decide_eq_true hlow, of_decide_eq_true hhigh⟩
    next => exact printed_flatMap printed_unitEscape _

lemma printed_escapeCode (n : Nat) : Printed (escapeCode lineStyle n) := by
  unfold escapeCode
  split
  · exact printed_escapeChar _
  · exact printed_unitEscape n

lemma printed_quote (cs : List Char) : Printed (quote lineStyle cs) :=
  .append (.cons (by decide) (printed_flatMap printed_escapeChar cs)) (by decide)

lemma printed_quoteCodes (codes : List Nat) : Printed (quoteCodes lineStyle codes) :=
  .append (.cons (by decide) (printed_flatMap printed_escapeCode codes)) (by decide)

/-! ### Values -/

mutual

/-- **A value on one line is printable ASCII.** -/
theorem printed_lineOf : ∀ v : Json, Printed (lineOf lineStyle v)
  | .null => by
    rw [lineOf]
    decide
  | .bool b => by
    rw [lineOf]
    cases b <;> decide
  | .int n => by
    rw [lineOf]
    exact printed_signedDecimal n
  | .float x => by
    rw [lineOf]
    exact printed_floatText x
  | .str s => by
    rw [lineOf]
    exact printed_quote s.toList
  | .garbled codes => by
    rw [lineOf]
    exact printed_quoteCodes codes
  | .arr items => by
    rw [lineOf]
    exact .append (.cons (by decide) (printed_lineOfItems items)) (by decide)
  | .obj members => by
    rw [lineOf]
    exact .append (.cons (by decide) (printed_lineOfMembers members)) (by decide)

theorem printed_lineOfItems : ∀ items : List Json, Printed (lineOfItems lineStyle items)
  | [] => printed_nil
  | [v] => by
    rw [lineOfItems]
    exact printed_lineOf v
  | v :: w :: rest => by
    rw [lineOfItems]
    · exact (printed_lineOf v).append
        (.cons (by decide) (.cons (by decide) (printed_lineOfItems (w :: rest))))
    · exact List.cons_ne_nil _ _

theorem printed_lineOfMembers :
    ∀ members : List (String × Json), Printed (lineOfMembers lineStyle members)
  | [] => printed_nil
  | [(k, v)] => by
    rw [lineOfMembers]
    exact (printed_quote k.toList).append (.cons (by decide) (.cons (by decide) (printed_lineOf v)))
  | (k, v) :: m :: rest => by
    rw [lineOfMembers]
    · exact ((printed_quote k.toList).append
        (.cons (by decide) (.cons (by decide) (printed_lineOf v)))).append
          (.cons (by decide) (.cons (by decide) (printed_lineOfMembers (m :: rest))))
    · exact List.cons_ne_nil _ _

end

lemma printed_line (v : Json) : Printed (line v).toList := by
  rw [line, String.toList_ofList]
  exact printed_lineOf v

end HoneypotAudit.Json
