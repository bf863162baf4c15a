import HoneypotAudit.Proofs.Abi.Declared
import HoneypotAudit.Proofs.Solidity.Evaluation

/-!
# What rendered arguments denote

A value of a type is rendered as an expression and statements.  Run in order, the statements
allocate and fill the arrays of new variables, and the expression then denotes the value
(`renders_render`).

A rendering step is described by what its statements do to any memory in which its variables are
new (`Yields`).  Steps compose, as each leaves the variables of the others alone: the items of an
array are rendered one after the other and still denote what they did when the array is filled.
-/

namespace HoneypotAudit.Solidity

open HoneypotAudit.Text HoneypotAudit.Abi HoneypotAudit.Abi.TypeText HoneypotAudit.Outcome

/-! ## Values -/

/-- A value is one of an array type, or of the type at its stem if there are no dimensions. -/
def IsValue (t : AbiType) : Shape → Value → Prop
  | [], v => IsScalar t v
  | none :: item, .tuple vs => ∀ v ∈ vs, IsValue t item v
  | some n :: item, .tuple vs => vs.length = n ∧ ∀ v ∈ vs, IsValue t item v
  | _ :: _, _ => False

/-- A value of an array type has items of the item type. -/
lemma IsValue.exists_items {t : AbiType} {d : Option Nat} {item : Shape} {v : Value}
    (h : IsValue t (d :: item) v) :
    ∃ vs, v = .tuple vs ∧ (∀ n, d = some n → vs.length = n) ∧ ∀ u ∈ vs, IsValue t item u := by
  cases v with
  | tuple vs =>
    cases d with
    | none => exact ⟨vs, rfl, by simp, h⟩
    | some n =>
      refine ⟨vs, rfl, fun m hm => ?_, h.2⟩
      cases hm
      exact h.1
  | _ => cases d <;> exact h.elim

/-! ## Expressions -/

section Expressions

variable {S : ScalarType} {mem : Memory} {item : Shape}

/-- An item as it stands first in an inline array. -/
def explicitText (S : ScalarType) (shape : Shape) (expr : List Char) : List Char :=
  if shape = [] ∧ S.spelling = scalarText S.type then S.spelling ++ '(' :: expr ++ [')'] else expr

/-- An expression denotes a value of a type in a memory, whatever follows it, also as the first item
of an inline array. -/
structure Denotes (S : ScalarType) (shape : Shape) (mem : Memory) (expr : List Char) (v : Value) :
    Prop where
  value : ∀ rest, Ends rest → evaluateFrom S mem shape false (expr ++ rest) = some (v, rest)
  explicit : ∀ rest, Ends rest →
    evaluateFrom S mem shape true (explicitText S shape expr ++ rest) = some (v, rest)
  noAllocation : NoAllocation S expr

lemma ends_cons {c : Char} (hc : c ∈ [')', ',', ']', ';']) (rest : List Char) :
    Ends (c :: rest) := by
  intro d hd
  obtain rfl : c = d := by simpa using hd
  exact hc

/-! ### Scalars -/

lemma evaluateScalar_conversion {v : Value} {lit : List Char} (h : LiteralFor S.type v lit)
    (explicit : Bool) (rest : List Char) :
    evaluateScalar S explicit (conversion S ++ (lit ++ ')' :: rest)) = some (v, rest) := by
  have hread := h.reads (')' :: rest) (ends_cons (by simp) rest)
  simp only [evaluateScalar, dropPrefix?_append, hread]

lemma scalarText_ne_addressPayable (t : AbiType) : scalarText t ≠ "address payable".toList := by
  intro h
  cases t <;> simp [scalarText, scalarName, sizeText] at h

lemma evaluateScalar_literal {v : Value} {lit : List Char} (h : LiteralFor S.type v lit)
    (hspelling : S.spelling = scalarText S.type) {rest : List Char} (hrest : Ends rest) :
    evaluateScalar S false (lit ++ rest) = some (v, rest) := by
  have hread := h.reads rest hrest
  have hconversion : conversion S = scalarText S.type ++ ['('] := by
    rw [conversion, hspelling, if_neg (scalarText_ne_addressPayable S.type)]
  -- a literal is no conversion, for it would begin with the name of its type
  have hnone : (lit ++ rest).dropPrefix? (conversion S) = none := by
    rw [Option.eq_none_iff_forall_ne_some]
    intro operand hoperand
    obtain ⟨word, hsplit, hword⟩ := List.dropPrefix?_eq_some_iff.mp hoperand
    obtain rfl : word = conversion S := by simpa using hword
    rw [hsplit, hconversion, List.append_assoc, readScalar_scalarText] at hread
    cases hread
  simp [evaluateScalar, hnone, hspelling, hread]

lemma head?_scalarName (t : AbiType) : (scalarName t).1.toList.head? ≠ some 'c' := by
  cases t <;> simp [scalarName]

/-- The name of a basic type begins differently from a variable. -/
lemma exists_head_scalarText {t : AbiType} {cs : List Char} {r : Value × List Char}
    (h : readScalar t cs = some r) : ∃ c rest, scalarText t = c :: rest ∧ c ≠ 'c' := by
  have hne : (scalarName t).1.toList ≠ [] := by
    intro hnil
    cases t with
    | array item => cases h
    | sized item n => cases h
    | tuple items => cases h
    | _ => simp [scalarName] at hnil
  obtain ⟨c, rest, hname⟩ := List.exists_cons_of_ne_nil hne
  refine ⟨c, rest ++ sizeText (scalarName t).2, by rw [scalarText, hname, List.cons_append], ?_⟩
  rintro rfl
  exact head?_scalarName t (by rw [hname, List.head?_cons])

lemma explicitText_of_ne (shape : Shape) (h : S.spelling ≠ scalarText S.type) (expr : List Char) :
    explicitText S shape expr = expr :=
  if_neg fun hboth => h hboth.2

/-- A conversion that is written out denotes what it converts. -/
lemma denotes_conversion {v : Value} {lit : List Char} (h : LiteralFor S.type v lit)
    (hne : S.spelling ≠ scalarText S.type)
    (hnone : NoAllocation S (conversion S ++ (lit ++ [')']))) :
    Denotes S [] mem (conversion S ++ (lit ++ [')'])) v := by
  have hvalue : ∀ explicit rest, evaluateFrom S mem [] explicit
      (conversion S ++ (lit ++ [')']) ++ rest) = some (v, rest) := by
    intro explicit rest
    rw [List.append_assoc, List.append_assoc, List.singleton_append]
    exact evaluateScalar_conversion h explicit rest
  refine ⟨fun rest _ => hvalue false rest, fun rest _ => ?_, hnone⟩
  rw [explicitText_of_ne [] hne]
  exact hvalue true rest

/-- **A literal in the conversion that its type asks for denotes its value.** -/
lemma denotes_convert {v : Value} {lit : List Char} (h : LiteralFor S.type v lit) :
    Denotes S [] mem (convert lit (scalarText S.type) S.spelling) v := by
  by_cases hspelling : S.spelling = scalarText S.type
  · have hconversion : conversion S = S.spelling ++ ['('] := by
      rw [conversion, hspelling, if_neg (scalarText_ne_addressPayable S.type)]
    have hexplicit : ∀ rest,
        explicitText S [] lit ++ rest = conversion S ++ (lit ++ ')' :: rest) := by
      intro rest
      rw [explicitText, if_pos ⟨rfl, hspelling⟩, hconversion]
      simp
    rw [convert, if_pos hspelling]
    refine ⟨fun rest hrest => evaluateScalar_literal h hspelling hrest, fun rest _ => ?_, ?_⟩
    · rw [hexplicit]
      exact evaluateScalar_conversion h true rest
    · rw [NoAllocation, hspelling]
      exact .inl (exists_head_scalarText (h.reads [] (by simp [Ends])))
  · by_cases hpayable : S.spelling = "address payable".toList
    · have hconversion : conversion S = "payable(".toList := if_pos hpayable
      rw [convert, if_neg hspelling, if_pos hpayable, List.append_assoc, ← hconversion]
      refine denotes_conversion h hspelling (.inl ?_)
      rw [hpayable]
      exact ⟨_, _, rfl, by decide⟩
    · have hconversion : conversion S = S.spelling ++ ['('] := if_neg hpayable
      have htext : S.spelling ++ '(' :: lit ++ [')'] = conversion S ++ (lit ++ [')']) := by
        simp [hconversion]
      rw [convert, if_neg hspelling, if_neg hpayable, htext]
      refine denotes_conversion h hspelling (.inr (.inr ⟨[], lit ++ [')'], ?_, ?_⟩))
      · simp [hconversion]
      · simp [IsPlainText]

/-! ### Variables and inline arrays -/

/-- **A variable that holds values denotes them.** -/
lemma denotes_arrayName {i : Nat} {vs : List Value}
    (h : mem (arrayName i) = some (.ofItems item vs)) :
    Denotes S (none :: item) mem (arrayName i) (.tuple vs) := by
  refine ⟨fun rest hrest => evaluateVariable_arrayName h hrest, fun rest hrest => ?_, ?_⟩
  · rw [explicitText, if_neg (by simp)]
    exact evaluateVariable_arrayName h hrest
  · exact .inr (.inl (isPlainText_arrayName i))

lemma joinWith_cons (sep e : List Char) (es : List (List Char)) :
    joinWith sep (e :: es) = e ++ es.flatMap (sep ++ ·) := by
  induction es generalizing e with
  | nil => simp [joinWith]
  | cons f es ih =>
    rw [joinWith, ih, List.flatMap_cons, List.append_assoc, List.append_assoc]
    simp

lemma endsWith_scalarText (t : AbiType) : endsWith [']'] (scalarText t) = false := by
  rw [endsWith, ← Bool.not_eq_true, List.isSuffixOf_iff_suffix]
  rintro ⟨front, hfront⟩
  have hmem : ']' ∈ scalarText t := by
    rw [← hfront]
    simp
  have hdigits : ∀ n, ']' ∉ decimal n := fun n => not_mem_decimal (by decide)
  cases t <;> simp [scalarText, scalarName, sizeText, hdigits] at hmem

/-- An inline array converts its first item if that is a bare literal. -/
lemma inlineArray_cons (e : List Char) (es : List (List Char)) :
    inlineArray (e :: es) (scalarText S.type ++ brackets item) (S.spelling ++ brackets item)
      = ['['] ++ (explicitText S item e ++ (es.flatMap ([',', ' '] ++ ·) ++ [']'])) := by
  have hbare : (!endsWith [']'] (scalarText S.type ++ brackets item)
      && S.spelling ++ brackets item == scalarText S.type ++ brackets item)
        = decide (item = [] ∧ S.spelling = scalarText S.type) := by
    cases item with
    | nil => simp [endsWith_scalarText, beq_eq_decide]
    | cons d item => simp [← List.append_assoc, endsWith_append_dim]
  simp only [inlineArray, hbare, decide_eq_true_eq]
  by_cases h : item = [] ∧ S.spelling = scalarText S.type
  · rw [if_pos h, explicitText, if_pos h, joinWith_cons, h.1]
    simp
  · rw [if_neg h, explicitText, if_neg h, joinWith_cons]
    simp

/-- What follows an item of an inline array ends the expression of the item. -/
lemma ends_flatMap (es : List (List Char)) (rest : List Char) :
    Ends (es.flatMap ([',', ' '] ++ ·) ++ ([']'] ++ rest)) := by
  cases es with
  | nil => exact ends_cons (by simp) _
  | cons f es => exact ends_cons (by simp) _

lemma evaluateRest_flatMap {es : List (List Char)} {vs : List Value}
    (h : List.Forall₂ (Denotes S item mem) es vs) (rest : List Char) :
    evaluateRest (evaluateFrom S mem item false) vs.length
      (es.flatMap ([',', ' '] ++ ·) ++ ([']'] ++ rest)) = some (vs, rest) := by
  induction h with
  | nil =>
    rw [List.flatMap_nil, List.nil_append, List.length_nil, evaluateRest, dropPrefix?_append]
    rfl
  | @cons e v es vs he hes ih =>
    have hends := ends_flatMap es rest
    rw [List.flatMap_cons, List.append_assoc, List.append_assoc, List.length_cons, evaluateRest,
      dropPrefix?_append, Option.bind_some, he.value _ hends]
    simp only [Option.bind_some, ih, Option.map_some]

lemma noAllocation_flatMap {es : List (List Char)} {vs : List Value}
    (h : List.Forall₂ (Denotes S item mem) es vs) :
    NoAllocation S (es.flatMap ([',', ' '] ++ ·)) := by
  induction h with
  | nil => exact .inr (.inl (by simp [IsPlainText]))
  | @cons e v es vs he hes ih =>
    have hseparator : NoAllocation S [',', ' '] := .inr (.inl (by simp [IsPlainText]))
    rw [List.flatMap_cons]
    exact (hseparator.append he.noAllocation).append ih

lemma noAllocation_explicitText {e : List Char} (h : NoAllocation S e) :
    NoAllocation S (explicitText S item e) := by
  by_cases hbare : item = [] ∧ S.spelling = scalarText S.type
  · rw [explicitText, if_pos hbare]
    exact .inr (.inr ⟨[], e ++ [')'], by simp, by simp [IsPlainText]⟩)
  · rw [explicitText, if_neg hbare]
    exact h

/-- What stands behind the opening bracket of an inline array are its items. -/
lemma exists_body_inlineArray {es : List (List Char)} {vs : List Value}
    (h : List.Forall₂ (Denotes S item mem) es vs) :
    ∃ body, inlineArray es (scalarText S.type ++ brackets item) (S.spelling ++ brackets item)
        = ['['] ++ body ∧ NoAllocation S body ∧ ∀ rest,
      evaluateItems (evaluateFrom S mem item) vs.length (body ++ rest) = some (vs, rest) := by
  have hclose : NoAllocation S [']'] := .inr (.inl (by simp [IsPlainText]))
  cases h with
  | nil =>
    refine ⟨[']'], rfl, hclose, fun rest => ?_⟩
    rw [List.length_nil, evaluateItems, dropPrefix?_append]
    rfl
  | @cons e v es vs he hes =>
    refine ⟨_, inlineArray_cons e es, ?_, fun rest => ?_⟩
    · have hfirst : NoAllocation S (explicitText S item e) :=
        noAllocation_explicitText he.noAllocation
      exact hfirst.append ((noAllocation_flatMap hes).append hclose)
    · have hends := ends_flatMap es rest
      rw [List.append_assoc, List.append_assoc, List.length_cons, evaluateItems,
        he.explicit _ hends]
      simp only [Option.bind_some, evaluateRest_flatMap hes, Option.map_some]

/-- **An inline array denotes its items.** -/
lemma denotes_inlineArray {es : List (List Char)} {vs : List Value}
    (h : List.Forall₂ (Denotes S item mem) es vs) :
    Denotes S (some vs.length :: item) mem
      (inlineArray es (scalarText S.type ++ brackets item) (S.spelling ++ brackets item))
      (.tuple vs) := by
  obtain ⟨body, htext, hnone, hitems⟩ := exists_body_inlineArray h
  have hvalue : ∀ explicit rest, evaluateFrom S mem (some vs.length :: item) explicit
      (['['] ++ body ++ rest) = some (.tuple vs, rest) := by
    intro explicit rest
    rw [List.append_assoc, evaluateFrom, dropPrefix?_append, Option.bind_some, hitems]
    rfl
  have hopen : NoAllocation S ['['] := .inr (.inl (by simp [IsPlainText]))
  rw [htext]
  refine ⟨fun rest _ => hvalue false rest, fun rest _ => ?_, hopen.append hnone⟩
  rw [explicitText, if_neg (by simp)]
  exact hvalue true rest

end Expressions

/-! ## Memory

Variables are numbered.  What a rendering step adds concerns the variables from one number up to
another. -/

section Memory

variable {first last : Nat} {mem mem' mem'' : Memory}

/-- No variable from a number on is declared. -/
def IsFresh (first : Nat) (mem : Memory) : Prop :=
  ∀ i, first ≤ i → mem (arrayName i) = none

/-- New variables hold arrays all of whose slots are filled, and all else is as before. -/
structure Extends (first last : Nat) (mem mem' : Memory) : Prop where
  kept : ∀ x, (∀ i, first ≤ i → i < last → x ≠ arrayName i) → mem' x = mem x
  filled : ∀ i, first ≤ i → i < last → ∃ a, mem' (arrayName i) = some a ∧ a.isFilled = true

/-- Two memories have the same arrays in some variables. -/
def Agree (first last : Nat) (mem mem' : Memory) : Prop :=
  ∀ i, first ≤ i → i < last → mem' (arrayName i) = mem (arrayName i)

lemma Extends.kept_arrayName (h : Extends first last mem mem') {i : Nat}
    (hi : i < first ∨ last ≤ i) :
    mem' (arrayName i) = mem (arrayName i) := by
  refine h.kept _ fun j hfirst hlast heq => ?_
  have hij := arrayName_injective heq
  omega

lemma Extends.isFresh (h : Extends first last mem mem') (hfresh : IsFresh first mem)
    (hle : first ≤ last) : IsFresh last mem' := by
  intro i hi
  rw [h.kept_arrayName (.inr hi)]
  exact hfresh i (by omega)

lemma Extends.trans {middle : Nat} (h : Extends first middle mem mem')
    (h' : Extends middle last mem' mem'') (hle : first ≤ middle) (hle' : middle ≤ last) :
    Extends first last mem mem'' where
  kept x hx := by
    rw [h'.kept x fun i hfirst hlast => hx i (by omega) hlast,
      h.kept x fun i hfirst hlast => hx i hfirst (by omega)]
  filled i hfirst hlast := by
    by_cases hi : i < middle
    · rw [h'.kept_arrayName (.inl hi)]
      exact h.filled i hfirst hi
    · exact h'.filled i (by omega) hlast

/-- An array in a variable of its own, beside what is new already. -/
lemma Extends.update (h : Extends (first + 1) last mem mem') (hle : first + 1 ≤ last)
    {a : MemoryArray} (ha : a.isFilled = true) :
    Extends first last mem (Function.update mem' (arrayName first) (some a)) where
  kept x hx := by
    rw [Function.update_of_ne (hx first le_rfl hle)]
    exact h.kept x fun i hfirst hlast => hx i (by omega) hlast
  filled i hfirst hlast := by
    by_cases hi : i = first
    · rw [hi, Function.update_self]
      exact ⟨a, rfl, ha⟩
    · have hne : arrayName i ≠ arrayName first := arrayName_injective.ne hi
      rw [Function.update_of_ne hne]
      exact h.filled i (by omega) hlast

end Memory

/-! ## Rendering steps -/

section Yields

variable {S : ScalarType} {first middle last : Nat} {added added' : List String}
  {P Q : Memory → Prop}

/-- Statements run in any memory in which the variables from a number on are new, and fill those up
to another number.  What they promise of memory then holds as long as nothing touches these
variables. -/
structure Yields (S : ScalarType) (first last : Nat) (added : List String) (P : Memory → Prop) :
    Prop where
  le : first ≤ last
  runs : ∀ mem, IsFresh first mem → ∃ mem', execute S mem added = some mem' ∧
    Extends first last mem mem' ∧ ∀ mem'', Agree first last mem' mem'' → P mem''

lemma yields_nil (h : ∀ mem, P mem) : Yields S first first [] P where
  le := le_rfl
  runs := by
    intro mem _
    refine ⟨mem, rfl, ⟨fun x _ => rfl, fun i hfirst hlast => ?_⟩, fun mem' _ => h mem'⟩
    omega

lemma Yields.mono (h : Yields S first last added P) (himp : ∀ mem, P mem → Q mem) :
    Yields S first last added Q where
  le := h.le
  runs := by
    intro mem hmem
    obtain ⟨mem', hexecute, hextends, hP⟩ := h.runs mem hmem
    exact ⟨mem', hexecute, hextends, fun mem'' hagree => himp mem'' (hP mem'' hagree)⟩

/-- **Steps compose**: each leaves the variables of the other alone. -/
lemma Yields.trans (h : Yields S first middle added P) (h' : Yields S middle last added' Q) :
    Yields S first last (added ++ added') fun mem => P mem ∧ Q mem where
  le := h.le.trans h'.le
  runs := by
    intro mem hmem
    have hle := h.le
    have hle' := h'.le
    obtain ⟨mem₁, hexecute, hextends, hP⟩ := h.runs mem hmem
    obtain ⟨mem₂, hexecute', hextends', hQ⟩ := h'.runs mem₁ (hextends.isFresh hmem hle)
    refine ⟨mem₂, ?_, hextends.trans hextends' hle hle', fun mem₃ hagree => ⟨?_, ?_⟩⟩
    · rw [execute_append, hexecute, Option.bind_some, hexecute']
    · refine hP mem₃ fun i hfirst hlast => ?_
      rw [hagree i hfirst (by omega), hextends'.kept_arrayName (.inl hlast)]
    · exact hQ mem₃ fun i hfirst hlast => hagree i (by omega) hlast

/-- What holds of two lists in every memory of a kind holds item by item. -/
lemma forall₂_forall {R : Memory → List Char → Value → Prop} {K : Memory → Prop}
    {es : List (List Char)} {vs : List Value} {mem : Memory} (hmem : K mem)
    (h : ∀ mem, K mem → List.Forall₂ (R mem) es vs) :
    List.Forall₂ (fun e v => ∀ mem, K mem → R mem e v) es vs := by
  rw [List.forall₂_iff_get]
  refine ⟨(h mem hmem).length_eq, fun i hes hvs mem' hmem' => ?_⟩
  exact (List.forall₂_iff_get.mp (h mem' hmem')).2 i hes hvs

/-- **The statements of an array fill its variable** once those of its items have run. -/
lemma yields_array {item : Shape} {es : List (List Char)} {vs : List Value} {name : String}
    (hname : name.toList = arrayName first)
    (h : Yields S (first + 1) last added fun mem => List.Forall₂ (Denotes S item mem) es vs) :
    Yields S first last
      (added ++ allocation name (S.spelling ++ brackets item) es.length :: assignments name 0 es)
      fun mem => Denotes S (none :: item) mem (arrayName first) (.tuple vs) where
  le := (Nat.le_succ first).trans h.le
  runs := by
    intro mem hmem
    obtain ⟨mem₁, hexecute, hextends, hitems⟩ := h.runs mem fun i hi => hmem i (by omega)
    -- the variable of the array is none of those that the items take
    have hnew : mem₁ (arrayName first) = none := by
      rw [hextends.kept_arrayName (.inl (Nat.lt_succ_self first))]
      exact hmem first le_rfl
    have hother : ∀ i, first + 1 ≤ i → arrayName i ≠ arrayName first :=
      fun i hi => arrayName_injective.ne (by omega)
    have hlength : es.length = vs.length := (hitems mem₁ fun i _ _ => rfl).length_eq
    have hexprs : List.Forall₂ (fun e v => ∀ mem : Memory,
        (∀ x, x ≠ arrayName first → mem x = mem₁ x) → Denotes S item mem e v) es vs :=
      forall₂_forall (fun x _ => rfl) fun mem hmem =>
        hitems mem fun i hfirst _ => hmem _ (hother i hfirst)
    obtain ⟨mem₂, hmem₂⟩ : ∃ mem₂, mem₂ = Function.update mem₁ (arrayName first)
        (some ⟨item, List.replicate es.length none⟩) := ⟨_, rfl⟩
    have hassign : execute S mem₂ (assignments name 0 es)
        = some (Function.update mem₂ (arrayName first) (some (.ofItems item vs))) := by
      refine execute_assignments mem₁ hname [] ?_ ?_ ?_
      · refine hexprs.imp fun e v he => ⟨(he mem₁ fun x _ => rfl).noAllocation, fun mem hmem => ?_⟩
        exact (he mem hmem).value [';'] (ends_cons (by simp) [])
      · intro x hx
        rw [hmem₂, Function.update_of_ne hx]
      · rw [hmem₂, Function.update_self, hlength]
        rfl
    rw [hmem₂, Function.update_idem] at hassign
    have hfilled := MemoryArray.isFilled_ofItems item vs
    refine ⟨_, ?_, hextends.update h.le hfilled, fun mem₃ hagree => ?_⟩
    · rw [execute_append, hexecute, Option.bind_some, execute, step_allocation hname hnew,
        Option.bind_some, hassign]
    · refine denotes_arrayName ?_
      rw [hagree first le_rfl h.le, Function.update_self]

end Yields

/-! ## Rendering -/

section Rendering

variable {S : ScalarType}

/-- A rendering step succeeds from every renderer, and its statements yield what it gives. -/
def Renders {α : Type} (S : ScalarType) (step : Rendering α) (P : α → Memory → Prop) : Prop :=
  ∀ r, ∃ a last added, step.run.run r = (.ok a, ⟨r.statements ++ added, last⟩) ∧
    Yields S r.next last added (P a)

section Steps

variable {α β : Type} {P : α → Memory → Prop}

lemma renders_pure {a : α} (h : ∀ mem, P a mem) : Renders S (pure a) P := by
  intro r
  exact ⟨a, r.next, [], by rw [List.append_nil]; rfl, yields_nil h⟩

lemma Renders.bind {Q : α → β → Memory → Prop} {step : Rendering α} {next : α → Rendering β}
    (h : Renders S step P) (h' : ∀ a, Renders S (next a) (Q a)) :
    Renders S (step >>= next) fun b mem => ∃ a, P a mem ∧ Q a b mem := by
  intro r
  obtain ⟨a, middle, added, hrun, hyields⟩ := h r
  obtain ⟨b, last, added', hrun', hyields'⟩ := h' a ⟨r.statements ++ added, middle⟩
  refine ⟨b, last, added ++ added', ?_, ?_⟩
  · rw [run_bind_of_ok hrun, hrun', List.append_assoc]
  · exact (hyields.trans hyields').mono fun mem hmem => ⟨a, hmem⟩

lemma Renders.mono {Q : α → Memory → Prop} {step : Rendering α} (h : Renders S step P)
    (himp : ∀ a mem, P a mem → Q a mem) : Renders S step Q := by
  intro r
  obtain ⟨a, last, added, hrun, hyields⟩ := h r
  exact ⟨a, last, added, hrun, hyields.mono (himp a)⟩

end Steps

/-- **Items denote their values together** if each does by itself. -/
lemma renders_renderAll {item : Shape} {render : Value → Rendering (List Char)} {vs : List Value}
    (h : ∀ v ∈ vs, Renders S (render v) fun e mem => Denotes S item mem e v) :
    Renders S (renderAll render vs) fun es mem => List.Forall₂ (Denotes S item mem) es vs := by
  induction vs with
  | nil => exact renders_pure fun mem => .nil
  | cons v vs ih =>
    have hrest := ih fun u hu => h u (by simp [hu])
    have hcons := (h v (by simp)).bind fun e => hrest.bind fun es =>
      renders_pure (S := S) (a := e :: es) (P := fun b _ => b = e :: es) fun _ => rfl
    refine hcons.mono ?_
    rintro _ mem ⟨e, he, es, hes, rfl⟩
    exact .cons he hes

lemma exists_fresh (r : Renderer) : ∃ name : String,
    Rendering.fresh.run.run r = (.ok name, ⟨r.statements, r.next + 1⟩) ∧
      name.toList = arrayName r.next :=
  ⟨_, rfl, toList_variable r.next⟩

/-- An array without a length is rendered as a new variable. -/
lemma renders_array {item : Shape} {vs : List Value} {items : Rendering (List (List Char))}
    (h : Renders S items fun es mem => List.Forall₂ (Denotes S item mem) es vs) :
    Renders S (do
        let name ← Rendering.fresh
        let es ← items
        Rendering.emit
          (allocation name (S.spelling ++ brackets item) es.length :: assignments name 0 es)
        pure name.toList)
      fun e mem => Denotes S (none :: item) mem e (.tuple vs) := by
  intro r
  obtain ⟨es, last, added, hrun, hyields⟩ := h ⟨r.statements, r.next + 1⟩
  obtain ⟨name, hfresh, hname⟩ := exists_fresh r
  refine ⟨arrayName r.next, last, _, ?_, yields_array hname hyields⟩
  rw [run_bind_of_ok hfresh, run_bind_of_ok hrun, ← hname, ← List.append_assoc]
  rfl

lemma endsWith_open (cs : List Char) : endsWith ['[', ']'] (cs ++ dimText none) = true := by
  rw [endsWith, List.isSuffixOf_iff_suffix]
  exact List.suffix_append cs _

lemma endsWith_sized (cs : List Char) (n : Nat) :
    endsWith ['[', ']'] (cs ++ dimText (some n)) = false := by
  rw [endsWith, ← Bool.not_eq_true, List.isSuffixOf_iff_suffix]
  rintro ⟨front, hfront⟩
  obtain ⟨ds, d, hds⟩ : ∃ ds d, decimal n = ds ++ [d] :=
    ⟨_, _, (List.dropLast_append_getLast (decimal_ne_nil n)).symm⟩
  have hdigit : isAsciiDigit d = true := isAsciiDigit_of_mem_decimal (n := n) (by simp [hds])
  have hsplit : front ++ ['['] ++ [']'] = cs ++ '[' :: ds ++ [d] ++ [']'] := by
    simpa [dimText, hds] using hfront
  have hlast : some '[' = some d := by
    have h := congrArg List.getLast? (List.append_cancel_right hsplit)
    rwa [List.getLast?_concat, List.getLast?_concat] at h
  rw [← Option.some.inj hlast] at hdigit
  cases hdigit

/-- **A value is rendered as what denotes it**, if there is room for its levels. -/
theorem renders_render {shape : Shape} {room : Nat} {v : Value}
    (hv : IsValue S.type shape v) (hroom : levels shape.length v ≤ room) :
    Renders S
      (render room (scalarText S.type ++ brackets shape) (S.spelling ++ brackets shape) v)
      fun e mem => Denotes S shape mem e v := by
  induction shape generalizing room v with
  | nil =>
    obtain ⟨lit, hlit⟩ := exists_literalFor hv
    obtain ⟨room, rfl⟩ := Nat.exists_eq_add_one.mpr ((levels_pos _ _).trans_le hroom)
    simp only [render, brackets_nil, List.append_nil, endsWith_scalarText, hlit.written]
    exact renders_pure fun mem => denotes_convert hlit
  | cons d item ih =>
    obtain ⟨vs, rfl, hlength, hvs⟩ := hv.exists_items
    obtain ⟨room, rfl⟩ := Nat.exists_eq_add_one.mpr ((levels_pos _ _).trans_le hroom)
    have hlevels := levels_succ_le_iff.mp hroom
    have hitems : Renders S (renderAll (render room (scalarText S.type ++ brackets item)
        (S.spelling ++ brackets item)) vs)
        fun es mem => List.Forall₂ (Denotes S item mem) es vs :=
      renders_renderAll fun u hu => ih (hvs u hu) (hlevels u hu)
    have hof : itemsOf (.tuple vs) = pure vs := rfl
    simp only [render, brackets_cons, ← List.append_assoc, endsWith_append_dim, if_true,
      elementText?_append_dim, hof, pure_bind]
    cases d with
    | none =>
      rw [endsWith_open, if_pos rfl]
      exact renders_array hitems
    | some n =>
      rw [endsWith_sized, if_neg (by simp)]
      refine (hitems.bind fun es => renders_pure (P := fun b _ => b = _) fun _ => rfl).mono ?_
      rintro _ mem ⟨es, hes, rfl⟩
      rw [← hlength n rfl]
      exact denotes_inlineArray hes

end Rendering

end HoneypotAudit.Solidity
