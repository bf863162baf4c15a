import HoneypotAudit.Proofs.Solidity.Literals
import Mathlib.Data.Fintype.Basic
import Mathlib.Logic.Function.Basic

/-!
# Memory arrays

The part of the language that arguments are written in, with its meaning.

* `evaluate` reads an expression as a value of a type: a variable as the items of its array, an
  inline array as the items between its brackets, a conversion as what it converts.  Where the type
  is spelled differently from its ABI type, a literal has to be converted; so has the first item of
  an inline array, which gives the whole its type.
* `execute` runs statements in order.  A statement allocates an array in a new variable or assigns
  an item of one.

A slot is assigned once: it has to be in the array and still empty.  A variable is read only when
all slots of its array are filled.
-/

namespace HoneypotAudit.Solidity

open HoneypotAudit.Text HoneypotAudit.Abi HoneypotAudit.Abi.TypeText

/-! ## Types and memory -/

/-- A type that is no array: how declarations spell it, and its ABI type. -/
structure ScalarType where
  spelling : List Char
  type : AbiType

/-- The dimensions of an array type, the outermost first.  A type that is no array has none. -/
abbrev Shape := List (Option Nat)

/-- The brackets of dimensions; the outermost stand last. -/
def brackets (shape : Shape) : List Char :=
  shape.reverse.flatMap dimText

@[simp] lemma brackets_nil : brackets [] = [] :=
  rfl

@[simp] lemma brackets_cons (d : Option Nat) (shape : Shape) :
    brackets (d :: shape) = brackets shape ++ dimText d := by
  simp [brackets]

/-- An array in memory: the shape of its items, and its slots. -/
structure MemoryArray where
  item : Shape
  slots : List (Option Value)

namespace MemoryArray

/-- All slots are filled. -/
def isFilled (a : MemoryArray) : Bool :=
  a.slots.all Option.isSome

/-- The items of an array, if all slots are filled. -/
def items? (a : MemoryArray) : Option (List Value) :=
  if a.isFilled then some (a.slots.filterMap id) else none

/-- An array that holds values. -/
def ofItems (item : Shape) (vs : List Value) : MemoryArray :=
  ⟨item, vs.map some⟩

lemma isFilled_ofItems (item : Shape) (vs : List Value) : (ofItems item vs).isFilled = true := by
  simp [isFilled, ofItems]

lemma items?_ofItems (item : Shape) (vs : List Value) : (ofItems item vs).items? = some vs := by
  have hitems : (vs.map some).filterMap id = vs := by
    rw [List.filterMap_map]
    exact List.filterMap_some
  rw [items?, if_pos (isFilled_ofItems item vs), ofItems, hitems]

end MemoryArray

/-- The arrays of the variables that are declared. -/
abbrev Memory := List Char → Option MemoryArray

/-! ## Expressions -/

/-- The characters of names. -/
def isNameChar (c : Char) : Bool :=
  isAsciiLetter c || isAsciiDigit c || c == '_' || c == '$'

/-- What stands in front of the operand of a conversion. -/
def conversion (S : ScalarType) : List Char :=
  if S.spelling = "address payable".toList then "payable(".toList else S.spelling ++ ['(']

/-- An expression of a type that is no array: a conversion, or a literal if nothing asks for a
conversion. -/
def evaluateScalar (S : ScalarType) (explicit : Bool) : Scan Value := fun cs =>
  match cs.dropPrefix? (conversion S) with
  | some operand =>
    match readScalar S.type operand with
    | some (v, ')' :: rest) => some (v, rest)
    | _ => none
  | none => if explicit || S.spelling ≠ scalarText S.type then none else readScalar S.type cs

/-- A variable whose array has items of a shape. -/
def evaluateVariable (mem : Memory) (item : Shape) : Scan Value := fun cs =>
  (mem (cs.takeWhile isNameChar)).bind fun a =>
    if a.item = item then
      a.items?.map fun vs => (.tuple vs, cs.dropWhile isNameChar)
    else none

/-- So many further items of an inline array, and its closing bracket. -/
def evaluateRest (item : Scan Value) : Nat → Scan (List Value)
  | 0, cs => (cs.dropPrefix? [']']).map fun rest => ([], rest)
  | n + 1, cs =>
    (cs.dropPrefix? [',', ' ']).bind fun cs =>
      (item cs).bind fun (v, cs) =>
        (evaluateRest item n cs).map fun (vs, rest) => (v :: vs, rest)

/-- So many items of an inline array, the first of an explicit type, and the closing bracket. -/
def evaluateItems (item : Bool → Scan Value) : Nat → Scan (List Value)
  | 0, cs => (cs.dropPrefix? [']']).map fun rest => ([], rest)
  | n + 1, cs =>
    (item true cs).bind fun (v, cs) =>
      (evaluateRest (item false) n cs).map fun (vs, rest) => (v :: vs, rest)

/-- An expression of a type in front of a text; the flag asks for one whose type is explicit. -/
def evaluateFrom (S : ScalarType) (mem : Memory) : Shape → Bool → Scan Value
  | [], explicit, cs => evaluateScalar S explicit cs
  | none :: item, _, cs => evaluateVariable mem item cs
  | some n :: item, _, cs =>
    (cs.dropPrefix? ['[']).bind fun cs =>
      (evaluateItems (evaluateFrom S mem item) n cs).map fun (vs, rest) => (.tuple vs, rest)

/-- The value of an expression of a type. -/
def evaluate (S : ScalarType) (mem : Memory) (shape : Shape) (expr : List Char) : Option Value :=
  match evaluateFrom S mem shape false expr with
  | some (v, []) => some v
  | _ => none

/-! ## Statements -/

/-- The shape that brackets stand for, in front of those that were read; there may be digits of a
length that is being read. -/
def readBrackets : Shape → Option (List Char) → List Char → Option Shape
  | shape, none, [] => some shape
  | shape, none, c :: cs => if c = '[' then readBrackets shape (some []) cs else none
  | _, some _, [] => none
  | shape, some ds, c :: cs =>
    if c = ']' then readBrackets ((if ds = [] then none else some (spelled ds)) :: shape) none cs
    else if isAsciiDigit c then readBrackets shape (some (ds ++ [c])) cs
    else none

/-- An allocation: the shape of the items, the variable, and the number of slots. -/
structure Allocation where
  item : Shape
  name : List Char
  count : Nat

/-- A statement that allocates an array: `T[] memory x = new T[](n);`. -/
def readAllocation (S : ScalarType) (cs : List Char) : Option Allocation :=
  (cs.dropPrefix? S.spelling).bind fun cs =>
    let typed := cs.takeWhile (· ≠ ' ')
    match readBrackets [] none typed with
    | some (none :: item) =>
      ((cs.dropWhile (· ≠ ' ')).dropPrefix? " memory ".toList).bind fun cs =>
        let name := cs.takeWhile isNameChar
        ((cs.dropWhile isNameChar).dropPrefix?
            (" = new ".toList ++ S.spelling ++ typed ++ ['('])).bind fun cs =>
          match scanNumber cs with
          | some (count, [')', ';']) => some ⟨item, name, count⟩
          | _ => none
    | _ => none

/-- Allocates an array of empty slots in a variable that is not declared yet. -/
def allocate (mem : Memory) (a : Allocation) : Option Memory :=
  if (mem a.name).isSome then none
  else some (Function.update mem a.name (some ⟨a.item, List.replicate a.count none⟩))

/-- A statement that assigns an item: `x[i] = e;`. -/
def assign (S : ScalarType) (mem : Memory) (cs : List Char) : Option Memory :=
  let name := cs.takeWhile isNameChar
  ((cs.dropWhile isNameChar).dropPrefix? ['[']).bind fun cs =>
    (scanNumber cs).bind fun (i, cs) =>
      (cs.dropPrefix? "] = ".toList).bind fun cs =>
        (mem name).bind fun a =>
          match evaluateFrom S mem a.item false cs, a.slots[i]? with
          | some (v, [';']), some none =>
            some (Function.update mem name (some { a with slots := a.slots.set i (some v) }))
          | _, _ => none

/-- Runs a statement. -/
def step (S : ScalarType) (mem : Memory) (cs : List Char) : Option Memory :=
  match readAllocation S cs with
  | some a => allocate mem a
  | none => assign S mem cs

/-- Runs statements in order. -/
def execute (S : ScalarType) : Memory → List String → Option Memory
  | mem, [] => some mem
  | mem, s :: ss => (step S mem s.toList).bind fun mem => execute S mem ss

variable {S : ScalarType}

lemma execute_append (mem : Memory) (ss ss' : List String) :
    execute S mem (ss ++ ss') = (execute S mem ss).bind fun mem => execute S mem ss' := by
  induction ss generalizing mem with
  | nil => rfl
  | cons s ss ih =>
    rw [List.cons_append, execute, execute, Option.bind_assoc]
    congr 1
    funext mem
    exact ih mem

/-! ## Names -/

/-- The variable of a number. -/
def arrayName (i : Nat) : List Char :=
  "ctorArg".toList ++ decimal i

lemma toDigits_eq (n : Nat) : Nat.toDigits 10 n = decimal n := by
  have hdigit : ∀ k : Fin 10, Nat.digitChar k = digitChar k := by
    intro k
    fin_cases k <;> rfl
  induction n using decimal.induct with
  | case1 n h =>
    rw [Nat.toDigits_of_lt_base h, decimal, if_pos h]
    exact congrArg (fun c => [c]) (hdigit ⟨n, h⟩)
  | case2 n h ih =>
    have hlast : Nat.digitChar (n % 10) = digitChar n := by
      have hmod := hdigit ⟨n % 10, Nat.mod_lt n (by decide)⟩
      rw [hmod, digitChar, digitChar, Nat.mod_mod]
    rw [Nat.toDigits_of_base_le (by decide) (by omega), ih, hlast]
    conv_rhs => rw [decimal, if_neg h]

lemma toList_variable (i : Nat) : ("ctorArg" ++ toString i).toList = arrayName i := by
  rw [String.toList_append, Nat.toString_eq_repr, Nat.toList_repr, toDigits_eq]
  rfl

lemma arrayName_injective : Function.Injective arrayName := by
  intro i j h
  have hdecimal := List.append_cancel_left h
  rw [← spelled_decimal i, hdecimal, spelled_decimal]

lemma isNameChar_of_mem_arrayName {i : Nat} {c : Char} (h : c ∈ arrayName i) :
    isNameChar c = true := by
  rcases List.mem_append.mp h with h | h
  · have hall : "ctorArg".toList.all isNameChar = true := rfl
    exact List.all_eq_true.mp hall c h
  · simp [isNameChar, isAsciiDigit_of_mem_decimal h]

/-- A variable that holds values denotes them. -/
lemma evaluateVariable_arrayName {mem : Memory} {i : Nat} {item : Shape} {vs : List Value}
    (h : mem (arrayName i) = some (.ofItems item vs)) {rest : List Char} (hrest : Ends rest) :
    evaluateVariable mem item (arrayName i ++ rest) = some (.tuple vs, rest) := by
  have hname : ∀ c ∈ arrayName i, isNameChar c = true := fun c => isNameChar_of_mem_arrayName
  have hstop : ∀ c ∈ rest.head?, isNameChar c = false :=
    hrest.stop fun c hc => by fin_cases hc <;> rfl
  simp only [evaluateVariable, takeWhile_append_of_stop hname hstop,
    dropWhile_append_of_stop hname hstop, h, Option.bind_some, MemoryArray.items?_ofItems,
    Option.map_some]
  exact if_pos rfl

/-! ## Allocations -/

lemma readBrackets_digits (shape : Shape) (ds more cs : List Char)
    (hmore : ∀ c ∈ more, isAsciiDigit c = true) :
    readBrackets shape (some ds) (more ++ ']' :: cs)
      = readBrackets ((if ds ++ more = [] then none else some (spelled (ds ++ more))) :: shape) none
          cs := by
  induction more generalizing ds with
  | nil => simp [readBrackets]
  | cons c more ih =>
    have hdigit := hmore c (by simp)
    have hc : c ≠ ']' := by
      rintro rfl
      cases hdigit
    rw [List.cons_append, readBrackets, if_neg hc, if_pos hdigit,
      ih _ fun d hd => hmore d (by simp [hd]), List.append_assoc, List.singleton_append]

lemma readBrackets_dimText (shape : Shape) (d : Option Nat) (cs : List Char) :
    readBrackets shape none (dimText d ++ cs) = readBrackets (d :: shape) none cs := by
  cases d with
  | none => rfl
  | some n =>
    have hdigits := readBrackets_digits shape [] (decimal n) cs
      fun c hc => isAsciiDigit_of_mem_decimal hc
    rw [List.nil_append, if_neg (decimal_ne_nil n), spelled_decimal] at hdigits
    rw [dimText, List.cons_append, List.cons_append, List.append_assoc, List.singleton_append,
      readBrackets, if_pos rfl, hdigits]

/-- The brackets of a shape are read as the shape. -/
lemma readBrackets_brackets (read shape : Shape) (cs : List Char) :
    readBrackets read none (brackets shape ++ cs) = readBrackets (shape ++ read) none cs := by
  induction shape generalizing cs with
  | nil => rfl
  | cons d shape ih =>
    rw [brackets_cons, List.append_assoc, ih, readBrackets_dimText, List.cons_append]

/-- Brackets have nothing but brackets and digits in them. -/
lemma mem_brackets {shape : Shape} {c : Char} (h : c ∈ brackets shape) :
    c = '[' ∨ c = ']' ∨ isAsciiDigit c = true := by
  induction shape with
  | nil => simp at h
  | cons d shape ih =>
    rw [brackets_cons, List.mem_append] at h
    rcases h with h | h
    · exact ih h
    · cases d with
      | none => simp only [dimText, List.mem_cons, List.not_mem_nil, or_false] at h; tauto
      | some n =>
        simp only [dimText, List.mem_cons, List.mem_append, List.not_mem_nil, or_false] at h
        have := isAsciiDigit_of_mem_decimal (n := n) (c := c)
        tauto

lemma ne_of_mem_brackets {shape : Shape} {c d : Char} (h : c ∈ brackets shape)
    (hd : d ≠ '[' ∧ d ≠ ']' ∧ isAsciiDigit d = false) : c ≠ d := by
  rintro rfl
  rcases mem_brackets h with h | h | h
  · exact hd.1 h
  · exact hd.2.1 h
  · simp [hd.2.2] at h

/-- The text of an allocation, in the pieces in which it is read. -/
lemma toList_allocation (name : String) (item : Shape) (count : Nat) :
    (allocation name (S.spelling ++ brackets item) count).toList
      = S.spelling ++ (brackets (none :: item) ++ (" memory ".toList ++ (name.toList
        ++ ((" = new ".toList ++ S.spelling ++ brackets (none :: item) ++ ['('])
          ++ (decimal count ++ [')', ';']))))) := by
  simp [allocation, toDigits_eq, dimText]

/-- **An allocation is read as one.** -/
lemma readAllocation_allocation {name : String} {i : Nat} (hname : name.toList = arrayName i)
    (item : Shape) (count : Nat) :
    readAllocation S (allocation name (S.spelling ++ brackets item) count).toList
      = some ⟨item, arrayName i, count⟩ := by
  have htyped : ∀ c ∈ brackets (none :: item), decide (c ≠ ' ') = true := fun c hc =>
    decide_eq_true (ne_of_mem_brackets hc (by decide))
  have hblank : ∀ rest, ∀ c ∈ (" memory ".toList ++ rest).head?, decide (c ≠ ' ') = false := by
    simp
  have hchars : ∀ c ∈ arrayName i, isNameChar c = true := fun c => isNameChar_of_mem_arrayName
  have hstop : ∀ rest, ∀ c ∈ (" = new ".toList ++ S.spelling ++ brackets (none :: item) ++ ['(']
      ++ rest).head?, isNameChar c = false := by
    simp [isNameChar, isAsciiLetter, isAsciiDigit]
  have hcount : ∀ c ∈ [')', ';'].head?, isAsciiDigit c = false := by simp [isAsciiDigit]
  have hbrackets : readBrackets [] none (brackets (none :: item)) = some (none :: item) := by
    have h := readBrackets_brackets [] (none :: item) []
    rw [List.append_nil, List.append_nil] at h
    exact h
  rw [toList_allocation, hname, readAllocation, dropPrefix?_append, Option.bind_some]
  simp only [takeWhile_append_of_stop htyped (hblank _), dropWhile_append_of_stop htyped (hblank _),
    hbrackets, dropPrefix?_append, Option.bind_some, takeWhile_append_of_stop hchars (hstop _),
    dropWhile_append_of_stop hchars (hstop _), scanNumber_decimal count hcount]

lemma allocate_of_fresh {mem : Memory} {a : Allocation} (h : mem a.name = none) :
    allocate mem a
      = some (Function.update mem a.name (some ⟨a.item, List.replicate a.count none⟩)) := by
  rw [allocate, h]
  rfl

lemma step_allocation {mem : Memory} {name : String} {i : Nat} (hname : name.toList = arrayName i)
    (hfresh : mem (arrayName i) = none) (item : Shape) (count : Nat) :
    step S mem (allocation name (S.spelling ++ brackets item) count).toList
      = some (Function.update mem (arrayName i) (some ⟨item, List.replicate count none⟩)) := by
  rw [step, readAllocation_allocation hname]
  exact allocate_of_fresh hfresh

/-! ## Telling assignments from allocations

A type may be spelled in any way, so the front of an assignment might look like the front of an
allocation.  The word `memory` tells them apart: it comes behind the type, before any parenthesis,
while in an assignment there is a parenthesis right behind the first mention of the type. -/

/-- There is no `m` and no parenthesis in a text. -/
def IsPlainText (cs : List Char) : Prop :=
  'm' ∉ cs ∧ '(' ∉ cs

/-- A text is not taken for the front of an allocation: either its beginning does not fit, or the
first mention of the type comes with a parenthesis. -/
def NoAllocation (S : ScalarType) (cs : List Char) : Prop :=
  (∃ c rest, S.spelling = c :: rest ∧ c ≠ 'c') ∨ IsPlainText cs ∨
    ∃ front behind, cs = front ++ S.spelling ++ '(' :: behind ∧ IsPlainText front

lemma IsPlainText.append {cs ds : List Char} (hcs : IsPlainText cs) (hds : IsPlainText ds) :
    IsPlainText (cs ++ ds) := by
  simp_all [IsPlainText]

lemma NoAllocation.append {cs ds : List Char} (hcs : NoAllocation S cs) (hds : NoAllocation S ds) :
    NoAllocation S (cs ++ ds) := by
  rcases hcs with h | hplain | ⟨front, behind, rfl, hfront⟩
  · exact .inl h
  · rcases hds with h | hds | ⟨front, behind, rfl, hfront⟩
    · exact .inl h
    · exact .inr (.inl (hplain.append hds))
    · exact .inr (.inr ⟨cs ++ front, behind, by simp, hplain.append hfront⟩)
  · exact .inr (.inr ⟨front, behind ++ ds, by simp, hfront⟩)

lemma not_mem_decimal {n : Nat} {c : Char} (hc : isAsciiDigit c = false) : c ∉ decimal n := by
  intro hmem
  rw [isAsciiDigit_of_mem_decimal hmem] at hc
  cases hc

lemma isPlainText_decimal (n : Nat) : IsPlainText (decimal n) :=
  ⟨not_mem_decimal (by decide), not_mem_decimal (by decide)⟩

lemma isPlainText_arrayName (i : Nat) : IsPlainText (arrayName i) :=
  IsPlainText.append ⟨by simp, by simp⟩ (isPlainText_decimal i)

lemma mem_of_readBrackets {shape read : Shape} {digits : Option (List Char)} {cs : List Char}
    (h : readBrackets shape digits cs = some read) {c : Char} (hc : c ∈ cs) :
    c = '[' ∨ c = ']' ∨ isAsciiDigit c = true := by
  fun_induction readBrackets shape digits cs with
  | case1 => simp at hc
  | case2 shape cs ih =>
    rcases List.mem_cons.mp hc with rfl | hc
    · exact .inl rfl
    · exact ih h hc
  | case3 => cases h
  | case4 => cases h
  | case5 shape ds cs ih =>
    rcases List.mem_cons.mp hc with rfl | hc
    · exact .inr (.inl rfl)
    · exact ih h hc
  | case6 shape ds d cs _ hdigit ih =>
    rcases List.mem_cons.mp hc with rfl | hc
    · exact .inr (.inr hdigit)
    · exact ih h hc
  | case7 => cases h

/-- What is read as an allocation mentions the type, and memory before any parenthesis. -/
lemma exists_of_readAllocation {cs : List Char} {a : Allocation}
    (h : readAllocation S cs = some a) :
    ∃ typed rest, cs = S.spelling ++ typed ++ rest ∧ 'm' ∈ typed ∧ '(' ∉ typed := by
  simp only [readAllocation, Option.bind_eq_some_iff] at h
  obtain ⟨behind, hbehind, h⟩ := h
  split at h
  next item hbrackets =>
    obtain ⟨rest, hrest, -⟩ := Option.bind_eq_some_iff.mp h
    obtain ⟨word, hspelling, hword⟩ := List.dropPrefix?_eq_some_iff.mp hbehind
    obtain ⟨word', hmemory, hword'⟩ := List.dropPrefix?_eq_some_iff.mp hrest
    obtain rfl : word = S.spelling := by simpa using hword
    obtain rfl : word' = " memory ".toList := by simpa using hword'
    have hsplit := List.takeWhile_append_dropWhile (p := (· ≠ ' ')) (l := behind)
    rw [hmemory] at hsplit
    refine ⟨behind.takeWhile (· ≠ ' ') ++ " memory ".toList, rest, ?_, by simp, ?_⟩
    · rw [hspelling, List.append_assoc, List.append_assoc, hsplit]
    · intro hmem
      rcases List.mem_append.mp hmem with hmem | hmem
      · rcases mem_of_readBrackets hbrackets hmem with h | h | h <;> revert h <;> decide
      · simp at hmem
  next => cases h

/-- The first mention of a type comes with a parenthesis or without. -/
lemma not_both_fronts {word front behind typed rest : List Char} (hfront : IsPlainText front)
    (hmem : 'm' ∈ typed) (hnot : '(' ∉ typed) :
    front ++ word ++ '(' :: behind ≠ word ++ typed ++ rest := by
  intro heq
  have hleft : front ++ word <+: word ++ typed ++ rest := ⟨'(' :: behind, heq⟩
  have hright : word ++ typed <+: word ++ typed ++ rest := List.prefix_append _ _
  rcases Nat.lt_or_ge front.length typed.length with hlength | hlength
  · -- up to the parenthesis, the text lies within the type and what is read behind it
    have hopen : front ++ word ++ ['('] <+: word ++ typed ++ rest := ⟨behind, by simpa using heq⟩
    have hle : (front ++ word ++ ['(']).length ≤ (word ++ typed).length := by simp; omega
    have hcount := (List.prefix_of_prefix_length_le hopen hright hle).sublist.count_le '('
    simp [List.count_eq_zero_of_not_mem hnot] at hcount
    omega
  · -- all of what is read lies in front of the parenthesis
    have hle : (word ++ typed).length ≤ (front ++ word).length := by simp; omega
    have hcount := (List.prefix_of_prefix_length_le hright hleft hle).sublist.count_le 'm'
    have hpos := List.count_pos_iff.mpr hmem
    simp [List.count_eq_zero_of_not_mem hfront.1] at hcount
    omega

lemma readAllocation_eq_none {i : Nat} {cs : List Char} (h : NoAllocation S (arrayName i ++ cs)) :
    readAllocation S (arrayName i ++ cs) = none := by
  rw [Option.eq_none_iff_forall_ne_some]
  intro a ha
  obtain ⟨typed, rest, htext, hmem, hnot⟩ := exists_of_readAllocation ha
  rcases h with ⟨c, spelled, hspelling, hc⟩ | hplain | ⟨front, behind, hsplit, hfront⟩
  · have hhead : some 'c' = some c := by
      have h := congrArg List.head? htext
      rwa [hspelling] at h
    exact hc (Option.some.inj hhead).symm
  · exact hplain.1 (by rw [htext]; simp [hmem])
  · exact not_both_fronts hfront hmem hnot (hsplit.symm.trans htext)

/-! ## Assignments -/

/-- The text of the assignment of an item. -/
def assignmentText (i k : Nat) (expr : List Char) : List Char :=
  arrayName i ++ (['['] ++ (decimal k ++ ("] = ".toList ++ (expr ++ [';']))))

lemma noAllocation_assignmentText {i k : Nat} {expr : List Char} (h : NoAllocation S expr) :
    NoAllocation S (assignmentText i k expr) := by
  have hplain {cs : List Char} (hcs : IsPlainText cs) : NoAllocation S cs := .inr (.inl hcs)
  refine (hplain (isPlainText_arrayName i)).append ?_
  refine (hplain (by simp [IsPlainText])).append ?_
  refine (hplain (isPlainText_decimal k)).append ?_
  refine (hplain (by simp [IsPlainText])).append ?_
  exact h.append (hplain (by simp [IsPlainText]))

lemma takeWhile_assignmentText (i k : Nat) (expr : List Char) :
    (assignmentText i k expr).takeWhile isNameChar = arrayName i :=
  takeWhile_append_of_stop (fun _ => isNameChar_of_mem_arrayName)
    (by simp [isNameChar, isAsciiLetter, isAsciiDigit])

lemma dropWhile_assignmentText (i k : Nat) (expr : List Char) :
    (assignmentText i k expr).dropWhile isNameChar
      = ['['] ++ (decimal k ++ ("] = ".toList ++ (expr ++ [';']))) :=
  dropWhile_append_of_stop (fun _ => isNameChar_of_mem_arrayName)
    (by simp [isNameChar, isAsciiLetter, isAsciiDigit])

/-- The index of an assignment ends at its bracket. -/
lemma scanNumber_index (k : Nat) (rest : List Char) :
    scanNumber (decimal k ++ ("] = ".toList ++ rest)) = some (k, "] = ".toList ++ rest) :=
  scanNumber_decimal k (by simp [isAsciiDigit])

/-- **An assignment fills an empty slot with the value of its expression.** -/
lemma step_assignmentText {mem : Memory} {i k : Nat} {a : MemoryArray} {expr : List Char}
    {v : Value} (hexpr : NoAllocation S expr) (hmem : mem (arrayName i) = some a)
    (hslot : a.slots[k]? = some none)
    (hvalue : evaluateFrom S mem a.item false (expr ++ [';']) = some (v, [';'])) :
    step S mem (assignmentText i k expr)
      = some (Function.update mem (arrayName i)
          (some { a with slots := a.slots.set k (some v) })) := by
  have hassign : readAllocation S (assignmentText i k expr) = none :=
    readAllocation_eq_none (noAllocation_assignmentText hexpr)
  rw [step, hassign]
  simp only [assign, takeWhile_assignmentText, dropWhile_assignmentText, dropPrefix?_append,
    Option.bind_some, scanNumber_index, hmem, hvalue, hslot]

/-- A statement that is put together is the text of an assignment. -/
lemma toList_assignment {name : String} {i : Nat} (hname : name.toList = arrayName i) (k : Nat)
    (expr : List Char) :
    (name ++ "[" ++ toString k ++ "] = " ++ String.ofList expr ++ ";").toList
      = assignmentText i k expr := by
  simp [assignmentText, hname, toDigits_eq]

lemma execute_assignment {mem : Memory} {name : String} {i : Nat}
    (hname : name.toList = arrayName i) (k : Nat) (expr : List Char) (exprs : List (List Char)) :
    execute S mem (assignments name k (expr :: exprs))
      = (step S mem (assignmentText i k expr)).bind fun mem =>
          execute S mem (assignments name (k + 1) exprs) := by
  rw [assignments, execute, toList_assignment hname]

/-- **Assignments fill an array slot by slot**, if each expression denotes its item whatever the
array holds. -/
lemma execute_assignments {mem : Memory} (base : Memory) {name : String} {i : Nat}
    (hname : name.toList = arrayName i) {item : Shape} (done : List Value) {vs : List Value}
    {exprs : List (List Char)}
    (hexprs : List.Forall₂ (fun expr v => NoAllocation S expr ∧ ∀ mem : Memory,
      (∀ x, x ≠ arrayName i → mem x = base x) →
        evaluateFrom S mem item false (expr ++ [';']) = some (v, [';'])) exprs vs)
    (hbase : ∀ x, x ≠ arrayName i → mem x = base x)
    (hmem : mem (arrayName i) = some ⟨item, done.map some ++ List.replicate vs.length none⟩) :
    execute S mem (assignments name done.length exprs)
      = some (Function.update mem (arrayName i) (some (.ofItems item (done ++ vs)))) := by
  induction hexprs generalizing mem done with
  | nil =>
    have hdone : mem (arrayName i) = some (.ofItems item (done ++ [])) := by
      simpa [MemoryArray.ofItems] using hmem
    rw [assignments, execute, ← hdone, Function.update_eq_self]
  | @cons expr v exprs vs hexpr hexprs ih =>
    obtain ⟨hnone, hvalue⟩ := hexpr
    have hslot : (done.map some ++ List.replicate (v :: vs).length none)[done.length]?
        = some (none : Option Value) := by
      rw [List.getElem?_append_right (by simp)]
      simp
    have hset : (done.map some ++ List.replicate (v :: vs).length none).set done.length (some v)
        = (done ++ [v]).map some ++ List.replicate vs.length none := by
      rw [List.set_append_right _ _ (by simp)]
      simp [List.replicate_succ]
    obtain ⟨next, hnext⟩ : ∃ next, next = Function.update mem (arrayName i)
        (some ⟨item, (done ++ [v]).map some ++ List.replicate vs.length none⟩) := ⟨_, rfl⟩
    have hstep : step S mem (assignmentText i done.length expr) = some next := by
      rw [step_assignmentText hnone hmem hslot (hvalue mem hbase), hset, hnext]
    have hkept : ∀ x, x ≠ arrayName i → next x = base x := by
      intro x hx
      rw [hnext, Function.update_of_ne hx, hbase x hx]
    have hrest := ih (done ++ [v]) hkept (by rw [hnext, Function.update_self])
    rw [List.length_append, List.length_singleton] at hrest
    rw [execute_assignment hname, hstep, Option.bind_some, hrest, hnext, Function.update_idem,
      List.append_assoc, List.singleton_append]

end HoneypotAudit.Solidity
