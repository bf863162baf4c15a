import HoneypotAudit.Proofs.Solidity.Containment

/-!
# Memory variables in scope

What statements declare, assign and refer to, whoever wrote them.

* `readStatement` reads a text as the declaration of a memory array or as the assignment of one of
  its items.  There are no variables in a declaration but the one that it declares: a type is a name
  with brackets and numbers, and a count is a number.
* `references` are the memory variables that code refers to.  The code of a text is what is left
  of it without literals and comments (`lexFrom`), and a name in front of a parenthesis is that of a
  type.

A variable is complete where its declaration and the assignments of all its items stand together
(`IsComplete`).  A program is `WellScoped` if it declares nothing twice, assigns items in order
right behind the declaration of their array, and refers to complete variables only.  It stays so
when an array is added whose variable is new and whose items refer to what is complete already
(`WellScoped.append_array`).
-/

namespace HoneypotAudit.Solidity

open HoneypotAudit.Text HoneypotAudit.Abi HoneypotAudit.Abi.TypeText

/-! ## References -/

/-- The names in code, where one has begun.  A name in front of a parenthesis is that of a type, and
left out. -/
def namesFrom : List Char → List Char → List (List Char)
  | name, [] => [name]
  | name, c :: cs =>
    if isPathChar c then namesFrom (name ++ [c]) cs
    else if c = '(' then namesFrom [] cs
    else name :: namesFrom [] cs

/-- The names of memory variables. -/
def isVariable (name : List Char) : Bool :=
  "ctorArg".toList.isPrefixOf name

/-- The memory variables that code refers to. -/
def references (code : List Char) : List (List Char) :=
  (namesFrom [] code).filter isVariable

section References

variable {cs ds : List Char}

lemma namesFrom_of_path (h : ∀ c ∈ cs, isPathChar c = true) (name : List Char) :
    namesFrom name cs = [name ++ cs] := by
  induction cs generalizing name with
  | nil => simp [namesFrom]
  | cons c cs ih =>
    obtain ⟨hc, hcs⟩ := List.forall_mem_cons.mp h
    rw [namesFrom, if_pos hc, ih hcs, List.append_assoc, List.singleton_append]

/-- The name of a type is left out. -/
lemma namesFrom_call (h : ∀ c ∈ cs, isPathChar c = true) (name ds : List Char) :
    namesFrom name (cs ++ '(' :: ds) = namesFrom [] ds := by
  induction cs generalizing name with
  | nil => rfl
  | cons c cs ih =>
    obtain ⟨hc, hcs⟩ := List.forall_mem_cons.mp h
    rw [List.cons_append, namesFrom, if_pos hc, ih hcs]

/-- A name ends at every character that is not part of one. -/
lemma namesFrom_append {c : Char} (hpath : isPathChar c = false) (hopen : c ≠ '(')
    (name cs ds : List Char) :
    namesFrom name (cs ++ c :: ds) = namesFrom name cs ++ namesFrom [] ds := by
  induction cs generalizing name with
  | nil => simp [namesFrom, hpath, hopen]
  | cons d cs ih =>
    rw [List.cons_append, namesFrom, namesFrom]
    split
    · exact ih _
    split
    · exact ih _
    · rw [ih, List.cons_append]

lemma references_call (h : ∀ c ∈ cs, isPathChar c = true) (ds : List Char) :
    references (cs ++ '(' :: ds) = references ds := by
  rw [references, namesFrom_call h, references]

lemma references_append {c : Char} (hpath : isPathChar c = false) (hopen : c ≠ '(')
    (cs ds : List Char) : references (cs ++ c :: ds) = references cs ++ references ds := by
  rw [references, namesFrom_append hpath hopen, List.filter_append, references, references]

lemma mem_of_mem_namesFrom {name word : List Char} (h : word ∈ namesFrom name cs) :
    ∀ c ∈ word, c ∈ name ∨ c ∈ cs := by
  induction cs generalizing name with
  | nil =>
    obtain rfl : word = name := by simpa [namesFrom] using h
    exact fun c hc => .inl hc
  | cons d cs ih =>
    intro c hc
    rw [namesFrom] at h
    split at h
    · have hmem := ih h c hc
      rw [List.mem_append, List.mem_singleton, or_assoc] at hmem
      rwa [List.mem_cons]
    split at h
    · exact .inr (List.mem_cons_of_mem d ((ih h c hc).resolve_left List.not_mem_nil))
    rcases List.mem_cons.mp h with rfl | h
    · exact .inl hc
    · exact .inr (List.mem_cons_of_mem d ((ih h c hc).resolve_left List.not_mem_nil))

/-- There is a letter in the names of all variables. -/
lemma references_of_not_mem (h : 'g' ∉ cs) : references cs = [] := by
  rw [references, List.filter_eq_nil_iff]
  intro word hword hprefix
  obtain ⟨behind, rfl⟩ := List.isPrefixOf_iff_prefix.mp hprefix
  have hmem := mem_of_mem_namesFrom hword 'g' (by simp)
  exact h (by simpa using hmem)

lemma isVariable_arrayName (i : Nat) : isVariable (arrayName i) = true :=
  List.isPrefixOf_iff_prefix.mpr (List.prefix_append _ _)

lemma references_arrayName (i : Nat) : references (arrayName i) = [arrayName i] := by
  have hpath : ∀ c ∈ arrayName i, isPathChar c = true := by
    intro c hc
    rw [isPathChar, isNameChar_of_mem_arrayName hc, Bool.true_or]
  rw [references, namesFrom_of_path hpath, List.nil_append,
    List.filter_cons_of_pos (isVariable_arrayName i), List.filter_nil]

end References

/-! ## Statements -/

/-- A statement declares a memory array, whose items have a type of brackets behind a name, or
assigns one of its items. -/
inductive Statement where
  | declare (stem : List Char) (array : Allocation)
  | assign (name : List Char) (index : Nat) (expr : List Char)

/-- The name of a type that is no array. -/
def isTypeName (cs : List Char) : Bool :=
  cs == "address payable".toList || isDotted cs

/-- A declaration: `T[] memory x = new T[](n);`.  Only the spelling of a type matters here. -/
def readDeclaration (cs : List Char) : Option Statement :=
  let stem := cs.takeWhile (· ≠ '[')
  if isTypeName stem then (readAllocation ⟨stem, default⟩ cs).map (.declare stem) else none

/-- An assignment: `x[i] = e;`. -/
def readAssignment (cs : List Char) : Option Statement :=
  ((cs.dropWhile isNameChar).dropPrefix? ['[']).bind fun behind =>
    (scanNumber behind).bind fun (i, behind) =>
      (behind.dropPrefix? "] = ".toList).bind fun behind =>
        if endsWith [';'] behind then some (.assign (cs.takeWhile isNameChar) i behind.dropLast)
        else none

/-- A statement. -/
def readStatement (cs : List Char) : Option Statement :=
  (readDeclaration cs).or (readAssignment cs)

section Reading

variable {stem : List Char} {name : String} {i : Nat}

lemma isPathChar_of_isTypeName (h : isTypeName stem = true)
    (hne : stem ≠ "address payable".toList) : ∀ c ∈ stem, isPathChar c = true := by
  rw [isTypeName, beq_eq_false_iff_ne.mpr hne, Bool.false_or] at h
  exact isPathChar_of_isDotted h

lemma ne_bracket_of_isTypeName (h : isTypeName stem = true) {c : Char} (hc : c ∈ stem) :
    c ≠ '[' := by
  rintro rfl
  by_cases hpayable : stem = "address payable".toList
  · rw [hpayable] at hc
    revert hc
    decide
  · have hpath := isPathChar_of_isTypeName h hpayable '[' hc
    revert hpath
    decide

lemma head?_brackets (d : Option Nat) (item : Shape) (rest : List Char) :
    (brackets (d :: item) ++ rest).head? = some '[' := by
  induction item generalizing d rest with
  | nil => cases d <;> rfl
  | cons e item ih =>
    rw [brackets_cons, List.append_assoc]
    exact ih e _

/-- **A declaration is read as one.** -/
lemma readStatement_allocation (hname : name.toList = arrayName i) (hstem : isTypeName stem = true)
    (item : Shape) (count : Nat) :
    readStatement (allocation name (stem ++ brackets item) count).toList
      = some (.declare stem ⟨item, arrayName i, count⟩) := by
  have hread := readAllocation_allocation (S := ⟨stem, default⟩) hname item count
  have hfront : (allocation name (stem ++ brackets item) count).toList.takeWhile (· ≠ '[')
      = stem := by
    rw [toList_allocation (S := ⟨stem, default⟩)]
    refine takeWhile_append_of_stop (fun c hc => ?_) fun c hc => ?_
    · exact decide_eq_true (ne_bracket_of_isTypeName hstem hc)
    · rw [head?_brackets] at hc
      cases hc
      rfl
  have hdeclaration : readDeclaration (allocation name (stem ++ brackets item) count).toList
      = some (.declare stem ⟨item, arrayName i, count⟩) := by
    simp only [readDeclaration, hfront, hstem, if_true]
    rw [hread, Option.map_some]
  rw [readStatement, hdeclaration, Option.some_or]

/-- What stands behind the variable in an assignment is no type. -/
lemma readDeclaration_assignmentText (i k : Nat) (expr : List Char) :
    readDeclaration (assignmentText i k expr) = none := by
  have hname : ∀ c ∈ arrayName i, decide (c ≠ '[') = true := by
    intro c hc
    refine decide_eq_true ?_
    rintro rfl
    exact absurd (isNameChar_of_mem_arrayName hc) (by decide)
  have hstem : (assignmentText i k expr).takeWhile (· ≠ '[') = arrayName i :=
    takeWhile_append_of_stop hname (by simp)
  have htyped : (dimText (some k) ++ (" = ".toList ++ (expr ++ [';']))).takeWhile (· ≠ ' ')
      = dimText (some k) := by
    refine takeWhile_append_of_stop (fun c hc => decide_eq_true ?_) (by simp)
    have hmem : c ∈ brackets [some k] := by simpa using hc
    exact ne_of_mem_brackets hmem (by decide)
  have hbrackets : readBrackets [] none (dimText (some k)) = some [some k] := by
    have h := readBrackets_dimText [] (some k) []
    rwa [List.append_nil, readBrackets] at h
  have htext : assignmentText i k expr
      = arrayName i ++ (dimText (some k) ++ (" = ".toList ++ (expr ++ [';']))) := by
    simp [assignmentText, dimText]
  have hnone : readAllocation ⟨arrayName i, default⟩ (assignmentText i k expr) = none := by
    rw [htext, readAllocation, dropPrefix?_append, Option.bind_some]
    simp only [htyped, hbrackets]
  simp only [readDeclaration, hstem, hnone, Option.map_none, ite_self]

/-- **An assignment is read as one.** -/
lemma readStatement_assignmentText (i k : Nat) (expr : List Char) :
    readStatement (assignmentText i k expr) = some (.assign (arrayName i) k expr) := by
  have hend : endsWith [';'] (expr ++ [';']) = true :=
    List.isSuffixOf_iff_suffix.mpr (List.suffix_append expr [';'])
  rw [readStatement, readDeclaration_assignmentText, Option.none_or]
  simp only [readAssignment, takeWhile_assignmentText, dropWhile_assignmentText,
    dropPrefix?_append, Option.bind_some, scanNumber_index, hend, if_true, List.dropLast_concat]

end Reading

/-! ## Programs -/

/-- The variables that a program declares. -/
def declaredNames (program : List Statement) : List (List Char) :=
  program.filterMap fun
    | .declare _ a => some a.name
    | .assign _ _ _ => none

/-- The assignments of items to a variable, in order. -/
def assigned (x : List Char) (es : List (List Char)) : List Statement :=
  es.mapIdx fun k e => .assign x k e

/-- The declaration of a variable stands together with the assignments of all its items. -/
def IsComplete (program : List Statement) (x : List Char) : Prop :=
  ∃ before stem a es behind, a.name = x ∧ es.length = a.count ∧
    program = before ++ (.declare stem a :: assigned x es) ++ behind

/-- A text refers to complete variables only. -/
def Ready (program : List Statement) (text : List Char) : Prop :=
  ∃ code, lexFrom .code text = some code ∧ ∀ x ∈ references code, IsComplete program x

/-- A program declares and assigns its variables in order. -/
structure WellScoped (program : List Statement) : Prop where
  /-- What is declared is seen where it is referred to. -/
  named : ∀ x ∈ declaredNames program, isVariable x = true
  /-- Nothing is declared twice. -/
  nodup : (declaredNames program).Nodup
  /-- Right in front of an assignment are those of the items before and the declaration, and the
  expression refers to what is complete there. -/
  inOrder : ∀ before x k e behind, program = before ++ .assign x k e :: behind →
    Ready before e ∧ ∃ front stem a es, a.name = x ∧ es.length = k ∧ k < a.count ∧
      before = front ++ .declare stem a :: assigned x es
  /-- Behind a declaration are the assignments of all items. -/
  complete : ∀ x ∈ declaredNames program, IsComplete program x

section Programs

variable {program : List Statement} {x text : List Char} {es : List (List Char)}

lemma declaredNames_append (program more : List Statement) :
    declaredNames (program ++ more) = declaredNames program ++ declaredNames more :=
  List.filterMap_append

lemma declaredNames_assigned (x : List Char) (es : List (List Char)) :
    declaredNames (assigned x es) = [] := by
  rw [declaredNames, List.filterMap_eq_nil_iff]
  intro s hs
  obtain ⟨k, hk, rfl⟩ := List.mem_mapIdx.mp hs
  rfl

lemma declaredNames_append_array (program : List Statement) (stem : List Char) (a : Allocation)
    (es : List (List Char)) :
    declaredNames (program ++ .declare stem a :: assigned a.name es)
      = declaredNames program ++ [a.name] := by
  have hcons : declaredNames (.declare stem a :: assigned a.name es)
      = a.name :: declaredNames (assigned a.name es) := rfl
  rw [declaredNames_append, hcons, declaredNames_assigned]

lemma mem_declaredNames_append_array {stem : List Char} {a : Allocation} :
    x ∈ declaredNames (program ++ .declare stem a :: assigned a.name es) ↔
      x ∈ declaredNames program ∨ x = a.name := by
  rw [declaredNames_append_array, List.mem_append, List.mem_singleton]

/-- In front of an assignment are those of the items before. -/
lemma exists_of_assigned_eq {front behind : List Statement} {y e : List Char} {k : Nat}
    (h : assigned x es = front ++ .assign y k e :: behind) :
    ∃ done todo, es = done ++ e :: todo ∧ y = x ∧ k = done.length ∧ front = assigned x done := by
  obtain ⟨done, more, rfl, hdone, hmore⟩ := List.mapIdx_eq_append_iff.mp h
  obtain ⟨e', todo, rfl, he, -⟩ := List.mapIdx_eq_cons_iff.mp hmore
  cases he
  exact ⟨done, todo, rfl, rfl, by simp, hdone.symm⟩

lemma IsComplete.append (h : IsComplete program x) (more : List Statement) :
    IsComplete (program ++ more) x := by
  obtain ⟨before, stem, a, es, behind, hx, hlength, rfl⟩ := h
  exact ⟨before, stem, a, es, behind ++ more, hx, hlength, List.append_assoc _ _ _⟩

lemma Ready.append (h : Ready program text) (more : List Statement) :
    Ready (program ++ more) text := by
  obtain ⟨code, hcode, hreferences⟩ := h
  exact ⟨code, hcode, fun x hx => (hreferences x hx).append more⟩

lemma wellScoped_nil : WellScoped [] where
  named x hx := by simp [declaredNames] at hx
  nodup := List.nodup_nil
  inOrder before x k e behind h := by simp at h
  complete x hx := by simp [declaredNames] at hx

/-- An array with all its items is complete. -/
lemma isComplete_array (program : List Statement) (stem : List Char) {a : Allocation}
    (hlength : es.length = a.count) :
    IsComplete (program ++ .declare stem a :: assigned a.name es) a.name :=
  ⟨program, stem, a, es, [], rfl, hlength, (List.append_nil _).symm⟩

/-- **A program stays well scoped when an array is added** whose variable is new and whose items
refer to what is complete already. -/
theorem WellScoped.append_array (h : WellScoped program) {stem : List Char} {a : Allocation}
    (hname : isVariable a.name = true) (hnew : a.name ∉ declaredNames program)
    (hlength : es.length = a.count) (hes : ∀ e ∈ es, Ready program e) :
    WellScoped (program ++ .declare stem a :: assigned a.name es) where
  named x hx := by
    rcases mem_declaredNames_append_array.mp hx with hx | rfl
    · exact h.named x hx
    · exact hname
  nodup := by
    rw [declaredNames_append_array]
    exact List.Nodup.append h.nodup (List.nodup_singleton _) (by simpa using hnew)
  inOrder before x k e behind heq := by
    rcases List.append_eq_append_iff.mp heq with ⟨inner, rfl, hinner⟩ | ⟨outer, rfl, houter⟩
    · -- the assignment is one of those of the array, behind the declaration
      cases inner with
      | nil => cases hinner
      | cons s inner =>
        obtain ⟨rfl, hassigned⟩ := List.cons.inj hinner
        obtain ⟨done, todo, rfl, rfl, rfl, rfl⟩ := exists_of_assigned_eq hassigned
        refine ⟨(hes e (by simp)).append _, program, stem, a, done, rfl, rfl, ?_, rfl⟩
        rw [← hlength, List.length_append, List.length_cons]
        omega
    · -- the assignment is one of those before
      cases outer with
      | nil => cases houter
      | cons s outer =>
        obtain ⟨rfl, -⟩ := List.cons.inj houter
        exact h.inOrder before x k e outer rfl
  complete x hx := by
    rcases mem_declaredNames_append_array.mp hx with hx | rfl
    · exact (h.complete x hx).append _
    · exact isComplete_array program stem hlength

end Programs

end HoneypotAudit.Solidity
