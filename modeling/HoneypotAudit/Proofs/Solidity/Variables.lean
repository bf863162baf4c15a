import HoneypotAudit.Proofs.Solidity.Arguments
import HoneypotAudit.Proofs.Solidity.Scoping
import HoneypotAudit.Proofs.Source.Insertion

/-!
# Rendered arguments stay in scope

One renderer serves many calls, and some of them fail midway: a number may be taken then and the
arrays inside an array may be finished, while the array itself never is.  Whatever was collected,
the statements are a well scoped program, and what a call returns refers to complete variables of it
(`statements_wellScoped`).

A call keeps the invariant `IsScoped`, also one that fails (`scopes_render`).  The number of
an array is taken in front of those of its items, and its statements are added behind theirs, so the
invariant has to hold in between for a renderer that is one number ahead (`scopes_array`).
-/

namespace HoneypotAudit.Solidity

open HoneypotAudit.Text HoneypotAudit.Abi HoneypotAudit.Abi.TypeText HoneypotAudit.Steps

/-! ## Expressions -/

/-- Wherever a text stands in code, it refers to complete variables only. -/
def Uses (program : List Statement) (text : List Char) : Prop :=
  ∃ code, Lexes text code ∧ ∀ x ∈ references code, IsComplete program x

section Uses

variable {program : List Statement} {cs ds expr : List Char} {es : List (List Char)}

lemma Uses.ready (h : Uses program cs) : Ready program cs := by
  obtain ⟨code, hcode, hreferences⟩ := h
  refine ⟨code, ?_, hreferences⟩
  have hlex := hcode []
  simpa [lexFrom, Mode.atEnd] using hlex

lemma Uses.append (h : Uses program cs) (more : List Statement) : Uses (program ++ more) cs := by
  obtain ⟨code, hcode, hreferences⟩ := h
  exact ⟨code, hcode, fun x hx => (hreferences x hx).append more⟩

lemma uses_of_references (hcode : ∀ c ∈ cs, isMark c = false ∧ c ≠ '/')
    (h : ∀ x ∈ references cs, IsComplete program x) : Uses program cs :=
  ⟨cs, lexes_of_code hcode, h⟩

lemma uses_nil : Uses program [] :=
  uses_of_references (by simp) (by rw [references_of_not_mem (by simp)]; simp)

/-- A complete variable may be used. -/
lemma uses_arrayName {i : Nat} (h : IsComplete program (arrayName i)) :
    Uses program (arrayName i) := by
  have hword : isWord (arrayName i) = true :=
    isWord_append.mpr ⟨by decide, isWord_decimal i⟩
  refine uses_of_references (fun c hc => isCode_of_isBare (isBare_of_isWord hword c hc)) ?_
  rw [references_arrayName]
  simpa using h

/-- Texts on both sides of a character that is not part of names. -/
lemma Uses.join (h : Uses program cs) (h' : Uses program ds) {c : Char}
    (hcode : isMark c = false ∧ c ≠ '/') (hpath : isPathChar c = false) (hopen : c ≠ '(') :
    Uses program (cs ++ c :: ds) := by
  obtain ⟨code, hlexes, hreferences⟩ := h
  obtain ⟨code', hlexes', hreferences'⟩ := h'
  have hc : Lexes [c] [c] := lexes_of_code (by simpa using hcode)
  refine ⟨code ++ c :: code', hlexes.append (hc.append hlexes'), ?_⟩
  rw [references_append hpath hopen]
  exact List.forall_mem_append.mpr ⟨hreferences, hreferences'⟩

/-- A conversion refers to what its operand refers to. -/
lemma Uses.call (h : Uses program expr) (hpath : ∀ c ∈ cs, isPathChar c = true) :
    Uses program (cs ++ '(' :: (expr ++ [')'])) := by
  have hclose : Uses program (expr ++ [')']) :=
    h.join uses_nil (by decide) (by decide) (by decide)
  obtain ⟨code, hlexes, hreferences⟩ := hclose
  have hname : Lexes cs cs := lexes_of_bare (isBare_of_isWord (isWord_of_path hpath))
  have hopen : Lexes ['('] ['('] := lexes_of_code (by simp [isMark])
  refine ⟨cs ++ '(' :: code, hname.append (hopen.append hlexes), ?_⟩
  rwa [references_call hpath]

/-- There are no references in a literal. -/
lemma LiteralText.uses (h : LiteralText expr) : Uses program expr := by
  have hword : ∀ {cs : List Char}, isUnquoted cs = true → Lexes cs cs ∧ 'g' ∉ cs := by
    intro cs hcs
    refine ⟨lexes_of_bare (isBare_of_isWord (isWord_of_isUnquoted hcs)), fun hmem => ?_⟩
    have hg := List.all_eq_true.mp hcs 'g' hmem
    revert hg
    decide
  cases h with
  | unquoted h =>
    obtain ⟨hlexes, hg⟩ := hword h
    exact ⟨_, hlexes, by simp [references_of_not_mem hg]⟩
  | quoted hfront hmark hbody =>
    obtain ⟨hlexes, hg⟩ := hword hfront
    refine ⟨_, hlexes.append (lexes_literal hmark hbody), ?_⟩
    rw [references_of_not_mem (by simpa using hg)]
    simp

lemma uses_convert (h : Uses program expr) (abi : List Char) {sol : List Char}
    (hsol : isTypeName sol = true) : Uses program (convert expr abi sol) := by
  unfold convert
  split
  · exact h
  split
  · have hpath : ∀ c ∈ "payable".toList, isPathChar c = true := List.all_eq_true.mp (by decide)
    have hcall := h.call hpath
    simpa using hcall
  next hne =>
    have hcall := h.call (isPathChar_of_isTypeName hsol hne)
    simpa using hcall

section Arrays

variable {S : ScalarType}

lemma uses_explicitText (hS : isTypeName S.spelling = true) (item : Shape)
    (h : Uses program expr) : Uses program (explicitText S item expr) := by
  unfold explicitText
  split
  next hbare =>
    have hne : S.spelling ≠ "address payable".toList := by
      rw [hbare.2]
      exact scalarText_ne_addressPayable S.type
    have hcall := h.call (isPathChar_of_isTypeName hS hne)
    simpa using hcall
  next => exact h

/-- Items with separators between them. -/
lemma uses_flatMap (h : Uses program expr) (hes : ∀ e ∈ es, Uses program e) :
    Uses program (expr ++ es.flatMap ([',', ' '] ++ ·)) := by
  induction es generalizing expr with
  | nil => simpa using h
  | cons e es ih =>
    obtain ⟨he, hes⟩ := List.forall_mem_cons.mp hes
    have hblank : Uses program ([] ++ ' ' :: (e ++ es.flatMap ([',', ' '] ++ ·))) :=
      uses_nil.join (ih he hes) (by decide) (by decide) (by decide)
    have hcomma := h.join (c := ',') hblank (by decide) (by decide) (by decide)
    simpa using hcomma

/-- An inline array refers to what its items refer to. -/
lemma uses_inlineArray (hS : isTypeName S.spelling = true) (item : Shape)
    (h : ∀ e ∈ es, Uses program e) :
    Uses program
      (inlineArray es (scalarText S.type ++ brackets item) (S.spelling ++ brackets item)) := by
  have hbrackets : ∀ {inner : List Char}, Uses program inner →
      Uses program (['['] ++ (inner ++ [']'])) := by
    intro inner hinner
    have hclose := hinner.join (c := ']') uses_nil (by decide) (by decide) (by decide)
    exact uses_nil.join hclose (by decide) (by decide) (by decide)
  cases es with
  | nil => exact hbrackets uses_nil
  | cons e es =>
    obtain ⟨he, hes⟩ := List.forall_mem_cons.mp h
    have hitems := hbrackets (uses_flatMap (uses_explicitText hS item he) hes)
    rwa [List.append_assoc, ← inlineArray_cons] at hitems

end Arrays

end Uses

/-! ## Values -/

/-- All scalars in a value are of a type or have no literal of it.  What is no array where an array
is asked for has no items at all. -/
def Admits (t : AbiType) : Shape → Value → Prop
  | [], v => IsScalar t v ∨ ∃ fault, literal v (scalarText t) = .error fault
  | _ :: item, v => ∀ vs, items? v = some vs → ∀ u ∈ vs, Admits t item u

/-- The literal of a scalar has the form of one. -/
lemma literalText_of_isScalar {t : AbiType} {v : Value} (hv : IsScalar t v) {expr : List Char}
    (h : literal v (scalarText t) = .ok expr) : LiteralText expr := by
  refine literalText_of (fun hcs e he => ?_) (fun hcs e he => ?_) (fun haddress hstring => ?_) h
  · cases t <;> simp [scalarText, scalarName, sizeText] at hcs
    cases v <;> simp only [IsScalar] at hv
    exact literalText_addressLiteral hv he
  · cases t <;> simp [scalarText, scalarName, sizeText] at hcs
    cases v <;> simp only [IsScalar] at hv
    exact literalText_stringLiteral he
  · refine literalText_plain ?_ ?_
    · rintro s rfl
      cases t <;> simp only [IsScalar] at hv
      · exact haddress rfl
      · exact hstring rfl
    · rintro vs rfl
      cases t <;> exact hv

/-! ## Renderers -/

/-- The statements of a renderer are a well scoped program, and it has taken the numbers of all
variables in it. -/
structure IsScoped (r : Renderer) (program : List Statement) : Prop where
  reads : r.statements.map (fun s => readStatement s.toList) = program.map some
  wellScoped : WellScoped program
  taken : ∀ x ∈ declaredNames program, ∃ i < r.next, x = arrayName i

/-- A renderer goes on: it has only added statements, and its new variables have new numbers. -/
structure Continues (r r' : Renderer) (program more : List Statement) : Prop where
  isScoped : IsScoped r' (program ++ more)
  appends : r.statements <+: r'.statements
  next_le : r.next ≤ r'.next
  fresh : ∀ x ∈ declaredNames more, ∃ i, r.next ≤ i ∧ x = arrayName i

/-- Every run of a step continues a renderer, and what it comes to has a property in the program. -/
def Scopes {α : Type} (r : Renderer) (program : List Statement) (step : Rendering α)
    (P : List Statement → α → Prop) : Prop :=
  ∀ ⦃o r'⦄, Runs step r o r' →
    ∃ more, Continues r r' program more ∧ ∀ a, o = .ok a → P (program ++ more) a

section Scopes

variable {α β : Type} {r r' r'' : Renderer} {program more more' : List Statement}
  {P : List Statement → α → Prop} {Q : List Statement → β → Prop}

lemma IsScoped.continues (h : IsScoped r program) : Continues r r program [] where
  isScoped := by rwa [List.append_nil]
  appends := List.prefix_refl _
  next_le := le_rfl
  fresh x hx := by simp [declaredNames] at hx

lemma Continues.trans (h : Continues r r' program more)
    (h' : Continues r' r'' (program ++ more) more') :
    Continues r r'' program (more ++ more') where
  isScoped := by
    rw [← List.append_assoc]
    exact h'.isScoped
  appends := h.appends.trans h'.appends
  next_le := h.next_le.trans h'.next_le
  fresh x hx := by
    rw [declaredNames_append, List.mem_append] at hx
    rcases hx with hx | hx
    · exact h.fresh x hx
    · obtain ⟨i, hi, rfl⟩ := h'.fresh x hx
      exact ⟨i, h.next_le.trans hi, rfl⟩

/-- A step that fails leaves nothing but its statements behind. -/
lemma Continues.of_error (h : Continues r r' program more) (fault : LiteralFault) :
    ∃ more, Continues r r' program more ∧
      ∀ a, (.error fault : Except LiteralFault α) = .ok a → P (program ++ more) a := by
  refine ⟨more, h, fun a ha => ?_⟩
  cases ha

lemma scopes_pure (h : IsScoped r program) {a : α} (ha : P program a) :
    Scopes r program (pure a) P := by
  intro o r' hruns
  obtain ⟨rfl, rfl⟩ := runs_pure_iff.mp hruns
  refine ⟨[], h.continues, fun b hb => ?_⟩
  obtain rfl := Except.ok.inj hb
  rwa [List.append_nil]

lemma scopes_throw (h : IsScoped r program) (fault : LiteralFault) :
    Scopes r program (throw fault) P := by
  intro o r' hruns
  obtain ⟨rfl, rfl⟩ := runs_throw_iff.mp hruns
  exact h.continues.of_error fault

/-- **Steps compose**, also where the first one fails. -/
lemma Scopes.bind {step : Rendering α} {next : α → Rendering β} (h : Scopes r program step P)
    (hnext : ∀ a r' more, Continues r r' program more → P (program ++ more) a →
      Scopes r' (program ++ more) (next a) Q) : Scopes r program (step >>= next) Q := by
  intro o r'' hruns
  rcases runs_bind_iff.mp hruns with ⟨fault, hfault, rfl⟩ | ⟨a, r', ha, hb⟩
  · obtain ⟨more, hmore, -⟩ := h hfault
    exact hmore.of_error fault
  · obtain ⟨more, hmore, hP⟩ := h ha
    obtain ⟨more', hmore', hQ⟩ := hnext a r' more hmore (hP a rfl) hb
    refine ⟨more ++ more', hmore.trans hmore', fun b hb => ?_⟩
    rw [← List.append_assoc]
    exact hQ b hb

/-- Items stay in scope while those behind them are rendered. -/
lemma scopes_renderAll {render : Value → Rendering (List Char)} {vs : List Value}
    (h : ∀ v ∈ vs, ∀ r program, IsScoped r program → Scopes r program (render v) Uses)
    (hr : IsScoped r program) :
    Scopes r program (renderAll render vs) fun program es => ∀ e ∈ es, Uses program e := by
  induction vs generalizing r program with
  | nil => exact scopes_pure hr (by simp)
  | cons v vs ih =>
    obtain ⟨hv, hvs⟩ := List.forall_mem_cons.mp h
    refine (hv r program hr).bind fun e r' more hmore he => ?_
    refine (ih hvs hmore.isScoped).bind fun es r'' more' hmore' hes => ?_
    exact scopes_pure hmore'.isScoped (List.forall_mem_cons.mpr ⟨he.append more', hes⟩)

/-- Going through the items of a value. -/
lemma scopes_items {render : Value → Rendering (List Char)} {v : Value}
    (h : ∀ vs, items? v = some vs → ∀ u ∈ vs, ∀ r program, IsScoped r program →
      Scopes r program (render u) Uses) (hr : IsScoped r program) :
    Scopes r program (itemsOf v >>= fun vs => renderAll render vs)
      fun program es => ∀ e ∈ es, Uses program e := by
  have hof : Scopes r program (itemsOf v) fun _ vs => items? v = some vs := by
    unfold itemsOf
    split
    next vs hvs => exact scopes_pure hr hvs
    next => exact scopes_throw hr _
  exact hof.bind fun vs r' more hmore hvs => scopes_renderAll (h vs hvs) hmore.isScoped

end Scopes

/-! ## Arrays -/

section Arrays

variable {r r' : Renderer} {program more : List Statement} {name : String} {i : Nat}
  {es : List (List Char)} {stem : List Char}

lemma map_readStatement_assignments (hname : name.toList = arrayName i) (k : Nat)
    (es : List (List Char)) :
    (assignments name k es).map (fun s => readStatement s.toList)
      = (es.mapIdx fun j e => Statement.assign (arrayName i) (k + j) e).map some := by
  induction es generalizing k with
  | nil => rfl
  | cons e es ih =>
    have hshift : ∀ j, k + 1 + j = k + (j + 1) := by omega
    rw [assignments, List.map_cons, toList_assignment hname, readStatement_assignmentText, ih,
      List.mapIdx_cons, List.map_cons]
    simp only [hshift, Nat.add_zero]

/-- The statements of an array are read as its declaration and the assignments of its items. -/
lemma map_readStatement_array (hname : name.toList = arrayName i) (hstem : isTypeName stem = true)
    (item : Shape) (es : List (List Char)) :
    (allocation name (stem ++ brackets item) es.length :: assignments name 0 es).map
        (fun s => readStatement s.toList)
      = (Statement.declare stem ⟨item, arrayName i, es.length⟩
          :: assigned (arrayName i) es).map some := by
  have hassigned : (es.mapIdx fun j e => Statement.assign (arrayName i) (0 + j) e)
      = assigned (arrayName i) es := by
    simp only [Nat.zero_add]
    rfl
  rw [List.map_cons, readStatement_allocation hname hstem, map_readStatement_assignments hname,
    hassigned, List.map_cons]

/-- The number of an array is new when its statements are added. -/
lemma Continues.not_declared (h : Continues ⟨r.statements, r.next + 1⟩ r' program more)
    (hr : IsScoped r program) : arrayName r.next ∉ declaredNames (program ++ more) := by
  rw [declaredNames_append, List.mem_append]
  rintro (hmem | hmem)
  · obtain ⟨i, hi, hname⟩ := hr.taken _ hmem
    have heq := arrayName_injective hname
    omega
  · obtain ⟨i, hi, hname⟩ := h.fresh _ hmem
    have heq := arrayName_injective hname
    simp only at hi
    omega

/-- Taking a number adds nothing yet. -/
lemma IsScoped.fresh (h : IsScoped r program) : IsScoped ⟨r.statements, r.next + 1⟩ program where
  reads := h.reads
  wellScoped := h.wellScoped
  taken x hx := by
    obtain ⟨i, hi, rfl⟩ := h.taken x hx
    exact ⟨i, Nat.lt_succ_of_lt hi, rfl⟩

/-- What continues a renderer that is one number ahead continues the renderer. -/
lemma Continues.of_fresh (h : Continues ⟨r.statements, r.next + 1⟩ r' program more) :
    Continues r r' program more where
  isScoped := h.isScoped
  appends := h.appends
  next_le := Nat.le_of_succ_le h.next_le
  fresh x hx := by
    obtain ⟨i, hi, rfl⟩ := h.fresh x hx
    exact ⟨i, Nat.le_of_succ_le hi, rfl⟩

/-- **The statements of an array continue the renderer** from which its number was taken. -/
lemma Continues.append_array (h : Continues ⟨r.statements, r.next + 1⟩ r' program more)
    (hr : IsScoped r program) (hname : name.toList = arrayName r.next)
    (hstem : isTypeName stem = true) (item : Shape) (hes : ∀ e ∈ es, Uses (program ++ more) e) :
    Continues r ⟨r'.statements ++ allocation name (stem ++ brackets item) es.length
        :: assignments name 0 es, r'.next⟩ program
      (more ++ .declare stem ⟨item, arrayName r.next, es.length⟩
        :: assigned (arrayName r.next) es) where
  isScoped := by
    rw [← List.append_assoc]
    refine ⟨?_, ?_, fun x hx => ?_⟩
    · rw [List.map_append, h.isScoped.reads, map_readStatement_array hname hstem,
        ← List.map_append]
    · exact h.isScoped.wellScoped.append_array (a := ⟨item, arrayName r.next, es.length⟩)
        (isVariable_arrayName r.next) (h.not_declared hr) rfl fun e he => (hes e he).ready
    · rcases mem_declaredNames_append_array.mp hx with hx | hx
      · exact h.isScoped.taken x hx
      · exact ⟨r.next, h.next_le, hx⟩
  appends := h.appends.trans (List.prefix_append _ _)
  next_le := h.of_fresh.next_le
  fresh x hx := by
    rcases mem_declaredNames_append_array.mp hx with hx | hx
    · exact h.of_fresh.fresh x hx
    · exact ⟨r.next, le_rfl, hx⟩

/-- **An array without a length keeps the scope**, wherever its items fail. -/
lemma scopes_array (hr : IsScoped r program) (hstem : isTypeName stem = true) (item : Shape)
    {items : Rendering (List (List Char))}
    (hitems : ∀ r program, IsScoped r program →
      Scopes r program items fun program es => ∀ e ∈ es, Uses program e) :
    Scopes r program (do
        let name ← Rendering.fresh
        let es ← items
        Rendering.emit (allocation name (stem ++ brackets item) es.length :: assignments name 0 es)
        pure name.toList)
      Uses := by
  intro o r₃ hruns
  obtain ⟨name, hfresh, hname⟩ := exists_fresh r
  rw [Runs, run_bind_of_ok hfresh] at hruns
  rcases runs_bind_iff.mp hruns with ⟨fault, hfault, rfl⟩ | ⟨es, r₂, hes, hruns⟩
  · -- the number is taken, and the inner arrays in front of the fault are finished
    obtain ⟨more, hmore, -⟩ := hitems _ _ hr.fresh hfault
    exact hmore.of_fresh.of_error fault
  · obtain ⟨more, hmore, huses⟩ := hitems _ _ hr.fresh hes
    rcases runs_bind_iff.mp hruns with ⟨fault, hfault, -⟩ | ⟨⟨⟩, r₄, hemit, hpure⟩
    · cases (runs_modify_iff.mp hfault).1
    obtain ⟨-, rfl⟩ := runs_modify_iff.mp hemit
    obtain ⟨rfl, rfl⟩ := runs_pure_iff.mp hpure
    refine ⟨_, hmore.append_array hr hname hstem item (huses es rfl), fun e he => ?_⟩
    obtain rfl := Except.ok.inj he
    rw [hname, ← List.append_assoc]
    exact uses_arrayName
      (isComplete_array (program ++ more) stem (a := ⟨item, arrayName r.next, es.length⟩) rfl)

/-- A scalar is rendered without any statements. -/
lemma scopes_scalar {S : ScalarType} (hS : isTypeName S.spelling = true) {v : Value}
    (hv : Admits S.type [] v) (hr : IsScoped r program) (room : Nat) :
    Scopes r program (render (room + 1) (scalarText S.type) S.spelling v) Uses := by
  simp only [render, endsWith_scalarText, Bool.false_eq_true, if_false]
  split
  next lit hlit =>
    refine scopes_pure hr (uses_convert ?_ _ hS)
    rcases hv with hv | ⟨fault, hfault⟩
    · exact (literalText_of_isScalar hv hlit).uses
    · rw [hfault] at hlit
      cases hlit
  next => exact scopes_throw hr _

/-- **Rendering keeps the scope**, whether it succeeds or fails, and what it gives refers to
complete variables only. -/
theorem scopes_render {S : ScalarType} (hS : isTypeName S.spelling = true) {shape : Shape}
    {room : Nat} {v : Value} (hv : Admits S.type shape v) (hr : IsScoped r program) :
    Scopes r program
      (render room (scalarText S.type ++ brackets shape) (S.spelling ++ brackets shape) v)
      Uses := by
  induction shape generalizing room v r program with
  | nil =>
    rw [brackets_nil, List.append_nil, List.append_nil]
    cases room with
    | zero => exact scopes_throw hr _
    | succ room => exact scopes_scalar hS hv hr room
  | cons d item ih =>
    cases room with
    | zero => exact scopes_throw hr _
    | succ room =>
      obtain ⟨step, hstep⟩ : ∃ step, step = render room
        (scalarText S.type ++ brackets item) (S.spelling ++ brackets item) := ⟨_, rfl⟩
      have hitems : ∀ r program, IsScoped r program →
          Scopes r program (itemsOf v >>= fun vs => renderAll step vs)
            fun program es => ∀ e ∈ es, Uses program e := by
        intro r program hr
        refine scopes_items (fun vs hvs u hu r program hr => ?_) hr
        rw [hstep]
        exact ih (hv vs hvs u hu) hr
      have hassoc : ∀ next : List (List Char) → Rendering (List Char),
          (itemsOf v >>= fun vs => renderAll step vs >>= next)
            = (itemsOf v >>= fun vs => renderAll step vs) >>= next :=
        fun next => (bind_assoc _ _ _).symm
      simp only [render, brackets_cons, ← List.append_assoc, endsWith_append_dim, if_true,
        elementText?_append_dim, ← hstep, hassoc]
      cases d with
      | none =>
        rw [endsWith_open, if_pos rfl]
        exact scopes_array hr hS item hitems
      | some n =>
        rw [endsWith_sized, if_neg (by simp)]
        refine (hitems r program hr).bind fun es r' more hmore hes => ?_
        exact scopes_pure hmore.isScoped (uses_inlineArray hS item hes)

end Arrays

/-! ## Calls -/

/-- A value to render, with the two texts of its type and the room that there is for it. -/
structure Call where
  room : Nat
  abiType : List Char
  solType : List Char
  value : Value

namespace Call

/-- What a call comes to, and the renderer that it leaves behind. -/
def run (c : Call) (r : Renderer) : Except LiteralFault (List Char) × Renderer :=
  (render c.room c.abiType c.solType c.value).run.run r

/-- The two texts are those of a basic type and of a name for it, with the same brackets around, and
all scalars in the value are of the basic type or have no literal of it. -/
def IsAdmissible (c : Call) : Prop :=
  ∃ (S : ScalarType) (shape : Shape), isTypeName S.spelling = true ∧
    c.abiType = scalarText S.type ++ brackets shape ∧ c.solType = S.spelling ++ brackets shape ∧
    Admits S.type shape c.value

end Call

/-- The renderer behind calls in a row, whatever they come to. -/
def afterCalls (calls : List Call) : Renderer :=
  calls.foldl (fun r c => (c.run r).2) {}

lemma isDotted_of_isIdentifier {cs : List Char} (h : isIdentifier cs = true) :
    isDotted cs = true := by
  have hdot : '.' ∉ cs := fun hmem => absurd (isNameChar_of_isIdentifier h '.' hmem) (by decide)
  rw [isDotted, splitOn_of_not_mem hdot]
  simpa using h

/-- An ordinary type is declared by a name. -/
lemma isTypeName_of_represents {T : TypeName} {S : ScalarType} {shape : Shape}
    (h : Represents T S shape) (hT : IsOrdinary T) : isTypeName S.spelling = true := by
  induction h with
  | @scalar T S h hspelling =>
    cases T with
    | elementary name =>
      rw [TypeName.spelling] at hspelling
      split at hspelling
      next hname =>
        have hspelled : name.toList = S.spelling := Except.ok.inj hspelling
        rw [← hspelled, hname, isTypeName, beq_self_eq_true, Bool.true_or]
      next hname =>
        have hspelled : (TypeName.expand name).toList = S.spelling := Except.ok.inj hspelling
        have hdotted := isDotted_of_isIdentifier (isIdentifier_expand (hT.resolve_left hname))
        rw [← hspelled, isTypeName, hdotted, Bool.or_true]
    | named name typeString =>
      have htext : typeText 1 (.named name typeString) = .ok (scalarText S.type) :=
        typeText_of_declaresScalar h
      have hdotted := hT _ _ _ _ htext hspelling
      rw [isTypeName, hdotted, Bool.or_true]
    | array base length =>
      cases h with
      | basic h => cases h
    | mapping key value =>
      cases h with
      | basic h => cases h
  | array _ ih => exact ih hT
  | sized _ ih => exact ih hT

/-- The texts of a declared type are admissible. -/
lemma isAdmissible_of_represents {T : TypeName} {S : ScalarType} {shape : Shape}
    {described spelled : Nat} {abi sol : List Char} {v : Value} (h : Represents T S shape)
    (hT : IsOrdinary T) (habi : typeText described T = .ok abi)
    (hsol : T.spelling spelled = .ok sol) (hv : Admits S.type shape v) (room : Nat) :
    Call.IsAdmissible ⟨room, abi, sol, v⟩ := by
  obtain ⟨rfl, rfl⟩ := texts_of_represents h habi hsol
  exact ⟨S, shape, isTypeName_of_represents h hT, rfl, rfl, hv⟩

/-- A call continues a renderer. -/
lemma continues_of_isAdmissible {r : Renderer} {program : List Statement} {c : Call}
    (hc : c.IsAdmissible) (hr : IsScoped r program) :
    ∃ more, Continues r (c.run r).2 program more ∧
      ∀ expr, (c.run r).1 = .ok expr → Uses (program ++ more) expr := by
  obtain ⟨S, shape, hS, habi, hsol, hv⟩ := hc
  have hruns : Runs (render c.room c.abiType c.solType c.value) r (c.run r).1 (c.run r).2 := rfl
  rw [habi, hsol] at hruns
  exact scopes_render hS hv hr hruns

lemma afterCalls_concat (calls : List Call) (c : Call) :
    afterCalls (calls ++ [c]) = (c.run (afterCalls calls)).2 := by
  rw [afterCalls, List.foldl_concat, afterCalls]

lemma isScoped_nil : IsScoped {} [] where
  reads := rfl
  wellScoped := wellScoped_nil
  taken x hx := by simp [declaredNames] at hx

/-- Calls in a row keep the scope. -/
lemma exists_isScoped_afterCalls {calls : List Call} (h : ∀ c ∈ calls, c.IsAdmissible) :
    ∃ program, IsScoped (afterCalls calls) program := by
  induction calls using List.reverseRecOn with
  | nil => exact ⟨[], isScoped_nil⟩
  | append_singleton calls c ih =>
    obtain ⟨hcalls, hc⟩ := List.forall_mem_append.mp h
    obtain ⟨program, hprogram⟩ := ih hcalls
    obtain ⟨more, hmore, -⟩ := continues_of_isAdmissible (hc c List.mem_cons_self) hprogram
    rw [afterCalls_concat]
    exact ⟨program ++ more, hmore.isScoped⟩

/-- **A renderer stays well scoped over any calls**, whether they succeed or fail midway.  The last
of them only adds statements at the end, like every one before it.  All statements together are a
well scoped program, and what the call returns refers to complete variables of it. -/
theorem statements_wellScoped (calls : List Call) (call : Call)
    (hcalls : ∀ c ∈ calls ++ [call], c.IsAdmissible) :
    (afterCalls calls).statements <+: (afterCalls (calls ++ [call])).statements ∧
      ∃ program, (afterCalls (calls ++ [call])).statements.map (fun s => readStatement s.toList)
          = program.map some ∧ WellScoped program ∧
        ∀ expr, (call.run (afterCalls calls)).1 = .ok expr → Ready program expr := by
  obtain ⟨hbefore, hcall⟩ := List.forall_mem_append.mp hcalls
  obtain ⟨program, hprogram⟩ := exists_isScoped_afterCalls hbefore
  obtain ⟨more, hmore, huses⟩ := continues_of_isAdmissible (hcall call List.mem_cons_self) hprogram
  rw [afterCalls_concat]
  exact ⟨hmore.appends, program ++ more, hmore.isScoped.reads, hmore.isScoped.wellScoped,
    fun expr hexpr => (huses expr hexpr).ready⟩

/-- Numbers with a text among them, and modes behind that.  An inner array is finished before the
fault, and the numbers of the other two are lost. -/
theorem statements_wellScoped_modes :
    (Call.run ⟨3, "uint8[][]".toList, "uint8[][]".toList,
        .tuple [.tuple [.int 1], .tuple [.text "x"]]⟩ {}).1.isOk = false ∧
      (afterCalls [⟨3, "uint8[][]".toList, "uint8[][]".toList,
          .tuple [.tuple [.int 1], .tuple [.text "x"]]⟩,
        ⟨2, "uint8[]".toList, "Token.Mode[]".toList, .tuple [.int 2]⟩]).statements
        = ["uint8[] memory ctorArg1 = new uint8[](1);", "ctorArg1[0] = 1;",
          "Token.Mode[] memory ctorArg3 = new Token.Mode[](1);", "ctorArg3[0] = Token.Mode(2);"] ∧
      ∃ program, program.length = 4 ∧ WellScoped program ∧ Ready program "ctorArg3".toList := by
  have hfault : ∃ fault, literal (.text "x") (scalarText (.unsigned 8)) = .error fault := by
    have htext : scalarText (.unsigned 8) = "uint8".toList := by decide +kernel
    rw [htext]
    exact ⟨_, rfl⟩
  have hmixed : Call.IsAdmissible ⟨3, "uint8[][]".toList, "uint8[][]".toList,
      .tuple [.tuple [.int 1], .tuple [.text "x"]]⟩ := by
    refine isAdmissible_of_represents (represents_openArrays 2) (.inr (by decide))
      (typeText_openArrays 0 2) (spelling_openArrays 2) ?_ 3
    simp [Admits, items?, IsScalar, hfault]
  have hmode : Represents (.named "Mode" "enum Token.Mode")
      ⟨"Token.Mode".toList, .unsigned (8 * 1)⟩ [] :=
    .scalar (.basic (.enum (by decide +kernel))) (by decide +kernel)
  have hmodes : Call.IsAdmissible ⟨2, "uint8[]".toList, "Token.Mode[]".toList,
      .tuple [.int 2]⟩ := by
    have hordinary : IsOrdinary (.named "Mode" "enum Token.Mode") := by
      rintro described spelled abi sol - hsol
      cases spelled with
      | zero => cases hsol
      | succ spelled =>
        obtain rfl : "Token.Mode".toList = sol := Except.ok.inj hsol
        decide +kernel
    have htext : typeText 1 (.array (.named "Mode" "enum Token.Mode") .dynamic)
        = .ok "uint8[]".toList := by decide +kernel
    have hspelling : TypeName.spelling 2 (.array (.named "Mode" "enum Token.Mode") .dynamic)
        = .ok "Token.Mode[]".toList := by decide +kernel
    refine isAdmissible_of_represents (.array hmode) hordinary htext hspelling ?_ 2
    simp [Admits, items?, IsScalar]
  obtain ⟨-, program, hreads, hscoped, hready⟩ := statements_wellScoped [_] _
    (List.forall_mem_cons.mpr ⟨hmixed, List.forall_mem_singleton.mpr hmodes⟩)
  refine ⟨by decide +kernel, by decide +kernel, program, ?_, hscoped, hready _ (by decide +kernel)⟩
  have hlength := congrArg List.length hreads
  rw [List.length_map, List.length_map] at hlength
  rw [← hlength]
  decide +kernel

end HoneypotAudit.Solidity
