import HoneypotAudit.Proofs.Abi.Declared
import HoneypotAudit.Proofs.Solidity.Denotation

/-!
# Arguments of declared types

`Represents` relates a declared type to the scalar type at its stem and the dimensions around it.
A value of a declared type is rendered for the two texts of the type, its ABI type and its spelling.
Executed in a memory where its variables are new, the statements that this adds make the expression
denote the value (`render_denotes`).

Arrays can be nested only as deep as there is room for.  This is about the value and not its type:
an array that is empty ends the nesting (`deep_value_not_rendered`).  For what was decoded it is
enough that there is room for the type (`renders_of_declares`).
-/

namespace HoneypotAudit.Solidity

open HoneypotAudit.Text HoneypotAudit.Abi HoneypotAudit.Abi.TypeText HoneypotAudit.Outcome

/-! ## Declared types -/

/-- A declared type that is no array stands for a basic ABI type, which may be one of fixed-point
numbers. -/
inductive DeclaresScalar : TypeName → AbiType → Prop
  | basic {T : TypeName} {t : AbiType} (h : DeclaresBasic T t) : DeclaresScalar T t
  | fixed : DeclaresScalar (.elementary "fixed") (.signedFixed 128 18)
  | ufixed : DeclaresScalar (.elementary "ufixed") (.unsignedFixed 128 18)
  | fixedSized {size places : Nat} (hsize : 0 < size ∧ size ≤ wordSize) (hplaces : places ≤ 80) :
      DeclaresScalar
        (.elementary (String.ofList (scalarText (.signedFixed (8 * size) places))))
        (.signedFixed (8 * size) places)
  | ufixedSized {size places : Nat} (hsize : 0 < size ∧ size ≤ wordSize) (hplaces : places ≤ 80) :
      DeclaresScalar
        (.elementary (String.ofList (scalarText (.unsignedFixed (8 * size) places))))
        (.unsignedFixed (8 * size) places)

/-- A declared type has a scalar type at its stem, and dimensions around it. -/
inductive Represents : TypeName → ScalarType → Shape → Prop
  | scalar {T : TypeName} {S : ScalarType} (h : DeclaresScalar T S.type)
      (hspelling : T.spelling 1 = .ok S.spelling) : Represents T S []
  | array {base : TypeName} {S : ScalarType} {shape : Shape} (h : Represents base S shape) :
      Represents (.array base .dynamic) S (none :: shape)
  | sized {base : TypeName} {S : ScalarType} {shape : Shape} {n : Nat}
      (h : Represents base S shape) : Represents (.array base (.fixed n)) S (some n :: shape)

lemma expand_ofList_scalarText {t : AbiType} {n : Nat} (h : decimal n ⊆ scalarText t) :
    TypeName.expand (String.ofList (scalarText t)) = String.ofList (scalarText t) := by
  obtain ⟨c, cs, hcs⟩ := List.exists_cons_of_ne_nil (decimal_ne_nil n)
  have hmem : c ∈ decimal n := by simp [hcs]
  have hname : c ∈ (String.ofList (scalarText t)).toList := by
    rw [String.toList_ofList]
    exact h hmem
  exact expand_of_digit hname (isAsciiDigit_of_mem_decimal hmem)

section Texts

variable {described : Nat}

lemma typeText_of_declaresBasic {T : TypeName} {t : AbiType} (h : DeclaresBasic T t) :
    typeText described T = .ok (scalarText t) := by
  cases h with
  | bool => rfl
  | address => rfl
  | addressPayable => rfl
  | uint =>
    refine typeText_elementary ?_ _
    decide +kernel
  | uintSized hpos hsize => exact typeText_sizedName "uint" _ _
  | int =>
    refine typeText_elementary ?_ _
    decide +kernel
  | intSized hpos hsize => exact typeText_sizedName "int" _ _
  | byte =>
    refine typeText_elementary ?_ _
    decide +kernel
  | bytesSized hpos hsize => exact typeText_sizedName "bytes" _ _
  | bytes => rfl
  | string => rfl
  | contract hkind =>
    show leafText _ _ = _
    rw [leafText, if_pos hkind]
    rfl
  | enum hkind =>
    show leafText _ _ = _
    have hdigits : decimal (8 * 1) = ['8'] := by decide +kernel
    simp [leafText, hkind, scalarText, scalarName, sizeText, hdigits]

/-- **The ABI type text of a declared type that is no array** is that of its basic type. -/
lemma typeText_of_declaresScalar {T : TypeName} {t : AbiType} (h : DeclaresScalar T t) :
    typeText described T = .ok (scalarText t) := by
  cases h with
  | basic h => exact typeText_of_declaresBasic h
  | fixed =>
    refine typeText_elementary ?_ _
    decide +kernel
  | ufixed =>
    refine typeText_elementary ?_ _
    decide +kernel
  | @fixedSized size places hsize hplaces =>
    have hdigits : decimal places ⊆ scalarText (.signedFixed (8 * size) places) := by
      intro c hc
      simp [scalarText, scalarName, sizeText, hc]
    show Except.ok _ = _
    rw [expand_ofList_scalarText hdigits, String.toList_ofList]
  | @ufixedSized size places hsize hplaces =>
    have hdigits : decimal places ⊆ scalarText (.unsignedFixed (8 * size) places) := by
      intro c hc
      simp [scalarText, scalarName, sizeText, hc]
    show Except.ok _ = _
    rw [expand_ofList_scalarText hdigits, String.toList_ofList]

/-- **Both texts of a declared type** are those of its stem with the brackets of its dimensions. -/
lemma texts_of_represents {T : TypeName} {S : ScalarType} {shape : Shape} {room : Nat}
    {abi sol : List Char} (h : Represents T S shape) (habi : typeText described T = .ok abi)
    (hsol : T.spelling room = .ok sol) :
    abi = scalarText S.type ++ brackets shape ∧ sol = S.spelling ++ brackets shape := by
  induction h generalizing abi sol room with
  | scalar h hspelling =>
    obtain ⟨_, -, -, -, hspelled, -⟩ := exists_spelledLike habi
    obtain ⟨rfl, -⟩ := hspelled.eq_of_spelling hsol
    obtain ⟨rfl, -⟩ := hspelled.eq_of_spelling hspelling
    rw [typeText_of_declaresScalar h] at habi
    cases habi
    simp
  | array h ih =>
    obtain ⟨_, abiBase, solBase, habiBase, hsolBase, rfl, rfl⟩ := exists_base_texts habi hsol
    obtain ⟨rfl, rfl⟩ := ih habiBase hsolBase
    simp [ArrayLength.brackets, ArrayLength.shown?, dimText]
  | sized h ih =>
    obtain ⟨_, abiBase, solBase, habiBase, hsolBase, rfl, rfl⟩ := exists_base_texts habi hsol
    obtain ⟨rfl, rfl⟩ := ih habiBase hsolBase
    simp [ArrayLength.brackets, ArrayLength.shown?, dimText, signedDecimal]

end Texts

/-! ## What arguments denote -/

/-- Statements that run in a memory allocate new arrays and fill all their slots, leave all else as
it is, and make an expression denote a value. -/
structure Builds (S : ScalarType) (shape : Shape) (mem : Memory) (added : List String)
    (expr : List Char) (v : Value) (mem' : Memory) : Prop where
  runs : execute S mem added = some mem'
  denotes : evaluate S mem' shape expr = some v
  filled : ∀ x a, mem x = none → mem' x = some a → a.isFilled = true
  kept : ∀ x a, mem x = some a → mem' x = some a

lemma Denotes.evaluate {S : ScalarType} {shape : Shape} {mem : Memory} {expr : List Char}
    {v : Value} (h : Denotes S shape mem expr v) : Solidity.evaluate S mem shape expr = some v := by
  have hvalue := h.value [] (by simp [Ends])
  rw [List.append_nil] at hvalue
  simp [Solidity.evaluate, hvalue]

/-- A rendering step that yields what denotes a value builds the value. -/
lemma Yields.exists_builds {S : ScalarType} {shape : Shape} {first last : Nat}
    {added : List String} {expr : List Char} {v : Value}
    (h : Yields S first last added fun mem => Denotes S shape mem expr v) {mem : Memory}
    (hmem : IsFresh first mem) :
    ∃ mem', Builds S shape mem added expr v mem' ∧ IsFresh last mem' := by
  obtain ⟨mem', hexecute, hextends, hdenotes⟩ := h.runs mem hmem
  refine ⟨mem', ⟨hexecute, (hdenotes mem' fun i _ _ => rfl).evaluate, fun x a hnone hsome => ?_,
    fun x a hsome => ?_⟩, hextends.isFresh hmem h.le⟩
  · by_contra hunfilled
    have hx : ∀ i, first ≤ i → i < last → x ≠ arrayName i := by
      rintro i hfirst hlast rfl
      obtain ⟨b, hb, hfilled⟩ := hextends.filled i hfirst hlast
      rw [hb] at hsome
      cases hsome
      exact hunfilled hfilled
    rw [hextends.kept x hx, hnone] at hsome
    cases hsome
  · have hx : ∀ i, first ≤ i → i < last → x ≠ arrayName i := by
      rintro i hfirst hlast rfl
      rw [hmem i hfirst] at hsome
      cases hsome
    rw [hextends.kept x hx, hsome]

/-- The brackets of a shape are those of its dimensions, the innermost first. -/
lemma brackets_eq_flatMap (shape : Shape) : brackets shape = shape.reverse.flatMap dimText := by
  induction shape with
  | nil => rfl
  | cons d shape ih => rw [brackets_cons, ih, List.reverse_cons, List.flatMap_append,
      List.flatMap_singleton]

/-- A value of an array type has items with literals, as deep as the type has dimensions. -/
lemma IsValue.isNested {t : AbiType} {shape : Shape} {v : Value} (h : IsValue t shape v) :
    IsNested (HasLiteral (scalarText t)) shape.length v := by
  induction shape generalizing v with
  | nil =>
    obtain ⟨lit, hlit⟩ := exists_literalFor h
    exact ⟨lit, hlit.written⟩
  | cons d item ih =>
    obtain ⟨vs, rfl, -, hvs⟩ := h.exists_items
    exact fun u hu => ih (hvs u hu)

/-- A value is not rendered if there is no room for its levels. -/
lemma stops_render_of_isValue {S : ScalarType} {shape : Shape} {room : Nat} {v : Value}
    (hv : IsValue S.type shape v) (hroom : room < levels shape.length v) :
    Stops (render room (scalarText S.type ++ brackets shape) (S.spelling ++ brackets shape) v) := by
  have hlength : shape.reverse.length = shape.length := List.length_reverse
  rw [brackets_eq_flatMap]
  exact stops_render_of_lt_levels (endsWith_scalarText S.type) (hlength ▸ hv.isNested)
    (hlength ▸ hroom)

section Denotes

variable {described spelled : Nat} {T : TypeName} {S : ScalarType} {shape : Shape}
  {abi sol : List Char} {v : Value}

/-- **Rendered arguments denote their values.**  A value of a declared type is rendered from every
renderer just if there is room for its levels.  The statements that this adds then run in every
memory in which no variable from the number of the renderer on is declared, and build the value. -/
theorem render_denotes (hT : Represents T S shape) (habi : typeText described T = .ok abi)
    (hsol : T.spelling spelled = .ok sol) (hv : IsValue S.type shape v) (room : Nat)
    (r : Renderer) :
    ((∃ expr r', (render room abi sol v).run.run r = (.ok expr, r')) ↔
      levels shape.length v ≤ room) ∧
    ∀ expr r', (render room abi sol v).run.run r = (.ok expr, r') →
      ∃ added, r'.statements = r.statements ++ added ∧ ∀ mem, IsFresh r.next mem →
        ∃ mem', Builds S shape mem added expr v mem' ∧ IsFresh r'.next mem' := by
  obtain ⟨rfl, rfl⟩ := texts_of_represents hT habi hsol
  rcases Nat.lt_or_ge room (levels shape.length v) with hlt | hle
  · obtain ⟨r', hstop⟩ := stops_render_of_isValue hv hlt r
    have hnot : ∀ expr r'', (render room (scalarText S.type ++ brackets shape)
        (S.spelling ++ brackets shape) v).run.run r ≠ (.ok expr, r'') := by
      intro expr r'' hrun
      cases hstop.symm.trans hrun
    refine ⟨iff_of_false ?_ (Nat.not_le.mpr hlt), fun expr r'' hrun => absurd hrun (hnot expr r'')⟩
    rintro ⟨expr, r'', hrun⟩
    exact hnot expr r'' hrun
  · obtain ⟨expr, last, added, hrun, hyields⟩ := renders_render hv hle r
    refine ⟨iff_of_true ⟨expr, _, hrun⟩ hle, fun expr' r' hrun' => ?_⟩
    cases hrun.symm.trans hrun'
    exact ⟨added, rfl, fun mem hmem => hyields.exists_builds hmem⟩

end Denotes

/-- The modes of a token, in arrays of two: there has to be room for three levels. -/
theorem render_denotes_modes :
    Represents (.array (.array (.named "Mode" "enum Token.Mode") (.fixed 2)) .dynamic)
        ⟨"Token.Mode".toList, .unsigned (8 * 1)⟩ [none, some 2] ∧
      typeText 1 (.array (.array (.named "Mode" "enum Token.Mode") (.fixed 2)) .dynamic)
        = .ok "uint8[2][]".toList ∧
      (TypeName.array (.array (.named "Mode" "enum Token.Mode") (.fixed 2)) .dynamic).spelling 3
        = .ok "Token.Mode[2][]".toList ∧
      IsValue (.unsigned (8 * 1)) [none, some 2] (.tuple [.tuple [.int 1, .int 2]]) ∧
      levels 2 (.tuple [.tuple [.int 1, .int 2]]) = 3 ∧
      ∃ expr r', (render 3 "uint8[2][]".toList "Token.Mode[2][]".toList
          (.tuple [.tuple [.int 1, .int 2]])).run.run ⟨[], 3⟩ = (.ok expr, r') ∧
        ∃ added, r'.statements = [] ++ added ∧ ∀ mem, IsFresh 3 mem → ∃ mem',
          Builds ⟨"Token.Mode".toList, .unsigned (8 * 1)⟩ [none, some 2] mem added expr
            (.tuple [.tuple [.int 1, .int 2]]) mem' ∧ IsFresh r'.next mem' := by
  have hscalar : DeclaresScalar (.named "Mode" "enum Token.Mode") (.unsigned (8 * 1)) :=
    .basic (.enum (by decide +kernel))
  have hT : Represents (.array (.array (.named "Mode" "enum Token.Mode") (.fixed 2)) .dynamic)
      ⟨"Token.Mode".toList, .unsigned (8 * 1)⟩ [none, some 2] :=
    .array (.sized (n := 2) (.scalar hscalar (by decide +kernel)))
  have habi : typeText 1 (.array (.array (.named "Mode" "enum Token.Mode") (.fixed 2)) .dynamic)
      = .ok "uint8[2][]".toList := by decide +kernel
  have hsol : (TypeName.array (.array (.named "Mode" "enum Token.Mode") (.fixed 2))
      .dynamic).spelling 3 = .ok "Token.Mode[2][]".toList := by decide +kernel
  have hv : IsValue (.unsigned (8 * 1)) [none, some 2] (.tuple [.tuple [.int 1, .int 2]]) := by
    simp [IsValue, IsScalar]
  have hlevels : levels 2 (.tuple [.tuple [.int 1, .int 2]]) = 3 := by decide
  obtain ⟨hreturns, hdenotes⟩ := render_denotes hT habi hsol hv 3 ⟨[], 3⟩
  obtain ⟨expr, r', hrun⟩ := hreturns.mpr hlevels.le
  exact ⟨hT, habi, hsol, hv, hlevels, expr, r', hrun, hdenotes expr r' hrun⟩

/-! ## Decoded values -/

lemma isScalar_of_fits {T : TypeName} {t : AbiType} {v : Value} (hT : DeclaresBasic T t)
    (hv : Fits t v) : IsScalar t v := by
  have hsize : ∀ size, t = .fixedBytes size → size ≤ wordSize := by
    rintro size rfl
    cases hT with
    | byte => decide
    | bytesSized _ hsize => exact hsize
  cases t with
  | fixedBytes size =>
    cases v with
    | bytes bs =>
      have hlength : bs.length = min size wordSize := hv
      exact hlength.trans (Nat.min_eq_left (hsize size rfl))
    | _ => exact hv.elim
  | unsignedFixed bits places => cases hT
  | signedFixed bits places => cases hT
  | array item => cases hT
  | sized item n => cases hT
  | tuple items => cases hT
  | _ => cases v <;> exact hv

/-- A value has one level more than its type has dimensions, at most. -/
lemma levels_le (dims : Nat) (v : Value) : levels dims v ≤ dims + 1 := by
  induction dims generalizing v with
  | zero => exact (levels_zero v).le
  | succ dims ih =>
    cases v with
    | tuple vs => exact levels_succ_le_iff.mpr fun u _ => ih u
    | _ => exact Nat.succ_le_succ (Nat.zero_le _)

/-- What fits a declared type is a value of the type at its stem with the dimensions around it. -/
lemma exists_represents_of_declares {T : TypeName} {t : AbiType} (h : Declares T t) :
    ∃ S shape, Represents T S shape ∧ shape.length + 1 = T.depth ∧
      ∀ v, Fits t v → IsValue S.type shape v := by
  induction h with
  | @basic T t h =>
    have htext : typeText 1 T = .ok (scalarText t) := typeText_of_declaresBasic h
    obtain ⟨sol, -, -, -, hsol, -⟩ := exists_spelledLike htext
    have hdepth : T.depth = 1 := by cases h <;> rfl
    have hspelling : T.spelling 1 = .ok sol := by rw [hsol, hdepth, if_pos le_rfl]
    exact ⟨⟨sol, t⟩, [], .scalar (.basic h) hspelling, hdepth.symm, fun v hv =>
      isScalar_of_fits h hv⟩
  | array h ih =>
    obtain ⟨S, shape, hbase, hdepth, hvalues⟩ := ih
    refine ⟨S, none :: shape, .array hbase, congrArg (· + 1) hdepth, fun v hv => ?_⟩
    cases v with
    | tuple vs => exact fun u hu => hvalues u (hv u hu)
    | _ => exact hv.elim
  | @sized base item n hn h ih =>
    obtain ⟨S, shape, hbase, hdepth, hvalues⟩ := ih
    refine ⟨S, some n :: shape, .sized hbase, congrArg (· + 1) hdepth, fun v hv => ?_⟩
    cases v with
    | tuple vs => exact ⟨hv.1, fun u hu => hvalues u (hv.2 u hu)⟩
    | _ => exact hv.elim

/-- **What was decoded is rendered as what denotes it**, where there is room for its type. -/
theorem renders_of_declares {rooms : Rooms} {T : TypeName} {t : AbiType} {v : Value}
    (hT : Declares T t) (hlimits : WithinLimits rooms T) (hv : Fits t v) {room : Nat}
    (hroom : T.depth ≤ room) :
    ∃ S shape abi sol, Represents T S shape ∧ typeText rooms.described T = .ok abi ∧
      T.spelling room = .ok sol ∧
        Renders S (render room abi sol v) fun expr mem => Denotes S shape mem expr v := by
  obtain ⟨S, shape, hrepresents, hdepth, hvalues⟩ := exists_represents_of_declares hT
  obtain ⟨abi, habi, -⟩ := exists_typeText_of_withinLimits hT hlimits rooms.described
  obtain ⟨sol, -, -, -, hsol, -⟩ := exists_spelledLike habi
  have hspelling : T.spelling room = .ok sol := by rw [hsol, if_pos hroom]
  refine ⟨S, shape, abi, sol, hrepresents, habi, hspelling, ?_⟩
  obtain ⟨rfl, rfl⟩ := texts_of_represents hrepresents habi hspelling
  exact renders_render (hvalues v hv) ((levels_le _ v).trans (hdepth.trans_le hroom))

/-! ## Values with too many levels -/

/-- So many open arrays around numbers of one byte. -/
def openArrays : Nat → TypeName
  | 0 => .elementary "uint8"
  | n + 1 => .array (openArrays n) .dynamic

/-- A zero in so many arrays of one item. -/
def nestedZero : Nat → Value
  | 0 => .int 0
  | n + 1 => .tuple [nestedZero n]

lemma represents_openArrays (n : Nat) :
    Represents (openArrays n) ⟨"uint8".toList, .unsigned 8⟩ (List.replicate n none) := by
  induction n with
  | zero =>
    have hname : "uint8" = sizedName "uint" (8 * 1) := by decide +kernel
    have hbasic : DeclaresBasic (.elementary (sizedName "uint" (8 * 1))) (.unsigned (8 * 1)) :=
      .uintSized (by decide) (by decide)
    rw [← hname] at hbasic
    exact .scalar (.basic hbasic) (by decide +kernel)
  | succ n ih => exact .array ih

lemma typeText_openArrays (described n : Nat) :
    typeText described (openArrays n)
      = .ok ("uint8".toList ++ brackets (List.replicate n none)) := by
  induction n with
  | zero => exact typeText_elementary (by decide +kernel) _
  | succ n ih =>
    rw [openArrays, typeText, ih, List.replicate_succ, brackets_cons, ← List.append_assoc]
    rfl

lemma spelling_openArrays (n : Nat) : (openArrays n).spelling (n + 1)
    = .ok ("uint8".toList ++ brackets (List.replicate n none)) := by
  induction n with
  | zero => decide +kernel
  | succ n ih =>
    rw [openArrays, TypeName.spelling, ih, List.replicate_succ, brackets_cons, ← List.append_assoc]
    rfl

lemma isValue_nestedZero (n : Nat) :
    IsValue (.unsigned 8) (List.replicate n none) (nestedZero n) := by
  induction n with
  | zero => simp [IsValue, IsScalar, nestedZero]
  | succ n ih => simpa [List.replicate_succ, IsValue, nestedZero] using ih

lemma levels_nestedZero (n : Nat) : levels n (nestedZero n) = n + 1 := by
  induction n with
  | zero => rfl
  | succ n ih => simp [nestedZero, levels, ih]

/-- However much room there is for rendering, a zero in as many arrays is a value of its type that
is not rendered. -/
theorem deep_value_not_rendered :
    ¬∃ room, ∀ (described spelled : Nat) (T : TypeName) (S : ScalarType) (shape : Shape)
      (abi sol : List Char) (v : Value) (r : Renderer), Represents T S shape →
      typeText described T = .ok abi → T.spelling spelled = .ok sol → IsValue S.type shape v →
      ∃ expr r', (render room abi sol v).run.run r = (.ok expr, r') := by
  rintro ⟨room, hall⟩
  obtain ⟨expr, r', hrun⟩ := hall 0 _ _ _ _ _ _ _ {} (represents_openArrays room)
    (typeText_openArrays 0 room) (spelling_openArrays room) (isValue_nestedZero room)
  have htext : scalarText (.unsigned 8) = "uint8".toList := by decide +kernel
  have hlevels : room < levels (List.replicate room none : Shape).length (nestedZero room) := by
    rw [List.length_replicate, levels_nestedZero]
    exact Nat.lt_succ_self room
  obtain ⟨r'', hstop⟩ := stops_render_of_isValue (S := ⟨"uint8".toList, .unsigned 8⟩)
    (isValue_nestedZero room) hlevels {}
  rw [htext] at hstop
  cases hrun.symm.trans hstop

end HoneypotAudit.Solidity
