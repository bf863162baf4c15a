import HoneypotAudit.Abi.Signature
import HoneypotAudit.Proofs.Abi.Fits
import HoneypotAudit.Proofs.Abi.Resolution
import HoneypotAudit.Solidity.Argument

/-!
# Rendering succeeds

A value that fits the type that a text stands for is rendered, whatever was rendered before it, if
there is room for its levels (`succeeds_render`); otherwise rendering stops (`stops_render`).  The
declared type does not have to be the same text: it is enough that both texts end in the same
dimensions, since rendering an array takes the last brackets off both.

At the stem there is a literal to write (`exists_literal`).  Every kind of value comes with the
texts that it is written for, and no other rule of the literal applies to them.
-/

namespace HoneypotAudit.Solidity

open HoneypotAudit.Text HoneypotAudit.Abi HoneypotAudit.Abi.TypeText HoneypotAudit.Outcome

/-! ## Steps that succeed and steps that stop -/

section Steps

variable {α β : Type}

/-- A rendering step gives something, whatever was rendered before. -/
def Succeeds (step : Rendering α) : Prop :=
  ∀ r, ∃ a r', step.run.run r = (.ok a, r')

/-- A rendering step stops at a value that is nested too deep, whatever was rendered before. -/
def Stops (step : Rendering α) : Prop :=
  ∀ r, ∃ r', step.run.run r = (.error .tooDeep, r')

lemma run_bind_of_ok {step : Rendering α} {next : α → Rendering β} {r r' : Renderer} {a : α}
    (h : step.run.run r = (.ok a, r')) : (step >>= next).run.run r = (next a).run.run r' := by
  rw [ExceptT.run_bind, StateT.run_bind, h]
  rfl

lemma run_bind_of_error {step : Rendering α} {next : α → Rendering β} {r r' : Renderer}
    {fault : LiteralFault} (h : step.run.run r = (.error fault, r')) :
    (step >>= next).run.run r = (.error fault, r') := by
  rw [ExceptT.run_bind, StateT.run_bind, h]
  rfl

lemma succeeds_pure (a : α) : Succeeds (pure a) :=
  fun r => ⟨a, r, rfl⟩

lemma succeeds_bind {step : Rendering α} {next : α → Rendering β} (hstep : Succeeds step)
    (hnext : ∀ a, Succeeds (next a)) : Succeeds (step >>= next) := by
  intro r
  obtain ⟨a, r', ha⟩ := hstep r
  obtain ⟨b, r'', hb⟩ := hnext a r'
  exact ⟨b, r'', (run_bind_of_ok ha).trans hb⟩

lemma succeeds_fresh : Succeeds Rendering.fresh :=
  fun _ => ⟨_, _, rfl⟩

lemma succeeds_emit (lines : List String) : Succeeds (Rendering.emit lines) :=
  fun _ => ⟨_, _, rfl⟩

lemma succeeds_renderAll {render : Value → Rendering (List Char)} {vs : List Value}
    (h : ∀ v ∈ vs, Succeeds (render v)) : Succeeds (renderAll render vs) := by
  induction vs with
  | nil => exact succeeds_pure []
  | cons v vs ih =>
    refine succeeds_bind (h v (by simp)) fun expr => ?_
    refine succeeds_bind (ih fun u hu => h u (by simp [hu])) fun exprs => ?_
    exact succeeds_pure _

lemma stops_bind_of_stops {step : Rendering α} {next : α → Rendering β} (h : Stops step) :
    Stops (step >>= next) := by
  intro r
  obtain ⟨r', hr'⟩ := h r
  exact ⟨r', run_bind_of_error hr'⟩

lemma stops_bind_of_succeeds {step : Rendering α} {next : α → Rendering β} (h : Succeeds step)
    (hnext : ∀ a, Stops (next a)) : Stops (step >>= next) := by
  intro r
  obtain ⟨a, r', ha⟩ := h r
  obtain ⟨r'', hr''⟩ := hnext a r'
  exact ⟨r'', (run_bind_of_ok ha).trans hr''⟩

/-- Rendering a list stops at the first item that stops, if none before it has another fault. -/
lemma stops_renderAll {render : Value → Rendering (List Char)} {vs : List Value}
    (h : ∀ v ∈ vs, Succeeds (render v) ∨ Stops (render v)) (hstop : ∃ v ∈ vs, Stops (render v)) :
    Stops (renderAll render vs) := by
  induction vs with
  | nil => obtain ⟨v, hv, -⟩ := hstop; cases hv
  | cons v vs ih =>
    obtain ⟨hv, hvs⟩ := List.forall_mem_cons.mp h
    rcases hv with hv | hv
    · refine stops_bind_of_succeeds hv fun expr => ?_
      obtain ⟨u, hu, hstop⟩ := hstop
      rcases List.mem_cons.mp hu with rfl | hu
      · obtain ⟨expr, r, hexpr⟩ := hv {}
        obtain ⟨r', hr'⟩ := hstop {}
        cases hexpr.symm.trans hr'
      · exact stops_bind_of_stops (ih hvs ⟨u, hu, hstop⟩)
    · exact stops_bind_of_stops hv

end Steps

/-! ## Brackets -/

/-- The last brackets begin at the last opening bracket. -/
lemma elementText?_append {body : List Char} (hbody : '[' ∉ body) (cs : List Char) :
    elementText? (cs ++ '[' :: body) = some cs := by
  rw [elementText?, cutLast?_append hbody, Option.map_some]

/-- The item type of an array type is what stands before its last brackets. -/
lemma elementText?_append_dim (cs : List Char) (d : Option Nat) :
    elementText? (cs ++ dimText d) = some cs := by
  have hbody : ∃ body, dimText d = '[' :: body ∧ '[' ∉ body := by
    cases d with
    | none => exact ⟨[']'], rfl, by decide⟩
    | some n =>
      refine ⟨decimal n ++ [']'], rfl, ?_⟩
      have hdigits : '[' ∉ decimal n := fun hmem =>
        absurd (isAsciiDigit_of_mem_decimal hmem) (by decide)
      simp [hdigits]
  obtain ⟨body, hdim, hnot⟩ := hbody
  rw [hdim, elementText?_append hnot]

lemma endsWith_append_dim (cs : List Char) (d : Option Nat) :
    endsWith [']'] (cs ++ dimText d) = true := by
  rw [endsWith, List.isSuffixOf_iff_suffix]
  cases d with
  | none => exact ⟨cs ++ ['['], by simp [dimText]⟩
  | some n => exact ⟨cs ++ '[' :: decimal n, by simp [dimText]⟩

/-! ## Levels -/

/-- How many levels a value has if its type has so many dimensions.  What is no array has one, and
so has an array without items. -/
def levels : Nat → Value → Nat
  | dims + 1, .tuple vs => (vs.map (levels dims)).foldr max 0 + 1
  | _, _ => 1

lemma levels_zero (v : Value) : levels 0 v = 1 := by
  cases v <;> rfl

lemma levels_pos (dims : Nat) (v : Value) : 0 < levels dims v := by
  unfold levels
  split <;> omega

lemma levels_succ_le_iff {dims room : Nat} {vs : List Value} :
    levels (dims + 1) (.tuple vs) ≤ room + 1 ↔ ∀ v ∈ vs, levels dims v ≤ room := by
  rw [levels, Nat.succ_le_succ_iff]
  induction vs with
  | nil => simp
  | cons v vs ih =>
    rw [List.map_cons, List.foldr_cons, Nat.max_le, ih, List.forall_mem_cons]

/-- A value is an array of so many dimensions, and its innermost items are of a kind. -/
def IsNested (kind : Value → Prop) : Nat → Value → Prop
  | 0, v => kind v
  | dims + 1, .tuple vs => ∀ v ∈ vs, IsNested kind dims v
  | _ + 1, _ => False

lemma IsNested.exists_items {kind : Value → Prop} {dims : Nat} {v : Value}
    (h : IsNested kind (dims + 1) v) : ∃ vs, v = .tuple vs ∧ ∀ u ∈ vs, IsNested kind dims u := by
  cases v with
  | tuple vs => exact ⟨vs, rfl, h⟩
  | _ => exact h.elim

/-! ## Arrays -/

/-- A value has a literal for a type text. -/
def HasLiteral (stem : List Char) (v : Value) : Prop :=
  ∃ expr, literal v stem = .ok expr

section Arrays

variable {stem sol : List Char} (hstem : endsWith [']'] stem = false)
include hstem

lemma render_stem {room : Nat} {v : Value} (hv : HasLiteral stem v) :
    Succeeds (render (room + 1) stem sol v) := by
  obtain ⟨expr, hexpr⟩ := hv
  simp only [render, hstem, Bool.false_eq_true, if_false, hexpr]
  exact succeeds_pure _

/-- **Arrays are rendered** if their innermost items have literals and there is room for their
levels. -/
theorem succeeds_render_of_levels_le {dims : List (Option Nat)} {room : Nat} {v : Value}
    (hv : IsNested (HasLiteral stem) dims.length v) (hroom : levels dims.length v ≤ room) :
    Succeeds (render room (stem ++ dims.flatMap dimText) (sol ++ dims.flatMap dimText) v) := by
  induction dims using List.reverseRecOn generalizing room v with
  | nil =>
    obtain ⟨room, rfl⟩ := Nat.exists_eq_add_one.mpr ((levels_pos _ _).trans_le hroom)
    rw [List.flatMap_nil, List.append_nil, List.append_nil]
    exact render_stem hstem hv
  | append_singleton dims d ih =>
    obtain ⟨room, rfl⟩ := Nat.exists_eq_add_one.mpr ((levels_pos _ _).trans_le hroom)
    rw [List.length_append, List.length_singleton] at hv hroom
    obtain ⟨vs, rfl, hvs⟩ := hv.exists_items
    have hlevels := levels_succ_le_iff.mp hroom
    have hitems : Succeeds (renderAll (render room (stem ++ dims.flatMap dimText)
        (sol ++ dims.flatMap dimText)) vs) :=
      succeeds_renderAll fun u hu => ih (hvs u hu) (hlevels u hu)
    rw [List.flatMap_append, List.flatMap_singleton, ← List.append_assoc, ← List.append_assoc]
    have hof : itemsOf (.tuple vs) = pure vs := rfl
    simp only [render, endsWith_append_dim, if_true, elementText?_append_dim, hof, pure_bind]
    split
    · refine succeeds_bind succeeds_fresh fun name => ?_
      refine succeeds_bind hitems fun exprs => ?_
      exact succeeds_bind (succeeds_emit _) fun _ => succeeds_pure _
    · exact succeeds_bind hitems fun exprs => succeeds_pure _

/-- **Arrays are not rendered** if there is no room for their levels. -/
theorem stops_render_of_lt_levels {dims : List (Option Nat)} {room : Nat} {v : Value}
    (hv : IsNested (HasLiteral stem) dims.length v) (hroom : room < levels dims.length v) :
    Stops (render room (stem ++ dims.flatMap dimText) (sol ++ dims.flatMap dimText) v) := by
  induction dims using List.reverseRecOn generalizing room v with
  | nil =>
    obtain rfl : room = 0 := by
      rw [List.length_nil, levels_zero] at hroom
      omega
    exact fun r => ⟨r, rfl⟩
  | append_singleton dims d ih =>
    cases room with
    | zero => exact fun r => ⟨r, rfl⟩
    | succ room =>
      rw [List.length_append, List.length_singleton] at hv hroom
      obtain ⟨vs, rfl, hvs⟩ := hv.exists_items
      have hdeep : ∃ u ∈ vs, room < levels dims.length u := by
        have hnot := mt levels_succ_le_iff.mpr (Nat.not_le.mpr hroom)
        push Not at hnot
        exact hnot
      have hitems : Stops (renderAll (render room (stem ++ dims.flatMap dimText)
          (sol ++ dims.flatMap dimText)) vs) := by
        refine stops_renderAll (fun u hu => ?_) ?_
        · rcases Nat.lt_or_ge room (levels dims.length u) with hlt | hle
          · exact .inr (ih (hvs u hu) hlt)
          · exact .inl (succeeds_render_of_levels_le hstem (hvs u hu) hle)
        · obtain ⟨u, hu, hlt⟩ := hdeep
          exact ⟨u, hu, ih (hvs u hu) hlt⟩
      rw [List.flatMap_append, List.flatMap_singleton, ← List.append_assoc, ← List.append_assoc]
      have hof : itemsOf (.tuple vs) = pure vs := rfl
      simp only [render, endsWith_append_dim, if_true, elementText?_append_dim, hof, pure_bind]
      split
      · exact stops_bind_of_succeeds succeeds_fresh fun name => stops_bind_of_stops hitems
      · exact stops_bind_of_stops hitems

end Arrays

/-! ## Values of array types -/

/-- A value of an array type has items of the item type. -/
lemma exists_items_of_fits {t : AbiType} {dims : List (Option Nat)} {d : Option Nat} {v : Value}
    (hv : Fits (withDims t (dims ++ [d])) v) :
    ∃ vs, v = .tuple vs ∧ ∀ u ∈ vs, Fits (withDims t dims) u := by
  cases d with
  | none =>
    have hv' : Fits (.array (withDims t dims)) v := by simpa [withDims] using hv
    cases v <;> simp only [Fits] at hv'
    exact ⟨_, rfl, hv'⟩
  | some n =>
    have hv' : Fits (.sized (withDims t dims) n) v := by simpa [withDims] using hv
    cases v <;> simp only [Fits] at hv'
    exact ⟨_, rfl, hv'.2⟩

/-! ## Literals -/

/-- A literal is written unless one of the rules applies whose step fails. -/
lemma exists_literal_of {v : Value} {cs : List Char}
    (haddress : cs = "address".toList → ∃ e, addressLiteral v = .ok e)
    (hint : startsWith "uint" cs = true ∨ startsWith "int" cs = true → ∃ n, integerOf v = .ok n)
    (hstring : cs = "string".toList → ∃ e, stringLiteral v = .ok e)
    (hbytes : startsWith "bytes" cs = true → ∃ bs, bytesOf v = .ok bs) :
    ∃ expr, literal v cs = .ok expr := by
  unfold literal
  split
  · exact ⟨_, rfl⟩
  split
  next h => exact haddress h
  split
  next h =>
    obtain ⟨n, hn⟩ := hint (by simpa using h)
    exact ⟨_, by rw [hn]; rfl⟩
  split
  next h => exact hstring h
  split
  next h =>
    obtain ⟨bs, hbs⟩ := hbytes (by rw [h]; decide)
    exact ⟨_, by rw [hbs]; rfl⟩
  split
  next h =>
    obtain ⟨bs, hbs⟩ := hbytes h
    exact ⟨_, by rw [hbs]; rfl⟩
  next => exact ⟨_, rfl⟩

lemma isDigit_of_mem_encode {bs : Bytes} {c : Char} (h : c ∈ Hex.encode bs) :
    Hex.isDigit c = true := by
  obtain ⟨b, -, hc⟩ := List.mem_flatMap.mp h
  have hb := b.toNat_lt
  simp only [Hex.encodeByte, List.mem_cons, List.not_mem_nil, or_false] at hc
  rcases hc with rfl | rfl
  · rw [Hex.isDigit, Hex.value?_digit (by omega), Option.isSome_some]
  · rw [Hex.isDigit, Hex.value?_digit (by omega), Option.isSome_some]

lemma length_encode (bs : Bytes) : (Hex.encode bs).length = 2 * bs.length := by
  induction bs with
  | nil => rfl
  | cons b bs ih =>
    have hsplit : Hex.encode (b :: bs) = Hex.encodeByte b ++ Hex.encode bs := rfl
    rw [hsplit, List.length_append, ih, List.length_cons, Hex.encodeByte]
    simp only [List.length_cons, List.length_nil]
    omega

/-- An address has a literal. -/
lemma exists_addressLiteral {s : String} (h : IsAddress s) :
    ∃ e, addressLiteral (.text s) = .ok e := by
  obtain ⟨bs, hlen, rfl⟩ := h
  have hdigits : (Hex.encode bs).all Hex.isDigit = true :=
    List.all_eq_true.mpr fun c hc => isDigit_of_mem_encode hc
  have hcount : ((Hex.encode bs).map Address.lowerDigit).length = Address.digitCount := by
    rw [List.length_map, length_encode, hlen]
    rfl
  simp only [addressLiteral, String.toList_ofList, Address.ofText, Hex.dropMark, hdigits, if_true,
    Address.ofDigits, hcount]
  exact ⟨_, rfl⟩

/-- Byte strings have literals, by whatever name the type is called. -/
lemma exists_literal_bytes {base : String}
    (hbase : base = "bytes" ∨ base = "function" ∨ base = "byte") (rest : List Char) (bs : Bytes) :
    ∃ expr, literal (.bytes bs) (base.toList ++ rest) = .ok expr := by
  rcases hbase with rfl | rfl | rfl
  · exact exists_literal_of (by simp) (by simp [startsWith]) (by simp) (fun _ => ⟨_, rfl⟩)
  · exact exists_literal_of (by simp) (by simp [startsWith]) (by simp) (fun _ => ⟨_, rfl⟩)
  · exact exists_literal_of (by simp) (by simp [startsWith]) (by simp) (fun _ => ⟨_, rfl⟩)

/-- **A value that fits the type of a stem has a literal.** -/
theorem exists_literal {stem : List Char} {t : AbiType} (hstem : Stem stem t) {v : Value}
    (hv : Fits t v) : ∃ expr, literal v stem = .ok expr := by
  cases hstem with
  | tuple items ts =>
    exact exists_literal_of (by simp) (by simp [startsWith]) (by simp) (by simp [startsWith])
  | @basic base size t h =>
    cases h.form with
    | unsigned =>
      cases v <;> simp only [Fits] at hv
      exact exists_literal_of (by simp) (fun _ => ⟨_, rfl⟩) (by simp) (by simp [startsWith])
    | signed =>
      cases v <;> simp only [Fits] at hv
      exact exists_literal_of (by simp) (fun _ => ⟨_, rfl⟩) (by simp) (by simp [startsWith])
    | unsignedFixed =>
      exact exists_literal_of (by simp) (by simp [startsWith]) (by simp) (by simp [startsWith])
    | signedFixed =>
      exact exists_literal_of (by simp) (by simp [startsWith]) (by simp) (by simp [startsWith])
    | boolean =>
      exact exists_literal_of (by simp) (by simp [startsWith]) (by simp) (by simp [startsWith])
    | address =>
      cases v <;> simp only [Fits] at hv
      exact exists_literal_of (fun _ => exists_addressLiteral hv) (by simp [startsWith]) (by simp)
        (by simp [startsWith])
    | fixedBytes hbase =>
      cases v <;> simp only [Fits] at hv
      exact exists_literal_bytes hbase _ _
    | bytes =>
      cases v <;> simp only [Fits] at hv
      exact exists_literal_bytes (.inl rfl) _ _
    | string =>
      cases v <;> simp only [Fits] at hv
      exact exists_literal_of (by simp) (by simp [startsWith]) (fun _ => ⟨_, rfl⟩)
        (by simp [startsWith])

/-- **A value that fits an array type** has items with literals, as deep as the type has dimensions.
-/
lemma isNested_of_fits {stem : List Char} {t : AbiType} (hstem : Stem stem t)
    {dims : List (Option Nat)} {v : Value} (hv : Fits (withDims t dims) v) :
    IsNested (HasLiteral stem) dims.length v := by
  induction dims using List.reverseRecOn generalizing v with
  | nil => exact exists_literal hstem hv
  | append_singleton dims d ih =>
    obtain ⟨vs, rfl, hvs⟩ := exists_items_of_fits hv
    rw [List.length_append, List.length_singleton]
    exact fun u hu => ih (hvs u hu)

/-! ## The two texts of a declared type -/

/-- The stem of an array type does not end like an array type. -/
lemma endsWith_stem {stem : List Char} {t : AbiType} (h : Stem stem t) :
    endsWith [']'] stem = false := by
  rw [endsWith, ← Bool.not_eq_true, List.isSuffixOf_iff_suffix]
  rintro ⟨cs, hcs⟩
  cases h with
  | basic h =>
    refine h.not_mem (.inr rfl) ?_
    rw [← hcs]
    simp
  | tuple items ts =>
    have hlast := congrArg List.getLast? hcs
    rw [List.getLast?_append_of_ne_nil _ (by simp), List.getLast?_append_of_ne_nil _ (by simp)]
      at hlast
    simp at hlast

/-- A declared type is spelled like its ABI type text up to the brackets, or its ABI type text is
that of an address or of a number of one byte. -/
structure SpelledLike (abi sol : List Char) (leaf spelled brackets : List Char) : Prop where
  abi_eq : abi = leaf ++ brackets
  sol_eq : sol = spelled ++ brackets
  leaf_eq : leaf = spelled ∨
    (leaf = "address".toList ∨ leaf = "uint8".toList) ∧ (brackets = [] ∨ brackets.head? = some '[')

/-- What stands in front of the first bracket can be told. -/
lemma takeWhile_append {front behind : List Char} (hfront : '[' ∉ front)
    (hbehind : behind = [] ∨ behind.head? = some '[') :
    (front ++ behind).takeWhile (· ≠ '[') = front := by
  refine takeWhile_append_of_stop (fun c hc => ?_) fun c hc => ?_
  · simpa using fun h : c = '[' => hfront (h ▸ hc)
  · rcases hbehind with rfl | hbehind
    · cases hc
    · obtain rfl : '[' = c := Option.some.inj (hbehind.symm.trans hc)
      rfl

section Texts

variable {described : Nat}

/-- The ABI type text of an array type is that of its base with the brackets of its length, which is
written. -/
lemma exists_base_of_typeText {base : TypeName} {length : ArrayLength} {abi : List Char}
    (h : typeText described (.array base length) = .ok abi) :
    ∃ cs, typeText described base = .ok cs ∧ cs ++ length.brackets = abi ∧
      length.shown?.all Integer.isWritable = true := by
  unfold typeText at h
  split at h
  · cases h
  split at h
  · cases h
  next hshown =>
    obtain ⟨cs, hcs, habi⟩ := map_eq_ok_iff.mp h
    exact ⟨cs, hcs, habi, by simpa using hshown⟩

/-- Brackets go behind the two texts of a base alike. -/
lemma exists_base_texts {base : TypeName} {length : ArrayLength} {room : Nat} {abi sol : List Char}
    (habi : typeText described (.array base length) = .ok abi)
    (hsol : (TypeName.array base length).spelling room = .ok sol) :
    ∃ k abiBase solBase, typeText described base = .ok abiBase ∧ base.spelling k = .ok solBase ∧
      abi = abiBase ++ length.brackets ∧ sol = solBase ++ length.brackets := by
  obtain ⟨abiBase, habiBase, rfl, hshown⟩ := exists_base_of_typeText habi
  cases room with
  | zero => cases hsol
  | succ k =>
    rw [TypeName.spelling, hshown] at hsol
    obtain ⟨solBase, hsolBase, rfl⟩ := map_eq_ok_iff.mp hsol
    exact ⟨k, abiBase, solBase, habiBase, hsolBase, rfl, rfl⟩

/-- A type that the source names is an address or a number of one byte. -/
lemma leaf_of_named {name typeString : String} {abi : List Char}
    (h : typeText described (.named name typeString) = .ok abi) :
    abi = "address".toList ∨ abi = "uint8".toList := by
  have h : leafText described (.named name typeString) = .ok abi := h
  simp only [leafText] at h
  split at h
  · exact .inl (Except.ok.inj h).symm
  split at h
  · exact .inr (Except.ok.inj h).symm
  · cases h

/-- A type is spelled as a text if there is room for its depth. -/
def IsSpelled (T : TypeName) (sol : List Char) : Prop :=
  ∀ room, T.spelling room = if T.depth ≤ room then .ok sol else .error .tooDeep

/-- What is no array needs room for itself only. -/
lemma isSpelled_of_spelling {T : TypeName} {sol : List Char} (hdepth : T.depth = 1)
    (h : ∀ room, T.spelling (room + 1) = .ok sol) : IsSpelled T sol := by
  intro room
  cases room with
  | zero => rw [if_neg (by omega), TypeName.spelling]
  | succ room => rw [if_pos (by omega), h]

lemma IsSpelled.array {base : TypeName} {length : ArrayLength} {sol : List Char}
    (h : IsSpelled base sol) (hshown : length.shown?.all Integer.isWritable = true) :
    IsSpelled (.array base length) (sol ++ length.brackets) := by
  intro room
  cases room with
  | zero => rw [if_neg (by simp [TypeName.depth]), TypeName.spelling]
  | succ room =>
    simp only [TypeName.spelling, hshown, h room, TypeName.depth, Nat.add_le_add_iff_right,
      Bool.not_true, Bool.false_eq_true, if_false]
    split <;> rfl

/-- There is a single way to spell a type. -/
lemma IsSpelled.eq_of_spelling {T : TypeName} {sol sol' : List Char} {room : Nat}
    (h : IsSpelled T sol) (hsol : T.spelling room = .ok sol') : sol' = sol ∧ T.depth ≤ room := by
  rw [h room] at hsol
  split at hsol
  next hdepth => exact ⟨(Except.ok.inj hsol).symm, hdepth⟩
  next => cases hsol

lemma exists_spelledLike {T : TypeName} {abi : List Char} (h : typeText described T = .ok abi) :
    ∃ sol leaf spelled brackets, IsSpelled T sol ∧ SpelledLike abi sol leaf spelled brackets := by
  induction T generalizing abi with
  | elementary name =>
    obtain rfl : (TypeName.expand name).toList = abi := Except.ok.inj h
    by_cases hname : name = "address payable"
    · have habi : (TypeName.expand name).toList = "address".toList := by
        rw [hname]
        decide
      have hspelling : IsSpelled (.elementary name) name.toList :=
        isSpelled_of_spelling rfl fun room => by rw [TypeName.spelling, if_pos hname]
      exact ⟨_, _, name.toList, [], hspelling, (List.append_nil _).symm, (List.append_nil _).symm,
        .inr ⟨.inl habi, .inl rfl⟩⟩
    · have hspelling : IsSpelled (.elementary name) (TypeName.expand name).toList :=
        isSpelled_of_spelling rfl fun room => by rw [TypeName.spelling, if_neg hname]
      exact ⟨_, _, _, [], hspelling, (List.append_nil _).symm, (List.append_nil _).symm, .inl rfl⟩
  | array base length ih =>
    obtain ⟨cs, hcs, rfl, hshown⟩ := exists_base_of_typeText h
    obtain ⟨sol, leaf, spelled, brackets, hspelling, ⟨rfl, rfl, hleaf⟩⟩ := ih hcs
    refine ⟨_, leaf, spelled, brackets ++ length.brackets, hspelling.array hshown, by simp,
      by simp, ?_⟩
    refine hleaf.imp_right fun ⟨hstem, hbrackets⟩ => ⟨hstem, .inr ?_⟩
    rcases hbrackets with rfl | hbrackets
    · simp [ArrayLength.brackets]
    · simp [List.head?_append, hbrackets]
  | mapping key value => cases h
  | named name typeString =>
    have hspelling : ∃ sol, IsSpelled (.named name typeString) sol := by
      cases hqualified : (cutFirst ' ' typeString.toList).2 with
      | some qualified =>
        exact ⟨qualified, isSpelled_of_spelling rfl fun room => by
          rw [TypeName.spelling, hqualified]⟩
      | none =>
        exact ⟨name.toList, isSpelled_of_spelling rfl fun room => by
          rw [TypeName.spelling, hqualified]⟩
    obtain ⟨sol, hsol⟩ := hspelling
    exact ⟨sol, abi, sol, [], hsol, by simp, by simp, .inr ⟨leaf_of_named h, .inl rfl⟩⟩

/-- **Both texts of a declared type end in the same dimensions**, if its ABI type text stands for a
type. -/
theorem exists_shared_dims {rooms : Rooms} {T : TypeName} {abi : List Char} {t : AbiType}
    (htext : typeText described T = .ok abi) (hresolve : resolve rooms abi = .ok t) :
    ∃ stem spelled item dims, Stem stem item ∧ abi = stem ++ dims.flatMap dimText ∧
      IsSpelled T (spelled ++ dims.flatMap dimText) ∧ t = withDims item dims := by
  obtain ⟨stem, item, dims, hstem, habi, rfl, -⟩ := exists_stem_of_resolve hresolve
  obtain ⟨sol, leaf, spelled, brackets, hspelling, hleaf, rfl, heq⟩ := exists_spelledLike htext
  rcases heq with rfl | ⟨heq, hbrackets⟩
  · exact ⟨stem, stem, item, dims, hstem, habi, by rwa [← habi, hleaf], rfl⟩
  have hdims : dims.flatMap dimText = [] ∨ (dims.flatMap dimText).head? = some '[' := by
    cases dims with
    | nil => exact .inl rfl
    | cons d dims => cases d <;> simp [dimText]
  have hfront : '[' ∉ leaf := by rcases heq with rfl | rfl <;> decide
  have hstem_eq : stem = leaf := by
    cases hstem with
    | basic h =>
      rw [← takeWhile_append (h.not_mem (.inl rfl)) hdims, ← takeWhile_append hfront hbrackets,
        ← habi, hleaf]
    | tuple items ts =>
      have hhead := congrArg List.head? (habi.symm.trans hleaf)
      rcases heq with rfl | rfl <;> simp at hhead
  have hbrackets_eq : brackets = dims.flatMap dimText := by
    rw [hleaf, hstem_eq] at habi
    exact List.append_cancel_left habi
  exact ⟨stem, spelled, item, dims, hstem, habi, by rwa [← hbrackets_eq], rfl⟩

end Texts

/-! ## Values of declared types -/

/-- How many dimensions an ABI type has. -/
def dimsOf : AbiType → Nat
  | .array item => dimsOf item + 1
  | .sized item _ => dimsOf item + 1
  | _ => 0

lemma dimsOf_withDims {stem : List Char} {t : AbiType} (hstem : Stem stem t)
    (dims : List (Option Nat)) : dimsOf (withDims t dims) = dims.length := by
  induction dims using List.reverseRecOn with
  | nil =>
    cases hstem with
    | tuple items ts => rfl
    | basic h => cases h.form <;> rfl
  | append_singleton dims d ih =>
    rw [List.length_append, List.length_singleton, ← ih]
    cases d <;> simp [withDims, dimsOf]

section Values

variable {rooms : Rooms} {described spelled room : Nat} {T : TypeName} {abi sol : List Char}
  {t : AbiType} {v : Value} (htext : typeText described T = .ok abi)
  (hspelling : T.spelling spelled = .ok sol) (hresolve : resolve rooms abi = .ok t) (hv : Fits t v)
include htext hspelling hresolve hv

/-- **A value is rendered** if it fits the type that the ABI type text of its declared type stands
for, and there is room for its levels. -/
theorem succeeds_render (hroom : levels (dimsOf t) v ≤ room) :
    Succeeds (render room abi sol v) := by
  obtain ⟨stem, spelled, item, dims, hstem, rfl, hsol, rfl⟩ := exists_shared_dims htext hresolve
  obtain ⟨rfl, -⟩ := hsol.eq_of_spelling hspelling
  rw [dimsOf_withDims hstem] at hroom
  exact succeeds_render_of_levels_le (endsWith_stem hstem) (isNested_of_fits hstem hv) hroom

/-- **A value is not rendered** if there is no room for its levels. -/
theorem stops_render (hroom : room < levels (dimsOf t) v) : Stops (render room abi sol v) := by
  obtain ⟨stem, spelled, item, dims, hstem, rfl, hsol, rfl⟩ := exists_shared_dims htext hresolve
  obtain ⟨rfl, -⟩ := hsol.eq_of_spelling hspelling
  rw [dimsOf_withDims hstem] at hroom
  exact stops_render_of_lt_levels (endsWith_stem hstem) (isNested_of_fits hstem hv) hroom

end Values

end HoneypotAudit.Solidity
