import HoneypotAudit.Proofs.Abi.Declared
import HoneypotAudit.Proofs.Abi.Lengths
import HoneypotAudit.Proofs.Deployment.Signatures

/-!
# Constructor arguments, all or nothing

Decoding the arguments of a constructor goes through six stages: the signature, the spellings, the
bytes of the raw arguments, the ABI types, the values, and their expressions.  A fault of any stage
leaves no arguments behind, and the last stage has none but for values that are nested too deep: all
else that is decoded can be rendered (`exists_renderArguments`).  So the outcome is either complete
(`IsComplete`) or empty.

Not every run comes to an outcome.  The decoder stops at a length beyond all bounds, and wherever
there is no room for what is nested: at a type that is described, spelled or looked up, and at a
value that is rendered (`Escapes`).  The main statement is `all_or_nothing_iff`: there is an outcome
that is all or nothing exactly when none of this is met.  `overlong_string_escapes` has the smallest
data with such a length.
-/

namespace HoneypotAudit.Deployment

open HoneypotAudit.Text HoneypotAudit.Abi HoneypotAudit.Solidity HoneypotAudit.Outcome

/-! ## Expressions -/

/-- There is room for the levels of all values. -/
def HasRoom (room : Nat) (abiTypes : List AbiType) (values : List Value) : Prop :=
  List.Forall₂ (fun t v => levels (dimsOf t) v ≤ room) abiTypes values

section Expressions

variable {rooms : Rooms} {described spelled room : Nat} {types : List TypeName}
  {signature declared : List (List Char)} {abiTypes : List AbiType} {values : List Value}

/-- **Values that fit are rendered**, one after another: there is an expression for each of them, if
there is room for their levels. -/
theorem exists_renderArguments
    (h : Rows described spelled rooms types signature declared abiTypes values)
    (hroom : HasRoom room abiTypes values) (r : Renderer) :
    ∃ arguments r', (renderArguments room (values.zip (signature.zip declared))).run.run r
        = (.ok arguments, r') ∧ arguments.length = types.length := by
  induction h generalizing r with
  | nil => exact ⟨[], r, rfl, rfl⟩
  | cons htext hsol hresolve hv _ ih =>
    obtain ⟨hlevels, hroom⟩ := List.forall₂_cons.mp hroom
    obtain ⟨expr, r₁, hexpr⟩ := succeeds_render htext hsol hresolve hv hlevels r
    obtain ⟨exprs, r₂, hexprs, hlength⟩ := ih hroom r₁
    refine ⟨String.ofList expr :: exprs, r₂, ?_, by simp [hlength]⟩
    refine (run_bind_of_ok hexpr).trans ?_
    refine (run_bind_of_ok hexprs).trans ?_
    rfl

/-- **Values that fit are not all rendered** if there is no room for the levels of one of them. -/
theorem stops_renderArguments
    (h : Rows described spelled rooms types signature declared abiTypes values)
    (hroom : ¬HasRoom room abiTypes values) :
    Stops (renderArguments room (values.zip (signature.zip declared))) := by
  induction h with
  | nil => exact absurd .nil hroom
  | @cons T text sol t v types texts sols ts vs htext hsol hresolve hv _ ih =>
    rcases Nat.lt_or_ge room (levels (dimsOf t) v) with hlt | hle
    · exact stops_bind_of_stops (stops_render htext hsol hresolve hv hlt)
    · have hrest : ¬HasRoom room ts vs := fun h => hroom (.cons hle h)
      refine stops_bind_of_succeeds (succeeds_render htext hsol hresolve hv hle) fun expr => ?_
      exact stops_bind_of_stops (ih hrest)

end Expressions

/-! ## Complete outcomes -/

/-- An outcome is complete: the raw arguments hold a value for each type of the signature, and the
values are rendered in their order by one renderer that is new. -/
inductive IsComplete (rooms : Rooms) (types : List TypeName) (blob : Blob) : Decoded → Prop
  | mk {signature declared : List (List Char)} {data : Bytes} {abiTypes : List AbiType}
      {values : List Value} {arguments : List String} {r : Renderer}
      (hsignature : Abi.signature rooms.described types = .ok signature)
      (hdeclared : spellings rooms.spelled types = .ok declared)
      (hdata : blob.toBytes = .ok data)
      (htypes : resolveAll rooms signature = .ok abiTypes)
      (hvalues : decode abiTypes data = .ok values)
      (hrender : (renderArguments rooms.rendered
        (values.zip (signature.zip declared))).run.run {} = (.ok arguments, r)) :
      IsComplete rooms types blob
        { arguments, signature := signature.map String.ofList, statements := r.statements }

/-- A complete outcome is what decoding comes to. -/
theorem decodeArguments_of_isComplete {rooms : Rooms} {types : List TypeName} {blob : Blob}
    {d : Decoded} (h : IsComplete rooms types blob d) :
    decodeArguments rooms types blob = .ok d := by
  obtain ⟨hsignature, hdeclared, hdata, htypes, hvalues, hrender⟩ := h
  unfold decodeArguments
  split
  next hempty =>
    obtain rfl := List.isEmpty_iff.mp hempty
    obtain rfl := Except.ok.inj hsignature
    rw [List.zip_nil_left, List.zip_nil_right] at hrender
    cases hrender
    rfl
  next => simp only [hsignature, hdeclared, hdata, decodeData, htypes, hvalues, hrender]

/-- An outcome has an argument for each parameter, or else nothing but a fault. -/
structure AllOrNothing (rooms : Rooms) (types : List TypeName) (blob : Blob) (d : Decoded) :
    Prop where
  empty : types = [] → d = {}
  complete : types ≠ [] → d.fault = none → IsComplete rooms types blob d
  count : d.fault = none → d.arguments.length = types.length
  nothing : d.fault ≠ none → d.arguments = [] ∧ d.statements = []

/-- A fault alone is nothing. -/
lemma allOrNothing_of_fault {rooms : Rooms} {types : List TypeName} {blob : Blob} (hne : types ≠ [])
    {signature : List String} {fault : ArgumentFault} :
    AllOrNothing rooms types blob { signature, fault := some fault } where
  empty h := absurd h hne
  complete _ h := by cases h
  count h := by cases h
  nothing _ := ⟨rfl, rfl⟩

lemma allOrNothing_of_isComplete {rooms : Rooms} {types : List TypeName} {blob : Blob}
    (hne : types ≠ []) {d : Decoded} (h : IsComplete rooms types blob d) :
    AllOrNothing rooms types blob d where
  empty hnil := absurd hnil hne
  complete _ _ := h
  count _ := by
    cases h with
    | @mk _ _ _ abiTypes values _ _ hsignature hdeclared _ htypes hvalues hrender =>
      have hrows := rows_of_signature hsignature hdeclared htypes (fits_of_decode hvalues)
      by_cases hroom : HasRoom rooms.rendered abiTypes values
      · obtain ⟨arguments, r, hall, hlength⟩ := exists_renderArguments hrows hroom {}
        rw [hrender] at hall
        cases hall
        exact hlength
      · obtain ⟨r', hstop⟩ := stops_renderArguments hrows hroom {}
        cases hrender.symm.trans hstop
  nothing hfault := by
    cases h
    exact absurd rfl hfault

/-! ## Runs that come to no outcome -/

/-- The leaf of an array type has no ABI type, and is nested too deep to be described. -/
inductive DeepLeaf (room : Nat) : TypeName → Prop
  | mapping {key value : TypeName} (h : room < (TypeName.mapping key value).depth) :
      DeepLeaf room (.mapping key value)
  | named {name typeString : String}
      (hkind : TypeName.kindOf typeString ∉ ["contract", "interface", "enum"])
      (h : room < (TypeName.named name typeString).depth) : DeepLeaf room (.named name typeString)
  | array {base : TypeName} {length : ArrayLength} (hresolved : length.isResolved = true)
      (hshown : length.shown?.all Integer.isWritable = true) (h : DeepLeaf room base) :
      DeepLeaf room (.array base length)

/-- The parts of the type that a text spells are nested too deep to be looked up. -/
def DeepText (rooms : Rooms) (text : List Char) : Prop :=
  ∃ cause, resolve rooms text = .error cause ∧ cause.isTooDeep = true

/-- Decoding comes to no outcome.  A parameter counts only if nothing is wrong with those in
front. -/
inductive Escapes (rooms : Rooms) (types : List TypeName) (blob : Blob) : Prop
  | leaf {before after : List TypeName} {T : TypeName} (hsplit : types = before ++ T :: after)
      (hbefore : ∀ U ∈ before, ∃ text, typeText rooms.described U = .ok text)
      (h : DeepLeaf rooms.described T)
  | spelling {signature : List (List Char)} {T : TypeName}
      (hsignature : Abi.signature rooms.described types = .ok signature) (hT : T ∈ types)
      (h : rooms.spelled < T.depth)
  | text {signature before after : List (List Char)} {text : List Char} {data : Bytes}
      (hsignature : Abi.signature rooms.described types = .ok signature)
      (hdata : blob.toBytes = .ok data) (hsplit : signature = before ++ text :: after)
      (hbefore : ∀ cs ∈ before, ∃ t, resolve rooms cs = .ok t) (h : DeepText rooms text)
  | length {signature : List (List Char)} {data : Bytes} {abiTypes : List AbiType} {pos : Nat}
      (hsignature : Abi.signature rooms.described types = .ok signature)
      (hdata : blob.toBytes = .ok data) (htypes : resolveAll rooms signature = .ok abiTypes)
      (hcomes : ComesTo data (.tuple abiTypes) 0 pos) (h : IsOverlong data pos)
  | value {signature : List (List Char)} {data : Bytes} {abiTypes : List AbiType}
      {values : List Value} (hsignature : Abi.signature rooms.described types = .ok signature)
      (hdata : blob.toBytes = .ok data) (htypes : resolveAll rooms signature = .ok abiTypes)
      (hvalues : decode abiTypes data = .ok values) (h : ¬HasRoom rooms.rendered abiTypes values)

section DeepLeaves

variable {room : Nat}

/-- A leaf is not described because it is nested too deep. -/
lemma leafFault_eq_tooDeep_iff {leaf : TypeName} :
    leafFault room leaf = .tooDeep ↔ room < leaf.depth := by
  unfold leafFault
  split
  next h => simp [h]
  next h => split <;> simp [h]

/-- An array comes to the depth of its base only if nothing is wrong with its length. -/
lemma typeText_array_eq_tooDeep_iff {base : TypeName} {length : ArrayLength} :
    typeText room (.array base length) = .error .tooDeep ↔
      length.isResolved = true ∧ length.shown?.all Integer.isWritable = true ∧
        typeText room base = .error .tooDeep := by
  rw [typeText]
  split
  next h => simp_all
  split
  next h => simp_all
  next hresolved hshown => simp_all

lemma typeText_named_eq_tooDeep_iff {name typeString : String} :
    typeText room (.named name typeString) = .error .tooDeep ↔
      TypeName.kindOf typeString ∉ ["contract", "interface", "enum"] ∧
        room < (TypeName.named name typeString).depth := by
  have hleaf : typeText room (.named name typeString) = leafText room (.named name typeString) :=
    rfl
  rw [hleaf, ← leafFault_eq_tooDeep_iff]
  simp only [leafText, List.mem_cons, List.not_mem_nil, or_false, not_or]
  split
  next h =>
    simpa using fun hcontract hinterface => absurd h (not_or.mpr ⟨hcontract, hinterface⟩)
  next h =>
    split
    next h => simp [h]
    next henum =>
      rw [not_or] at h
      simp [h, henum]

lemma typeText_eq_tooDeep_iff {T : TypeName} :
    typeText room T = .error .tooDeep ↔ DeepLeaf room T := by
  induction T with
  | elementary name => exact iff_of_false nofun (by rintro ⟨⟩)
  | array base length ih =>
    rw [typeText_array_eq_tooDeep_iff, ih]
    constructor
    · rintro ⟨hresolved, hshown, h⟩
      exact .array hresolved hshown h
    · rintro (_ | _ | ⟨hresolved, hshown, h⟩)
      exact ⟨hresolved, hshown, h⟩
  | mapping key value =>
    have hleaf :
        typeText room (.mapping key value) = .error (leafFault room (.mapping key value)) :=
      rfl
    rw [hleaf, Except.error.injEq, leafFault_eq_tooDeep_iff]
    constructor
    · exact .mapping
    · rintro ⟨h⟩
      exact h
  | named name typeString =>
    rw [typeText_named_eq_tooDeep_iff]
    constructor
    · rintro ⟨hkind, h⟩
      exact .named hkind h
    · rintro (_ | ⟨hkind, h⟩)
      exact ⟨hkind, h⟩

lemma signature_eq_tooDeep_iff {types : List TypeName} :
    Abi.signature room types = .error .tooDeep ↔ ∃ before T after, types = before ++ T :: after ∧
      (∀ U ∈ before, ∃ text, typeText room U = .ok text) ∧ DeepLeaf room T := by
  rw [signature_eq_mapM, mapM_eq_error_iff]
  simp only [typeText_eq_tooDeep_iff]

end DeepLeaves

section Outcomes

variable {rooms : Rooms} {types : List TypeName} {blob : Blob}

/-- Types that are looked up stand for parameters. -/
lemma ne_nil_of_signature {signature : List (List Char)} (hne : signature ≠ [])
    (hsignature : Abi.signature rooms.described types = .ok signature) : types ≠ [] := by
  rintro rfl
  exact hne (Except.ok.inj hsignature).symm

/-- What a run comes to once there is a signature, if the types are not all spelled. -/
lemma decodeArguments_of_not_spelled {signature : List (List Char)} (hne : types ≠ [])
    (hsignature : Abi.signature rooms.described types = .ok signature)
    (h : ¬∃ declared, spellings rooms.spelled types = .ok declared) :
    decodeArguments rooms types blob = .error .tooDeep := by
  have hempty : types.isEmpty = false := by simpa using hne
  cases hspellings : spellings rooms.spelled types with
  | ok declared => exact absurd ⟨declared, hspellings⟩ h
  | error cause => simp [decodeArguments, hempty, hsignature, hspellings]

/-- What a run comes to once there are a signature and data, if the decoder stops. -/
lemma stopped_of_decodeData {signature : List (List Char)} {data : Bytes} (hne : types ≠ [])
    (hsignature : Abi.signature rooms.described types = .ok signature)
    (hdata : blob.toBytes = .ok data)
    (h : ∀ declared, spellings rooms.spelled types = .ok declared →
      ∃ cause, decodeData rooms signature declared data = .error cause) :
    ∃ cause, decodeArguments rooms types blob = .error cause := by
  have hempty : types.isEmpty = false := by simpa using hne
  by_cases hspelled : ∃ declared, spellings rooms.spelled types = .ok declared
  · obtain ⟨declared, hdeclared⟩ := hspelled
    obtain ⟨cause, hcause⟩ := h declared hdeclared
    exact ⟨cause, by simp [decodeArguments, hempty, hsignature, hdeclared, hdata, hcause]⟩
  · exact ⟨_, decodeArguments_of_not_spelled hne hsignature hspelled⟩

/-- A run that escapes comes to no outcome. -/
lemma stopped_of_escapes (h : Escapes rooms types blob) :
    ∃ cause, decodeArguments rooms types blob = .error cause := by
  cases h with
  | leaf hsplit hbefore hleaf =>
    have hempty : types.isEmpty = false := by rw [hsplit]; simp
    have hdeep := signature_eq_tooDeep_iff.mpr ⟨_, _, _, hsplit, hbefore, hleaf⟩
    exact ⟨.tooDeep, by simp [decodeArguments, hempty, hdeep]⟩
  | @spelling signature T hsignature hT hdepth =>
    have hnot : ¬∃ declared, spellings rooms.spelled types = .ok declared := by
      rw [exists_spellings_iff hsignature]
      exact fun hall => absurd (hall T hT) (Nat.not_le.mpr hdepth)
    exact ⟨_, decodeArguments_of_not_spelled (List.ne_nil_of_mem hT) hsignature hnot⟩
  | text hsignature hdata hsplit hbefore hdeep =>
    obtain ⟨cause, hcause, hdeep⟩ := hdeep
    have hall := resolveAll_eq_error_iff.mpr ⟨_, _, _, hsplit, hbefore, hcause⟩
    have hne := ne_nil_of_signature (by rw [hsplit]; simp) hsignature
    exact stopped_of_decodeData hne hsignature hdata fun declared _ =>
      ⟨.tooDeep, by simp [decodeData, hall, hdeep]⟩
  | length hsignature hdata htypes hcomes hlong =>
    have hdecode := decode_eq_oversized_iff.mpr ⟨_, hcomes, hlong⟩
    have hne : types ≠ [] := by
      refine ne_nil_of_signature ?_ hsignature
      rintro rfl
      cases htypes
      obtain ⟨-, t, body, hbody, -⟩ := exists_of_comesTo_tuple hcomes
      cases mem_of_comesToBody hbody
    exact stopped_of_decodeData hne hsignature hdata fun declared _ =>
      ⟨.oversized, by simp [decodeData, htypes, hdecode]⟩
  | value hsignature hdata htypes hvalues hroom =>
    have hfits := fits_of_decode hvalues
    have hne : types ≠ [] := by
      refine ne_nil_of_signature ?_ hsignature
      rintro rfl
      cases htypes
      cases hfits
      exact hroom .nil
    refine stopped_of_decodeData hne hsignature hdata fun declared hdeclared => ?_
    have hrows := rows_of_signature hsignature hdeclared htypes hfits
    obtain ⟨r, hstop⟩ := stops_renderArguments hrows hroom {}
    exact ⟨.tooDeep, by simp [decodeData, htypes, hvalues, hstop]⟩

/-- What the outcome is once the data is there. -/
lemma exists_outcome_of_data (hne : types ≠ []) {signature declared : List (List Char)}
    {data : Bytes} (hsignature : Abi.signature rooms.described types = .ok signature)
    (hdeclared : spellings rooms.spelled types = .ok declared) (hdata : blob.toBytes = .ok data)
    (h : ¬Escapes rooms types blob) :
    ∃ d, decodeData rooms signature declared data = .ok d ∧ AllOrNothing rooms types blob d := by
  unfold decodeData
  cases htypes : resolveAll rooms signature with
  | error cause =>
    have hshallow : ¬cause.isTooDeep = true := by
      intro hdeep
      obtain ⟨before, text, after, hsplit, hbefore, hcause⟩ := resolveAll_eq_error_iff.mp htypes
      exact h (.text hsignature hdata hsplit hbefore ⟨cause, hcause, hdeep⟩)
    simp only [if_neg hshallow]
    exact ⟨_, rfl, allOrNothing_of_fault hne⟩
  | ok abiTypes =>
    cases hvalues : decode abiTypes data with
    | error cause =>
      have hsize : cause ≠ .oversized := by
        rintro rfl
        obtain ⟨pos, hcomes, hlong⟩ := decode_eq_oversized_iff.mp hvalues
        exact h (.length hsignature hdata htypes hcomes hlong)
      cases cause <;> first
        | exact absurd rfl hsize
        | exact ⟨_, by simp only [hvalues]; rfl, allOrNothing_of_fault hne⟩
    | ok values =>
      have hroom : HasRoom rooms.rendered abiTypes values := by
        by_contra hdeep
        exact h (.value hsignature hdata htypes hvalues hdeep)
      have hrows := rows_of_signature hsignature hdeclared htypes (fits_of_decode hvalues)
      obtain ⟨arguments, r, hrender, -⟩ := exists_renderArguments hrows hroom {}
      simp only [hvalues, hrender]
      exact ⟨_, rfl, allOrNothing_of_isComplete hne
        (.mk hsignature hdeclared hdata htypes hvalues hrender)⟩

/-- A run that does not escape comes to an outcome. -/
lemma exists_outcome_of_not_escapes (h : ¬Escapes rooms types blob) :
    ∃ d, decodeArguments rooms types blob = .ok d ∧ AllOrNothing rooms types blob d := by
  unfold decodeArguments
  split
  next hempty =>
    obtain rfl := List.isEmpty_iff.mp hempty
    exact ⟨{}, rfl, fun _ => rfl, fun hne => absurd rfl hne, fun _ => rfl, fun _ => ⟨rfl, rfl⟩⟩
  next hempty =>
    have hne : types ≠ [] := fun hnil => hempty (List.isEmpty_iff.mpr hnil)
    cases hsignature : Abi.signature rooms.described types with
    | error cause =>
      have hshallow : cause ≠ .tooDeep := by
        rintro rfl
        obtain ⟨before, T, after, hsplit, hbefore, hleaf⟩ := signature_eq_tooDeep_iff.mp hsignature
        exact h (.leaf hsplit hbefore hleaf)
      cases cause with
      | tooDeep => exact absurd rfl hshallow
      | unresolvedLength => exact ⟨_, rfl, allOrNothing_of_fault hne⟩
      | longLength => exact ⟨_, rfl, allOrNothing_of_fault hne⟩
      | noCounterpart leaf => exact ⟨_, rfl, allOrNothing_of_fault hne⟩
    | ok signature =>
      have hspelled : ∀ T ∈ types, T.depth ≤ rooms.spelled := by
        intro T hT
        by_contra hdepth
        exact h (.spelling hsignature hT (Nat.not_le.mp hdepth))
      obtain ⟨declared, hdeclared⟩ := (exists_spellings_iff hsignature).mpr hspelled
      cases hdata : blob.toBytes with
      | error position =>
        simp only [hdeclared]
        exact ⟨_, rfl, allOrNothing_of_fault hne⟩
      | ok data =>
        simp only [hdeclared]
        exact exists_outcome_of_data hne hsignature hdeclared hdata h

/-- Whatever outcome decoding comes to is all or nothing. -/
lemma allOrNothing_of_eq_ok {d : Decoded} (h : decodeArguments rooms types blob = .ok d) :
    AllOrNothing rooms types blob d := by
  have hstays : ¬Escapes rooms types blob := by
    intro hescapes
    obtain ⟨cause, hcause⟩ := stopped_of_escapes hescapes
    rw [h] at hcause
    cases hcause
  obtain ⟨d', hd', hall⟩ := exists_outcome_of_not_escapes hstays
  rw [h] at hd'
  cases hd'
  exact hall

/-- **All or nothing.**  Decoding comes to an outcome that has all arguments or nothing but a fault
exactly when it does not escape. -/
theorem all_or_nothing_iff :
    (∃ d, decodeArguments rooms types blob = .ok d ∧ AllOrNothing rooms types blob d) ↔
      ¬Escapes rooms types blob := by
  refine ⟨?_, exists_outcome_of_not_escapes⟩
  rintro ⟨d, hd, -⟩ hescapes
  obtain ⟨cause, hcause⟩ := stopped_of_escapes hescapes
  rw [hd] at hcause
  cases hcause

end Outcomes

/-- Two words are enough for a run that comes to no outcome, however much room there is: the offset
of a text, and a length beyond all bounds. -/
theorem overlong_string_escapes :
    ¬∃ rooms, ∀ (types : List TypeName) (blob : Blob),
      ∃ d, decodeArguments rooms types blob = .ok d ∧ AllOrNothing rooms types blob d := by
  rintro ⟨rooms, hall⟩
  obtain ⟨d, hd, -⟩ :=
    hall [.elementary "string"] (.bytes (word wordSize ++ word lengthLimit))
  have hlimits : WithinLimits rooms (.elementary "string") :=
    ⟨by simp [HoldsDims, TypeName.depth], by simp [TypeName.shownLengths]⟩
  obtain ⟨text, htext, hresolve⟩ :=
    exists_typeText_of_withinLimits (.basic .string) hlimits rooms.described
  have hsignature : Abi.signature rooms.described [.elementary "string"] = .ok [text] :=
    signature_eq_ok_iff.mpr (.cons htext .nil)
  have htypes : resolveAll rooms [text] = .ok [.string] :=
    resolveAll_eq_ok_iff.mpr (.cons hresolve .nil)
  have hoffset : readNat (word wordSize ++ word lengthLimit) 0 = .ok wordSize := by
    decide +kernel
  have hlength : readNat (word wordSize ++ word lengthLimit) wordSize = .ok lengthLimit := by
    decide +kernel
  have hbody : BodyOf (word wordSize ++ word lengthLimit) 0 .string 0 wordSize :=
    ⟨wordSize, hoffset, rfl⟩
  have hcomes : ComesTo (word wordSize ++ word lengthLimit) (.tuple [.string]) 0 wordSize := by
    refine .tuple ?_ ⟨[], [], [], 0, rfl, rfl, hbody⟩ (.string wordSize)
    decide +kernel
  have hlong : IsOverlong (word wordSize ++ word lengthLimit) wordSize :=
    ⟨lengthLimit, hlength, by decide⟩
  have hdata : (Blob.bytes (word wordSize ++ word lengthLimit)).toBytes
      = .ok (word wordSize ++ word lengthLimit) := rfl
  obtain ⟨cause, hcause⟩ := stopped_of_escapes (.length hsignature hdata htypes hcomes hlong)
  cases hd.symm.trans hcause

end HoneypotAudit.Deployment
