import HoneypotAudit.Proofs.Abi.Declared
import HoneypotAudit.Proofs.Deployment.Arguments

/-!
# Arguments that were encoded

Raw arguments that hold the encoding of values, with anything behind it, are decoded to these
values: the arguments are the expressions of the values and the statements those of the one renderer
that writes them (`Renders`).  The declared types may be arrays of arrays to any depth, as long as
there is room for their texts and for the values: `decodeArguments_encodeAll_iff` says that
arguments are decoded just where there is.  `deep_array_escapes` has values that there is no room
for, though there is for all else.
-/

namespace HoneypotAudit.Deployment

open HoneypotAudit.Text HoneypotAudit.Abi HoneypotAudit.Solidity HoneypotAudit.Outcome

/-- An outcome is what one new renderer gives for values of declared types, in their order. -/
def Renders (rooms : Rooms) (types : List TypeName) (values : List Value) (d : Decoded) : Prop :=
  ∃ signature declared arguments r, Abi.signature rooms.described types = .ok signature ∧
    spellings rooms.spelled types = .ok declared ∧
    (renderArguments rooms.rendered (values.zip (signature.zip declared))).run.run {}
      = (.ok arguments, r) ∧
    d = { arguments, signature := signature.map String.ofList, statements := r.statements }

/-! ## Signatures of declared types -/

/-- There is room for the two texts of declared types. -/
def HaveTexts (rooms : Rooms) (types : List TypeName) : Prop :=
  ∀ T ∈ types, WithinLimits rooms T ∧ T.depth ≤ rooms.spelled

section Signatures

variable {rooms : Rooms} {types : List TypeName} {abiTypes : List AbiType}
  (hdeclared : List.Forall₂ Declares types abiTypes)

include hdeclared

/-- Declared types within their limits have a signature that stands for their ABI types. -/
lemma exists_signature_of_withinLimits (hlimits : ∀ T ∈ types, WithinLimits rooms T) :
    ∃ signature, Abi.signature rooms.described types = .ok signature ∧
      resolveAll rooms signature = .ok abiTypes := by
  simp only [signature_eq_ok_iff, resolveAll_eq_ok_iff]
  induction hdeclared with
  | nil => exact ⟨[], .nil, .nil⟩
  | cons hT _ ih =>
    obtain ⟨text, htext, hresolve⟩ :=
      exists_typeText_of_withinLimits hT (hlimits _ (by simp)) rooms.described
    obtain ⟨texts, htexts, hresolves⟩ := ih fun T hmem => hlimits T (by simp [hmem])
    exact ⟨text :: texts, .cons htext htexts, .cons hresolve hresolves⟩

/-- Declared types with a signature that stands for types are within their limits. -/
lemma withinLimits_of_signature {signature : List (List Char)} {abiTypes' : List AbiType}
    (hsignature : Abi.signature rooms.described types = .ok signature)
    (htypes : resolveAll rooms signature = .ok abiTypes') :
    ∀ T ∈ types, WithinLimits rooms T := by
  rw [signature_eq_ok_iff] at hsignature
  rw [resolveAll_eq_ok_iff] at htypes
  induction hdeclared generalizing signature abiTypes' with
  | nil => simp
  | cons hT _ ih =>
    cases hsignature with
    | cons htext hsignature =>
      cases htypes with
      | cons hresolve htypes =>
        rw [List.forall_mem_cons]
        exact ⟨withinLimits_of_typeText hT htext hresolve, ih hsignature htypes⟩

/-- Only where there is room for their texts are declared types decoded without fault. -/
lemma haveTexts_of_decodeArguments {blob : Blob} {d : Decoded}
    (h : decodeArguments rooms types blob = .ok d) (hfault : d.fault = none) :
    HaveTexts rooms types := by
  intro T hT
  obtain ⟨hsignature, hspellings, -, htypes, -, -⟩ :=
    (allOrNothing_of_eq_ok h).complete (List.ne_nil_of_mem hT) hfault
  exact ⟨withinLimits_of_signature hdeclared hsignature htypes T hT,
    (exists_spellings_iff hsignature).mp ⟨_, hspellings⟩ T hT⟩

/-- Only where there is room for their levels are values rendered. -/
lemma hasRoom_of_renders {values : List Value} {d : Decoded} (htexts : HaveTexts rooms types)
    (hvalues : List.Forall₂ Fits abiTypes values) (h : Renders rooms types values d) :
    HasRoom rooms.rendered abiTypes values := by
  obtain ⟨signature, declared, arguments, r, hsignature, hspellings, hrender, -⟩ := h
  obtain ⟨_, hsignature', htypes⟩ :=
    exists_signature_of_withinLimits hdeclared fun T hT => (htexts T hT).1
  cases hsignature.symm.trans hsignature'
  by_contra hroom
  have hrows := rows_of_signature hsignature hspellings htypes hvalues
  obtain ⟨r', hstop⟩ := stops_renderArguments hrows hroom {}
  cases hrender.symm.trans hstop

end Signatures

/-! ## Encoded arguments -/

/-- **Decoding undoes encoding**, with anything behind what was encoded, exactly where there is room
for the texts of the types and for the levels of the values.  The bound on the data is no condition
on it: lengths from `lengthLimit` on do not count bytes. -/
theorem decodeArguments_encodeAll_iff {rooms : Rooms} {types : List TypeName}
    {abiTypes : List AbiType} {values : List Value} {rest : Bytes} {blob : Blob}
    (hdeclared : List.Forall₂ Declares types abiTypes) (hvalues : List.Forall₂ Fits abiTypes values)
    (hblob : blob.toBytes = .ok (encodeAll abiTypes values ++ rest))
    (hsize : (encodeAll abiTypes values ++ rest).length < lengthLimit) :
    (∃ d, decodeArguments rooms types blob = .ok d ∧ Renders rooms types values d) ↔
      HaveTexts rooms types ∧ HasRoom rooms.rendered abiTypes values := by
  constructor
  · rintro ⟨d, hd, hrenders⟩
    have hfault : d.fault = none := by
      obtain ⟨signature, declared, arguments, r, -, -, -, rfl⟩ := hrenders
      rfl
    have htexts := haveTexts_of_decodeArguments hdeclared hd hfault
    exact ⟨htexts, hasRoom_of_renders hdeclared htexts hvalues hrenders⟩
  · rintro ⟨htexts, hroom⟩
    obtain ⟨signature, hsignature, htypes⟩ :=
      exists_signature_of_withinLimits hdeclared fun T hT => (htexts T hT).1
    obtain ⟨declared, hspellings⟩ :=
      (exists_spellings_iff hsignature).mpr fun T hT => (htexts T hT).2
    have hstandard : ∀ t ∈ abiTypes, Standard t := by
      intro t ht
      obtain ⟨T, -, hT⟩ := exists_of_mem_left hdeclared.flip ht
      exact standard_of_declares hT
    have hdecode := decode_encodeAll hsize hstandard hvalues
    have hrows := rows_of_signature hsignature hspellings htypes hvalues
    obtain ⟨arguments, r, hrender, -⟩ := exists_renderArguments hrows hroom {}
    have hcomplete : IsComplete rooms types blob _ :=
      .mk hsignature hspellings hblob htypes hdecode hrender
    exact ⟨_, decodeArguments_of_isComplete hcomplete, signature, declared, arguments, r,
      hsignature, hspellings, hrender, rfl⟩

example : decodeArguments (.same 2) [.array (.elementary "bool") .dynamic]
    (.bytes (encodeAll [.array .boolean] [.tuple [.bool true]])) =
      .ok {
        arguments := ["ctorArg0"]
        signature := ["bool[]"]
        statements := ["bool[] memory ctorArg0 = new bool[](1);", "ctorArg0[0] = true;"] } := by
  decide +kernel

/-- The zero address as a text. -/
def zeroAddress : String :=
  String.ofList ('0' :: 'x' :: Hex.encode (List.replicate 20 0))

/-- Payable addresses and a text are decoded, with a byte behind them. -/
theorem decodeArguments_encodeAll_payable :
    List.Forall₂ Declares
        [.array (.elementary "address payable") .dynamic, .elementary "string"]
        [.array .address, .string] ∧
      List.Forall₂ Fits [.array .address, .string] [.tuple [.text zeroAddress], .text "ok"] ∧
      (encodeAll [.array .address, .string] [.tuple [.text zeroAddress], .text "ok"]
        ++ [1]).length < lengthLimit ∧
      ∃ d, decodeArguments (.same 2)
          [.array (.elementary "address payable") .dynamic, .elementary "string"]
          (.bytes (encodeAll [.array .address, .string] [.tuple [.text zeroAddress], .text "ok"]
            ++ [1])) = .ok d ∧
        Renders (.same 2) [.array (.elementary "address payable") .dynamic, .elementary "string"]
          [.tuple [.text zeroAddress], .text "ok"] d := by
  have hdeclared : List.Forall₂ Declares
      [.array (.elementary "address payable") .dynamic, .elementary "string"]
      [.array .address, .string] :=
    .cons (.array (.basic .addressPayable)) (.cons (.basic .string) .nil)
  have hzero : IsAddress zeroAddress := ⟨List.replicate 20 0, rfl, rfl⟩
  have hvalues : List.Forall₂ Fits [.array .address, .string]
      [.tuple [.text zeroAddress], .text "ok"] := by
    refine .cons ?_ (.cons trivial .nil)
    intro v hv
    obtain rfl := List.mem_singleton.mp hv
    exact hzero
  have hsize : (encodeAll [.array .address, .string] [.tuple [.text zeroAddress], .text "ok"]
      ++ [1]).length < lengthLimit := by decide +kernel
  refine ⟨hdeclared, hvalues, hsize, ?_⟩
  refine (decodeArguments_encodeAll_iff hdeclared hvalues rfl hsize).mpr ⟨?_, ?_⟩
  · intro T hT
    simp only [List.mem_cons, List.not_mem_nil, or_false] at hT
    rcases hT with rfl | rfl
    · exact ⟨⟨by decide, by simp [TypeName.shownLengths, ArrayLength.shown?]⟩, by decide⟩
    · exact ⟨⟨by decide, by simp [TypeName.shownLengths]⟩, by decide⟩
  · exact .cons (by decide) (.cons (by decide) .nil)

/-! ## Values that there is no room for -/

/-- The number five in so many arrays of one item, as a declared type, its ABI type and a value. -/
def singles : Nat → TypeName × AbiType × Value
  | 0 => (.elementary (sizedName "uint" 8), .unsigned 8, .int 5)
  | n + 1 =>
    (.array (singles n).1 (.fixed 1), .sized (singles n).2.1 1, .tuple [(singles n).2.2])

section Singles

variable (n : Nat)

lemma declares_singles : Declares (singles n).1 (singles n).2.1 := by
  induction n with
  | zero =>
    have hbasic : DeclaresBasic (.elementary (sizedName "uint" (8 * 1))) (.unsigned (8 * 1)) :=
      .uintSized (by decide) (by decide)
    exact .basic hbasic
  | succ n ih => exact .sized Nat.one_pos ih

lemma fits_singles : Fits (singles n).2.1 (singles n).2.2 := by
  induction n with
  | zero => exact ⟨by decide, by decide⟩
  | succ n ih => exact ⟨rfl, List.forall_mem_singleton.mpr ih⟩

lemma depth_singles : (singles n).1.depth = n + 1 := by
  induction n with
  | zero => rfl
  | succ n ih => rw [singles, TypeName.depth, ih]

lemma levels_singles : levels (dimsOf (singles n).2.1) (singles n).2.2 = n + 1 := by
  induction n with
  | zero => rfl
  | succ n ih => simp [singles, dimsOf, levels, ih]

/-- All of it is encoded in the one word of the number. -/
lemma part_singles : part (singles n).2.1 (singles n).2.2 = ⟨false, word 5⟩ := by
  induction n with
  | zero => rfl
  | succ n ih =>
    have hdynamic : (singles n).2.1.isDynamic = false := congrArg Part.isDynamic ih
    simp only [part, singles, AbiType.isDynamic, hdynamic]
    rw [encode_sized, List.map_singleton, ih]
    simp [layOut, heads, bodies]

lemma withinLimits_singles {rooms : Rooms} (h : HoldsDims rooms n) :
    WithinLimits rooms (singles n).1 := by
  refine ⟨by rwa [depth_singles, Nat.add_sub_cancel], ?_⟩
  clear h
  induction n with
  | zero => simp [singles, TypeName.shownLengths]
  | succ n ih =>
    intro k hk
    rcases List.mem_append.mp hk with hk | hk
    · exact ih k hk
    · obtain rfl : k = 1 := by simpa [ArrayLength.shown?] using hk
      decide +kernel

end Singles

/-- However much room there is for rendering, arguments are not decoded if a value has more levels,
be there room for everything else. -/
theorem deep_array_escapes :
    ¬∃ room, ∀ (rooms : Rooms) (types : List TypeName) (abiTypes : List AbiType)
      (values : List Value) (rest : Bytes), rooms.rendered = room → HaveTexts rooms types →
      List.Forall₂ Declares types abiTypes → List.Forall₂ Fits abiTypes values →
      (encodeAll abiTypes values ++ rest).length < lengthLimit →
      ∃ d, decodeArguments rooms types (.bytes (encodeAll abiTypes values ++ rest)) = .ok d ∧
        Renders rooms types values d := by
  rintro ⟨room, hall⟩
  obtain ⟨rooms, hrendered, hspelled, hholds⟩ : ∃ rooms : Rooms,
      rooms.rendered = room ∧ rooms.spelled = room + 1 ∧ HoldsDims rooms room :=
    ⟨{ Rooms.same (room + 1) with rendered := room }, rfl, rfl, by simp [HoldsDims, Rooms.same]⟩
  have hdeclared : List.Forall₂ Declares [(singles room).1] [(singles room).2.1] :=
    .cons (declares_singles room) .nil
  have hvalues : List.Forall₂ Fits [(singles room).2.1] [(singles room).2.2] :=
    .cons (fits_singles room) .nil
  have htexts : HaveTexts rooms [(singles room).1] := by
    refine List.forall_mem_singleton.mpr ⟨withinLimits_singles room hholds, ?_⟩
    rw [depth_singles, hspelled]
  have hword : encodeAll [(singles room).2.1] [(singles room).2.2] = word 5 := by
    simp [encodeAll, part_singles, layOut, heads, bodies]
  obtain ⟨d, -, hrenders⟩ := hall rooms _ _ _ [] hrendered htexts hdeclared hvalues
    (by rw [hword]; decide +kernel)
  have hroom := hasRoom_of_renders hdeclared htexts hvalues hrenders
  have hlevels := (List.forall₂_cons.mp hroom).1
  rw [levels_singles, hrendered] at hlevels
  omega

end HoneypotAudit.Deployment
