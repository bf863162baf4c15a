import HoneypotAudit.Analysis.Preparation
import HoneypotAudit.Proofs.Solidity.Locations
import HoneypotAudit.Proofs.Solidity.Pragma
import HoneypotAudit.Proofs.Source.Insertion

/-!
# What injection does to a source

Injection inserts and does nothing else (`inject_inserts`): the planned code stands in front of the
closing brace that the compiler's byte offsets point at, the pragma and the import stand behind the
source, and what was there before is there still.

The place is the same in all three of its descriptions: the compiler's span ends with the brace, so
the position of the plan is the one behind the characters in front of the brace (`endOf_eq_ok`), and
that is where `splice` inserts.
-/

namespace HoneypotAudit.Injection

open HoneypotAudit.Text HoneypotAudit.Source HoneypotAudit.Solidity HoneypotAudit.Analysis
  HoneypotAudit.Outcome

/-! ## The place -/

/-- The declaration in front of whose end text is inserted: the body of the constructor, or the
contract if it has no constructor. -/
def site (c : Contract) : Location :=
  match c.constructor? with
  | none => c.location
  | some f => f.body.getD f.location

/-- The bytes of a location end with the brace that is the character of the source with an
index. -/
structure EndsInBrace (source : List Char) (index : Nat) (l : Location) : Prop where
  brace : source[index]? = some '}'
  nonempty : 0 < l.length
  last : l.offset + l.length = (Utf8.encode (source.take (index + 1))).length

variable {source : List Char} {index : Nat} {rooms : Rooms}

lemma isSpan_site {data : Bytes} {c : Contract} (h : c.IsLocated data) : IsSpan data (site c) := by
  rw [site]
  split
  · exact h.1
  next f hf =>
    have hlocated := h.2 f (Contract.mem_of_constructor? hf)
    cases hbody : f.body with
    | none => exact hlocated.1
    | some body => exact hlocated.2 body hbody

/-- The brace is one byte. -/
lemma length_encode_take_succ (hbrace : source[index]? = some '}') :
    (Utf8.encode (source.take (index + 1))).length =
      (Utf8.encode (source.take index)).length + 1 := by
  have hbyte : (String.utf8EncodeChar '}').length = 1 := by decide
  rw [Utf8.encode_take_succ hbrace, List.length_append, hbyte]

/-- Text is inserted behind the characters in front of the brace. -/
lemma endOf_eq_ok {l : Location} (hspan : IsSpan (Utf8.encode source) l)
    (hend : EndsInBrace source index l) :
    endOf l = .ok (.behind (Utf8.encode (source.take index))) := by
  have hpositive : ¬(Position.behind (Utf8.encode (source.take index))).line < 1 := by
    simp only [Position.behind]
    omega
  have hlast : l.last = .behind (Utf8.encode (source.take index)) := by
    rcases hspan with rfl | ⟨offset, length, file, rfl⟩
    · exact absurd hend.nonempty (by decide)
    · have hnonempty : 0 < length := hend.nonempty
      have hspan : offset + length = (Utf8.encode (source.take (index + 1))).length := hend.last
      have hoffset : offset + max (length - 1) 0 = (Utf8.encode (source.take index)).length := by
        rw [length_encode_take_succ hend.brace] at hspan
        omega
      have hposition : Position.ofOffset
          (Utf8.encode (source.take index ++ source.drop index)) (offset + max (length - 1) 0) =
          .behind (Utf8.encode (source.take index)) := ofOffset_encode hoffset
      rwa [List.take_append_drop] at hposition
  rw [endOf, hlast, if_neg hpositive]

/-! ## The plan -/

/-- There is a plan for a contract whose place ends in a brace, and it is a plan for that place. -/
lemma exists_plan {facts : Facts} (amount : String)
    (hlocated : facts.contract.IsLocated (Utf8.encode source))
    (hend : EndsInBrace source index (site facts.contract)) :
    ∃ plan, Plan.ofFacts facts amount = .ok plan ∧
      plan.position = .behind (Utf8.encode (source.take index)) := by
  have hplace := endOf_eq_ok (isSpan_site hlocated) hend
  simp only [Plan.ofFacts]
  cases hconstructor : facts.contract.constructor? with
  | none =>
    rw [site, hconstructor] at hplace
    dsimp only at hplace ⊢
    rw [hplace]
    exact ⟨_, rfl, rfl⟩
  | some f =>
    rw [site, hconstructor] at hplace
    dsimp only at hplace ⊢
    rw [hplace]
    exact ⟨_, rfl, rfl⟩

lemma seedCall_eq (facts : Facts) (amount : String) :
    seedCall facts amount =
      if facts.isToken = true ∧ mintFunction ∈ facts.internalFunctions then
        mintFunction ++ "(msg.sender, " ++ amount ++ "); "
      else "" := by
  simp [seedCall]

/-- The planned code is the call that mints, in a constructor of its own if there is none. -/
lemma code_of_ofFacts {facts : Facts} {amount : String} {plan : Plan}
    (hplan : Plan.ofFacts facts amount = .ok plan) :
    plan.code =
      if facts.contract.constructor?.isNone then
        "\nconstructor() public \x7b " ++ seedCall facts amount ++ "\x7d"
      else "\n" ++ seedCall facts amount := by
  simp only [Plan.ofFacts] at hplan
  split at hplan
  next hnone =>
    obtain ⟨position, -, hok⟩ := bind_eq_ok_iff.mp hplan
    obtain rfl := Except.ok.inj hok
    rw [hnone]
    rfl
  next f hsome =>
    obtain ⟨position, -, hok⟩ := bind_eq_ok_iff.mp hplan
    obtain rfl := Except.ok.inj hok
    rw [hsome]
    rfl

/-! ## The text -/

/-- What is added behind a source for the encoder. -/
def encoderText (source : List Char) : List Char :=
  if Pragma.hasEncoder source then [] else '\n' :: Pragma.encoderLine.toList ++ ['\n']

lemma ensureEncoder_eq (source : List Char) :
    Pragma.ensureEncoder source = source ++ encoderText source := by
  rw [Pragma.ensureEncoder, encoderText]
  split
  · rw [List.append_nil]
  · rw [Pragma.addLine, List.cons_append, List.append_assoc, List.cons_append]

/-- The pragma is added exactly to sources without one. -/
lemma encoderText_cases (source : List Char) :
    (∃ text, Pragma.IsEncoderPragma text ∧ text <:+: source) ∧ encoderText source = [] ∨
      (¬∃ text, Pragma.IsEncoderPragma text ∧ text <:+: source) ∧
        encoderText source = "\npragma experimental ABIEncoderV2;\n".toList := by
  rw [← Pragma.hasEncoder_iff, encoderText]
  by_cases h : Pragma.hasEncoder source = true
  · exact .inl ⟨h, if_pos h⟩
  · exact .inr ⟨h, if_neg h⟩

/-- A plan for the place behind some characters inserts there. -/
lemma apply_eq_ok {plan : Plan}
    (hposition : plan.position = .behind (Utf8.encode (source.take index))) :
    plan.apply source =
      let spliced := source.take index ++ plan.code.toList ++ source.drop index
      .ok (spliced ++ encoderText spliced ++ "\nimport \"forge-std/Test.sol\";\n".toList) := by
  have hsplice := splice_behind (source.take index) (source.drop index) plan.code.toList
  rw [List.take_append_drop] at hsplice
  rw [Plan.apply, hposition, hsplice]
  dsimp only
  rw [ensureEncoder_eq, addTestImport, Pragma.addLine, List.append_assoc _ _ ['\n']]
  rfl

/-- What is left of a text with insertions when they are taken out again. -/
lemma take_append_take_drop (source : List Char) (index : Nat) (code behind : List Char) :
    let injected := source.take index ++ code ++ source.drop index ++ behind
    injected.take (source.take index).length ++
      (injected.drop ((source.take index).length + code.length)).take (source.drop index).length =
      source := by
  have hfront : (source.take index).length + code.length =
      (source.take index ++ code).length := by rw [List.length_append]
  simp only [List.append_assoc, List.take_left]
  rw [hfront, ← List.append_assoc (source.take index) code, List.drop_left, List.take_left,
    List.take_append_drop]

/-! ## Injection -/

/-- **Injection is a pure insertion.**  For a contract that was read from the tree of a source, with
a place that ends in a brace of the source, the text that is handed to the formatter is the
source with the planned code in front of that brace, followed by the encoder pragma if the spliced
text has none, and by the import.  The planned code is a call that mints if the contract is a token
that has the function for it, in a constructor if the contract has none of its own.  So the lines
that are added are those of the inserted texts, and taking these out gives the source back. -/
theorem inject_inserts (i : Injector) {fileName : String} {tree : Json} {u : SourceUnit}
    {facts : Facts} (hread : Tree.readUnit rooms source fileName tree = .ok u)
    (hfacts : Facts.ofUnit u = .ok facts)
    (hend : EndsInBrace source index (site facts.contract)) :
    ∃ plan pragma, Plan.ofFacts facts i.amount = .ok plan ∧
      let seed :=
        if facts.isToken = true ∧ "_mint" ∈ facts.internalFunctions then
          "_mint(msg.sender, " ++ i.amount ++ "); "
        else ""
      let code := plan.code.toList
      let spliced := source.take index ++ code ++ source.drop index
      let added := pragma ++ "\nimport \"forge-std/Test.sol\";\n".toList
      let injected := spliced ++ added
      plan.code = (if facts.contract.constructor?.isNone then
          "\nconstructor() public \x7b " ++ seed ++ "\x7d" else "\n" ++ seed) ∧
      ((∃ text, Pragma.IsEncoderPragma text ∧ text <:+: spliced) ∧ pragma = [] ∨
        (¬∃ text, Pragma.IsEncoderPragma text ∧ text <:+: spliced) ∧
          pragma = "\npragma experimental ABIEncoderV2;\n".toList) ∧
      i.inject (String.ofList source) facts = (do
        logPlan facts plan
        format i.formatter (String.ofList injected)) ∧
      (splitOn '\n' injected).length =
        (splitOn '\n' source).length + code.count '\n' + added.count '\n' ∧
      injected.take index ++ (injected.drop (index + code.length)).take (source.length - index) =
        source := by
  have hlocated := Tree.isLocated_of_readUnit hread _ (Facts.contract_mem_of_ofUnit hfacts)
  obtain ⟨plan, hplan, hposition⟩ := exists_plan i.amount hlocated hend
  have hinside : (source.take index).length = index := by
    obtain ⟨hlt, -⟩ := List.getElem?_eq_some_iff.mp hend.brace
    rw [List.length_take, Nat.min_eq_left hlt.le]
  have hcode := code_of_ofFacts hplan
  rw [seedCall_eq] at hcode
  refine ⟨plan, _, hplan, hcode, encoderText_cases _, ?_, ?_, ?_⟩
  · rw [Injector.inject, hplan]
    dsimp only
    rw [String.toList_ofList, apply_eq_ok hposition]
    simp only [List.append_assoc]
  · have hsource : source.count '\n' =
        (source.take index).count '\n' + (source.drop index).count '\n' := by
      rw [← List.count_append, List.take_append_drop]
    simp only [length_splitOn, List.count_append, hsource]
    omega
  · have hback := take_append_take_drop source index plan.code.toList
    simp only [hinside, List.length_drop] at hback
    exact hback _

/-- A source in which bytes and characters are counted differently, on the line of the brace and in
front of it. -/
def umlautSource : List Char :=
  "// π\ncontract C \x7b /* é */ \x7d\n".toList

/-- Its syntax tree. -/
def umlautTree : Json :=
  .obj [("nodeType", .str "SourceUnit"), ("nodes", .arr [.obj [
    ("nodeType", .str "ContractDefinition"), ("id", .int 1), ("name", .str "C"),
    ("src", .str "6:23:0")]])]

/-- What the tree declares. -/
def umlautContract : Contract :=
  { id := 1, name := "C", location := .ofSpan (some (Utf8.encode umlautSource)) 6 23 0 }

/-- The contract gets a constructor, in front of its brace. -/
theorem inject_inserts_umlaut :
    let facts := Facts.ofMembers umlautContract [] []
    EndsInBrace umlautSource 26 (site facts.contract) ∧
      ∃ plan injected, Plan.ofFacts facts "1e20" = .ok plan ∧
        ({} : Injector).inject (String.ofList umlautSource) facts = (do
          logPlan facts plan
          format {} (String.ofList injected)) ∧
        "// π\ncontract C \x7b /* é */ \nconstructor() public \x7b \x7d\x7d\n".toList <+:
          injected := by
  have hread : Tree.readUnit (.same 8) umlautSource "C.sol" umlautTree =
      .ok { contracts := [umlautContract], fileName := "C.sol" } := by
    decide +kernel
  have hfacts : Facts.ofUnit { contracts := [umlautContract], fileName := "C.sol" } =
      .ok (.ofMembers umlautContract [] []) := by
    decide +kernel
  have hend : EndsInBrace umlautSource 26 (site umlautContract) :=
    ⟨by decide +kernel, by decide +kernel, by decide +kernel⟩
  obtain ⟨plan, pragma, hplan, hcode, -, hinject, -⟩ := inject_inserts {} hread hfacts hend
  refine ⟨hend, plan, _, hplan, hinject, ?_⟩
  have hplanned : plan.code = "\nconstructor() public \x7b \x7d" := hcode.trans (by decide +kernel)
  have hspliced : umlautSource.take 26 ++ plan.code.toList ++ umlautSource.drop 26 =
      "// π\ncontract C \x7b /* é */ \nconstructor() public \x7b \x7d\x7d\n".toList := by
    rw [hplanned]
    decide +kernel
  rw [hspliced]
  exact List.prefix_append _ _

end HoneypotAudit.Injection
