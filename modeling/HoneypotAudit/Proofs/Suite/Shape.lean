import HoneypotAudit.Proofs.Deployment.Containment
import HoneypotAudit.Proofs.Suite.Statements

/-!
# The shape of the suites

Suites are pasted behind the source of a contract, with constructor arguments in them that were
chosen by whoever deployed the contract.  The main statement, `shape_of_suites`, is that the
arguments have no say in the shape of the text.

The shape is the outline of the text two brackets deep: without literals and comments, and without
what stands in the bodies of functions.  It is that of test contracts with empty functions
(`contractText`), one for each scenario.  Brackets match, or there would be no outline.
-/

namespace HoneypotAudit.Suite

open HoneypotAudit.Abi HoneypotAudit.Deployment HoneypotAudit.Solidity HoneypotAudit.Text

/-! ## Texts of test contracts -/

/-- The state variables of a suite, behind the contract under test. -/
def stateLines : Scenario → List String
  | .honeypot => ["bool willSkip;"]
  | .hiddenMint => ["uint256 totalSupply;"]
  | .fakeOwnershipRenunciation => []
  | .hiddenTransfer => ["uint256 balance;", "bool willSkip;"]
  | .hiddenFeeModifier => ["uint256 fee;", "bool willSkip;"]
  | .hiddenTransferRevert => ["bool willSkip;"]

/-- The text of a function with something between its braces. -/
def functionText (name modifier : String) (body : List Char) : List Char :=
  ("\n    function " ++ name ++ "() " ++ modifier ++ " ").toList ++ '{' :: (body ++ ['}']) ++ ['\n']

/-- The text of a test contract: its state variables, and two functions with something between their
braces. -/
def contractText (target : String) (s : Scenario) (setUp invariant : List Char) : List Char :=
  ("\ncontract " ++ s.suiteName ++ " is Test ").toList ++
    '{' :: (("\n    " ++ target ++ " target;\n").toList ++ textOf (indent (stateLines s)) ++
      functionText "setUp" "public" setUp ++
      functionText s.invariantName "external" invariant ++ ['}']) ++ ['\n']

/-- Lines as they stand between the braces of a function. -/
def bodyText (lines : List String) : List Char :=
  '\n' :: textOf (indent (indent lines)) ++ "    ".toList

lemma append_ne_empty {a b : String} (h : b ≠ "") : a ++ b ≠ "" := by
  simp [h]

lemma textOf_indent_block (header : String) (body : List String) :
    textOf (indent (block header body)) =
      "    ".toList ++ header.toList ++ " ".toList ++ '{' :: (bodyText body ++ ['}']) ++
        ['\n'] := by
  have hblock : block header body = [header ++ " \x7b"] ++ (indent body ++ ["\x7d"]) := by
    simp [block]
  rw [hblock, indent_append, indent_append, indent_singleton (append_ne_empty (by simp)),
    indent_singleton (by simp), bodyText]
  simp

/-- The text of a suite is that of a test contract. -/
lemma toList_render_eq {s : Suite} (hstate : s.state = stateLines s.scenario) :
    '\n' :: s.render.toList = contractText s.target s.scenario (bodyText (statements s.setUp))
      (bodyText (statements s.invariant)) := by
  have hlines : s.lines = ["contract " ++ s.scenario.suiteName ++ " is Test \x7b"] ++
      (indent ([s.target ++ " target;"] ++ s.state ++ [""] ++
        block "function setUp() public" (statements s.setUp) ++ [""] ++
        block ("function " ++ s.scenario.invariantName ++ "() external")
          (statements s.invariant)) ++ ["\x7d"]) := by
    simp [lines, block, String.append_assoc]
  rw [toList_render, hlines]
  simp only [indent_append, textOf_append, textOf_indent_block, hstate, contractText, functionText,
    indent_singleton (append_ne_empty (show " target;" ≠ "" by simp))]
  simp [indent]

/-! ## Outlines of test contracts -/

section Outlines

variable {depth : Nat} {target : String} {setUp invariant body : List Char}

lemma outlines_word (hdepth : depth < 2) {cs : List Char} (h : isWord cs = true) :
    Outlines 2 depth cs cs :=
  outlines_of_bare hdepth (isBare_of_isWord h)

lemma outlines_code (text : String) (hdepth : depth < 2) {cs : List Char}
    (htext : text = String.ofList cs) (h : cs.all isBare = true) :
    Outlines 2 depth text.toList text.toList := by
  rw [htext, String.toList_ofList]
  exact outlines_of_bare hdepth (List.all_eq_true.mp h)

/-- **The outline of a function** has nothing between its braces. -/
lemma outlines_functionText (name modifier : String) (hname : isWord name.toList = true)
    (hmodifier : isWord modifier.toList = true) (hbody : Closed body) :
    Outlines 2 1 (functionText name modifier body) (functionText name modifier []) := by
  have hsplit : ∀ body, functionText name modifier body = "\n    function ".toList ++
      (name.toList ++ (('(' :: ([] ++ [')'])) ++ (" ".toList ++ (modifier.toList ++
        (" ".toList ++ (('{' :: (body ++ ['}'])) ++ "\n".toList)))))) := fun body => by
    simp [functionText]
  have hblank : Outlines 2 1 " ".toList " ".toList :=
    outlines_code _ (by decide) rfl (by decide)
  rw [hsplit, hsplit]
  exact (outlines_code _ (by decide) rfl (by decide)).append <|
    (outlines_word (by decide) hname).append <|
    (outlines_nil.bracket .round (by decide)).append <|
    hblank.append <| (outlines_word (by decide) hmodifier).append <| hblank.append <|
    ((hbody.outlines (by decide)).bracket .curly (by decide)).append <|
    outlines_code _ (by decide) rfl (by decide)

lemma isWord_suiteName (s : Scenario) : isWord s.suiteName.toList = true := by
  cases s <;> decide

lemma isWord_invariantName (s : Scenario) : isWord s.invariantName.toList = true := by
  cases s <;> decide

lemma outlines_stateLines (s : Scenario) :
    Outlines 2 1 (textOf (indent (stateLines s))) (textOf (indent (stateLines s))) := by
  have hbare : (textOf (indent (stateLines s))).all isBare = true := by cases s <;> decide
  exact outlines_of_bare (by decide) (List.all_eq_true.mp hbare)

/-- **The outline of a test contract** has nothing between the braces of its functions. -/
lemma outlines_contractText (s : Scenario) (htarget : isWord target.toList = true)
    (hsetUp : Closed setUp) (hinvariant : Closed invariant) :
    Outlines 2 0 (contractText target s setUp invariant) (contractText target s [] []) := by
  have hsplit : ∀ setUp invariant, contractText target s setUp invariant =
      "\ncontract ".toList ++ (s.suiteName.toList ++ (" is Test ".toList ++
        (('{' :: (("\n    ".toList ++ (target.toList ++ (" target;\n".toList ++
          (textOf (indent (stateLines s)) ++ (functionText "setUp" "public" setUp ++
            functionText s.invariantName "external" invariant))))) ++ ['}'])) ++
          "\n".toList))) := fun setUp invariant => by
    simp [contractText]
  have hmembers := (outlines_stateLines s).append <|
    (outlines_functionText "setUp" "public" (by decide) (by decide) hsetUp).append <|
    outlines_functionText s.invariantName "external" (isWord_invariantName s) (by decide) hinvariant
  have hinside := (outlines_code "\n    " (by decide) rfl (by decide)).append <|
    (outlines_word (by decide) htarget).append <|
    (outlines_code " target;\n" (by decide) rfl (by decide)).append hmembers
  rw [hsplit, hsplit]
  exact (outlines_code _ (by decide) rfl (by decide)).append <|
    (outlines_word (by decide) (isWord_suiteName s)).append <|
    (outlines_code _ (by decide) rfl (by decide)).append <|
    (hinside.bracket .curly (by decide)).append <|
    outlines_code _ (by decide) rfl (by decide)

end Outlines

/-! ## The suites of a contract -/

/-- The deployment of a contract, as it stands in a set-up. -/
def deploymentText (facts : Facts) (d : Decoded) : List Char :=
  textOf (indent (indent (deploy facts.name d.arguments d.statements).lines))

lemma closed_bodyText {lines : List String} (h : ClosedLines lines) : Closed (bodyText lines) := by
  have hlines := closed_newline.append (h 2)
  exact hlines.append (closed_code rfl (by decide))

section Suites

variable {amounts : Amounts}

/-- Only the deployment in a suite depends on the constructor, and everything else is closed. -/
lemma exists_suiteFor_eq (facts : Facts) (hseed : isWord amounts.seed.toList = true)
    (s : Scenario) :
    ∃ rest invariant, ClosedFragments rest ∧ ClosedFragments invariant ∧
      ∀ deployment, suiteFor amounts facts deployment s =
        ⟨s, facts.name, stateLines s, deployment :: rest, invariant⟩ := by
  have hclosed : Closed amounts.seed.toList := closed_of_isWord hseed
  have hguard : ClosedFragments (if s.dependsOnBalance then [skipGuard] else []) := by
    split
    · exact closedFragments_cons closedLines_skipGuard closedFragments_nil
    · exact closedFragments_nil
  obtain ⟨state, hstate, hrest, hinvariant, heq⟩ : ∃ state,
      state ++ (if s.dependsOnBalance then ["bool willSkip;"] else []) = stateLines s ∧
        Opens (fun deployment => bodies amounts facts deployment s) state := by
    cases s with
    | honeypot => exact ⟨_, rfl, opens_honeypotBodies hclosed⟩
    | hiddenMint => exact ⟨_, rfl, opens_hiddenMintBodies⟩
    | fakeOwnershipRenunciation => exact ⟨_, rfl, opens_fakeOwnershipRenunciationBodies⟩
    | hiddenTransfer => exact ⟨_, rfl, opens_hiddenTransferBodies hclosed⟩
    | hiddenFeeModifier => exact ⟨_, rfl, opens_hiddenFeeModifierBodies hclosed⟩
    | hiddenTransferRevert => exact ⟨_, rfl, opens_hiddenTransferRevertBodies hclosed⟩
  refine ⟨_, _, hrest, hguard.append hinvariant, fun deployment => ?_⟩
  rw [suiteFor]
  simp only [heq deployment, hstate]

/-- **Constructor arguments do not change the shape of the suites.**  Whatever the raw arguments of
a contract are, its suites are one test contract for each scenario, in order, with a function
`setUp` and an invariant, and their brackets match.  Two texts for different raw arguments are the
same but for the deployment, with which every `setUp` begins. -/
theorem shape_of_suites {facts : Facts} {types : List TypeName}
    (hname : isDotted facts.name.toList = true) (hseed : isWord amounts.seed.toList = true)
    (htypes : ∀ T ∈ types, IsOrdinary T) :
    ∃ rest invariant : Scenario → List Char, ∀ rooms blob d,
      decodeArguments rooms types blob = .ok d →
      (renderAll (suitesFor amounts facts d.arguments d.statements)).toList =
          (scenariosFor facts).flatMap (fun s => contractText facts.name s
            ('\n' :: deploymentText facts d ++ rest s) (invariant s)) ∧
        outline? 2 (renderAll (suitesFor amounts facts d.arguments d.statements)).toList =
          some ((scenariosFor facts).flatMap fun s => contractText facts.name s [] []) := by
  have hword := isWord_of_isDotted hname
  choose rest invariant hrest hinvariant hsuite using exists_suiteFor_eq facts hseed
  refine ⟨fun s => textOf (indent (indent (statements (rest s)))) ++ "    ".toList,
    fun s => bodyText (statements (invariant s)), fun rooms blob d hd => ?_⟩
  obtain ⟨harguments, hstatements⟩ := closed_of_decodeArguments htypes hd
  have hdeploy := closedLines_deploy (closed_of_isWord hword) harguments hstatements
  have hbody : ∀ s, bodyText (statements (deploy facts.name d.arguments d.statements :: rest s)) =
      '\n' :: deploymentText facts d ++
        (textOf (indent (indent (statements (rest s)))) ++ "    ".toList) := fun s => by
    simp [bodyText, statements, indent_append, deploymentText]
  have htext : (renderAll (suitesFor amounts facts d.arguments d.statements)).toList =
      (scenariosFor facts).flatMap (fun s => contractText facts.name s
        ('\n' :: deploymentText facts d ++
          (textOf (indent (indent (statements (rest s)))) ++ "    ".toList))
        (bodyText (statements (invariant s)))) := by
    rw [renderAll, suitesFor, String.toList_join, List.map_map, List.flatMap_map]
    refine List.flatMap_congr fun s _ => ?_
    have hrender := toList_render_eq (s := suiteFor amounts facts
      (deploy facts.name d.arguments d.statements) s) (by rw [hsuite])
    rw [hsuite] at hrender
    simp only [Function.comp_apply, String.toList_append, hsuite, ← hbody]
    exact hrender
  refine ⟨htext, outline?_of_outlines ?_⟩
  rw [htext]
  refine outlines_flatMap fun s _ => outlines_contractText s hword ?_ ?_
  · rw [← hbody]
    exact closed_bodyText (closedFragments_cons hdeploy (hrest s)).statements
  · exact closed_bodyText (hinvariant s).statements

end Suites

/-- The facts of a token with an owner. -/
def ownedToken : Facts :=
  { contract := { id := 1, name := "Token" }
    isToken := true
    isOwnable := true
    hasBalance := true }

/-- The types of texts and of an enum. -/
def textsAndMode : List TypeName :=
  [.array (.elementary "string") .dynamic, .named "Mode" "enum Token.Mode"]

/-- A text that would end its literal, the set-up and the contract, and begin another contract. -/
def breakoutText : String :=
  "\"); \x7d \x7d contract Evil \x7b /*\n\\"

/-- Raw arguments with the text as the only one of an array. -/
def breakoutBlob : Blob :=
  .bytes (word 64 ++ word 2 ++ word 1 ++ word 32 ++ word 28 ++ Utf8.encode breakoutText.toList ++
    List.replicate 4 0)

/-- A text that is meant to break out of its literal stays inside. -/
theorem shape_of_suites_breakout :
    ∃ d, decodeArguments (.same 8) textsAndMode breakoutBlob = .ok d ∧
      d.arguments = ["ctorArg0", "Token.Mode(2)"] ∧
      d.statements = ["string[] memory ctorArg0 = new string[](1);",
        "ctorArg0[0] = \"\\\"); \x7d \x7d contract Evil \x7b /*\\n\\\\\";"] ∧
      outline? 2 (renderAll (suitesFor {} ownedToken d.arguments d.statements)).toList =
        some ((scenariosFor ownedToken).flatMap fun s => contractText ownedToken.name s [] []) := by
  have hordinary : ∀ T ∈ textsAndMode, IsOrdinary T := by
    simp only [textsAndMode, List.forall_mem_cons]
    refine ⟨.inr (by decide), fun described spelled abi sol _ hsol => ?_, List.forall_mem_nil _⟩
    cases spelled with
    | zero => cases hsol
    | succ spelled =>
      obtain rfl : "Token.Mode".toList = sol := Except.ok.inj hsol
      decide
  have hdecode : decodeArguments (.same 8) textsAndMode breakoutBlob = .ok
      { arguments := ["ctorArg0", "Token.Mode(2)"], signature := ["string[]", "uint8"],
        statements := ["string[] memory ctorArg0 = new string[](1);",
          "ctorArg0[0] = \"\\\"); \x7d \x7d contract Evil \x7b /*\\n\\\\\";"] } := by
    decide +kernel
  obtain ⟨rest, invariant, hshape⟩ :=
    @shape_of_suites {} ownedToken textsAndMode (by decide) (by decide) hordinary
  exact ⟨_, hdecode, rfl, rfl, (hshape _ breakoutBlob _ hdecode).2⟩

end HoneypotAudit.Suite
