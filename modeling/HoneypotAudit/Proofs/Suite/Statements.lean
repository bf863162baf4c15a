import HoneypotAudit.Proofs.Solidity.Containment
import HoneypotAudit.Suite.Synthesis
import Mathlib.Logic.Function.Iterate

/-!
# The statements of the suites

A suite is made of fragments, and a fragment of lines.  Lines are closed (`ClosedLines`) if they add
nothing to the outline of the code around them, however far they are moved in.  A line is closed if
its brackets match, where any gap in it is filled with something closed (`closed_gap`); a block is
closed if its header and its body are (`closedLines_block`).

All suites begin their set-up with the deployment, and have nothing but closed lines behind it
(`Opens`).
-/

namespace HoneypotAudit.Suite

open HoneypotAudit.Text HoneypotAudit.Solidity

/-! ## Lines -/

/-- Lines as a text; each of them is ended. -/
def textOf (lines : List String) : List Char :=
  lines.flatMap fun line => line.toList ++ ['\n']

@[simp] lemma textOf_nil : textOf [] = [] :=
  rfl

@[simp] lemma textOf_cons (line : String) (lines : List String) :
    textOf (line :: lines) = line.toList ++ '\n' :: textOf lines := by
  simp [textOf]

@[simp] lemma textOf_append (lines lines' : List String) :
    textOf (lines ++ lines') = textOf lines ++ textOf lines' := by
  simp [textOf]

lemma toList_intercalate_append {lines : List String} (h : lines ≠ []) :
    ("\n".intercalate lines ++ "\n").toList = textOf lines := by
  rw [String.toList_append, String.toList_intercalate]
  induction lines with
  | nil => exact absurd rfl h
  | cons line lines ih =>
    cases lines with
    | nil => simp
    | cons next lines =>
      have hrest := ih (by simp)
      rw [List.map_cons] at hrest
      rw [List.map_cons, List.map_cons, List.intercalate_cons_cons, List.append_assoc, hrest]
      simp

/-- The text of a suite is that of its lines. -/
lemma toList_render (s : Suite) : s.render.toList = textOf s.lines :=
  toList_intercalate_append (by simp [lines, block])

lemma indent_append (lines lines' : List String) :
    indent (lines ++ lines') = indent lines ++ indent lines' :=
  List.map_append

lemma indent_singleton {line : String} (h : line ≠ "") : indent [line] = ["    " ++ line] := by
  simp [indent, h]

lemma iterate_indent_append (n : Nat) (lines lines' : List String) :
    indent^[n] (lines ++ lines') = indent^[n] lines ++ indent^[n] lines' := by
  induction n generalizing lines lines' with
  | zero => rfl
  | succ n ih => simp only [Function.iterate_succ, Function.comp_apply, indent_append, ih]

lemma iterate_indent_nil (n : Nat) : indent^[n] [] = [] := by
  induction n with
  | zero => rfl
  | succ n ih => rw [Function.iterate_succ, Function.comp_apply]; exact ih

/-- A line that is moved in has nothing but blanks in front. -/
lemma exists_blanks (n : Nat) (line : String) :
    ∃ width, textOf (indent^[n] [line]) = List.replicate width ' ' ++ line.toList ++ ['\n'] := by
  induction n generalizing line with
  | zero => exact ⟨0, by simp⟩
  | succ n ih =>
    rw [Function.iterate_succ, Function.comp_apply]
    by_cases hline : line = ""
    · have hsame : indent [line] = [line] := by simp [indent, hline]
      rw [hsame]
      exact ih line
    · rw [indent_singleton hline]
      obtain ⟨width, htext⟩ := ih ("    " ++ line)
      refine ⟨width + 4, ?_⟩
      rw [htext, List.replicate_add]
      simp

/-- Lines are closed, however far they are moved in. -/
def ClosedLines (lines : List String) : Prop :=
  ∀ n, Closed (textOf (indent^[n] lines))

section ClosedLines

variable {lines lines' : List String}

lemma closed_blanks (width : Nat) : Closed (List.replicate width ' ') :=
  closed_of_bare fun c hc => by rw [List.eq_of_mem_replicate hc]; decide

lemma closed_newline : Closed ['\n'] :=
  closed_of_bare (by simp [isBare, marks])

lemma closedLines_nil : ClosedLines [] := by
  intro n
  rw [iterate_indent_nil]
  exact closed_nil

lemma ClosedLines.append (h : ClosedLines lines) (h' : ClosedLines lines') :
    ClosedLines (lines ++ lines') := by
  intro n
  rw [iterate_indent_append, textOf_append]
  exact (h n).append (h' n)

lemma closedLines_singleton {line : String} (h : Closed line.toList) : ClosedLines [line] := by
  intro n
  obtain ⟨width, htext⟩ := exists_blanks n line
  rw [htext]
  exact ((closed_blanks width).append h).append closed_newline

lemma closedLines_cons {line : String} (hline : Closed line.toList) (h : ClosedLines lines) :
    ClosedLines (line :: lines) :=
  (closedLines_singleton hline).append h

/-- Lines that are closed by themselves. -/
lemma closedLines_of_forall (h : ∀ line ∈ lines, Closed line.toList) : ClosedLines lines := by
  induction lines with
  | nil => exact closedLines_nil
  | cons line lines ih =>
    obtain ⟨hline, hlines⟩ := List.forall_mem_cons.mp h
    exact closedLines_cons hline (ih hlines)

/-- A block is closed, though its first line and its last are not. -/
lemma closedLines_block {header : String} (hheader : Closed header.toList)
    (hlines : ClosedLines lines) : ClosedLines (block header lines) := by
  intro n
  have hblock : block header lines = [header ++ " \x7b"] ++ (indent lines ++ ["\x7d"]) := by
    simp [block]
  obtain ⟨front, hopen⟩ := exists_blanks n (header ++ " \x7b")
  obtain ⟨back, hclose⟩ := exists_blanks n "\x7d"
  have htext : textOf (indent^[n] (block header lines)) =
      List.replicate front ' ' ++ (header.toList ++ (List.replicate 1 ' ' ++
        ('{' :: ((['\n'] ++ (textOf (indent^[n + 1] lines) ++ List.replicate back ' ')) ++ ['}'])
          ++ ['\n']))) := by
    rw [hblock, iterate_indent_append, iterate_indent_append, textOf_append, textOf_append, hopen,
      hclose, Function.iterate_succ, Function.comp_apply]
    simp
  have hinside := closed_newline.append ((hlines (n + 1)).append (closed_blanks back))
  rw [htext]
  exact (closed_blanks front).append (hheader.append ((closed_blanks 1).append
    ((hinside.bracket .curly).append closed_newline)))

end ClosedLines

/-! ## Fragments -/

lemma joinWith_eq_intercalate (sep : List Char) (parts : List (List Char)) :
    joinWith sep parts = sep.intercalate parts := by
  induction parts with
  | nil => rfl
  | cons part parts ih =>
    cases parts with
    | nil => simp [joinWith]
    | cons next parts => simp [joinWith, ih, List.intercalate_cons_cons]

/-- A list of fragments whose lines are closed. -/
def ClosedFragments (fragments : List Fragment) : Prop :=
  ∀ f ∈ fragments, ClosedLines f.lines

section Fragments

variable {amounts : Amounts} {facts : Facts}

lemma closedFragments_nil : ClosedFragments [] :=
  nofun

lemma closedFragments_cons {f : Fragment} {fragments : List Fragment} (hf : ClosedLines f.lines)
    (h : ClosedFragments fragments) : ClosedFragments (f :: fragments) :=
  List.forall_mem_cons.mpr ⟨hf, h⟩

lemma ClosedFragments.statements {fragments : List Fragment} (h : ClosedFragments fragments) :
    ClosedLines (statements fragments) := by
  induction fragments with
  | nil => exact closedLines_nil
  | cons f fs ih =>
    obtain ⟨hf, hfs⟩ := List.forall_mem_cons.mp h
    exact hf.append (ih hfs)

lemma ClosedFragments.append {fragments fragments' : List Fragment} (h : ClosedFragments fragments)
    (h' : ClosedFragments fragments') : ClosedFragments (fragments ++ fragments') :=
  List.forall_mem_append.mpr ⟨h, h'⟩

/-! ### Lines -/

/-- A line of code in which brackets match.  Its characters come as a list: they are found at once,
while it takes long to read them off the line. -/
lemma closed_code {line : String} {cs : List Char} (hline : line = String.ofList cs)
    (h : isNested cs = true) : Closed line.toList := by
  rw [hline, String.toList_ofList]
  exact closed_of_isNested h

/-- A line of code in which brackets match, with a gap that is filled. -/
lemma closed_gap {front back text : String} {fs bs : List Char} (hfront : front = String.ofList fs)
    (hback : back = String.ofList bs) (h : isNested (fs ++ bs) = true)
    (htext : Closed text.toList) : Closed (front ++ text ++ back).toList := by
  rw [hfront, hback, String.toList_append, String.toList_append, String.toList_ofList,
    String.toList_ofList]
  exact closed_fill h htext

lemma closed_append {text text' : String} (h : Closed text.toList) (h' : Closed text'.toList) :
    Closed (text ++ text').toList := by
  rw [String.toList_append]
  exact h.append h'

lemma closed_balanceOf {account : String} (h : Closed account.toList) :
    Closed (balanceOf account).toList :=
  closed_gap rfl rfl (by decide) h

lemma closed_transferTo {account amount : String} (haccount : Closed account.toList)
    (hamount : Closed amount.toList) : Closed (transferTo account amount).toList := by
  have hcomma : Closed ", ".toList := closed_code rfl (by decide)
  have hcall : Closed ("target.transfer(" ++ (account ++ ", " ++ amount) ++ ")").toList :=
    closed_gap rfl rfl (by decide) (closed_append (closed_append haccount hcomma) hamount)
  unfold transferTo
  simpa only [String.append_assoc] using hcall

lemma closed_holder : Closed holder.toList :=
  closed_code rfl (by decide)

lemma closed_recipient : Closed recipient.toList :=
  closed_code rfl (by decide)

lemma closed_actAs {account : String} (h : Closed account.toList) : Closed (actAs account).toList :=
  closed_gap rfl rfl (by decide) h

lemma closed_keepBalance {name : String} (h : Closed name.toList) :
    Closed (keepBalance name).toList := by
  have hend : Closed (" = " ++ balanceOf recipient ++ ";").toList :=
    closed_gap rfl rfl (by decide) (closed_balanceOf closed_recipient)
  have hline : Closed ("uint256 " ++ name ++ (" = " ++ balanceOf recipient ++ ";")).toList :=
    closed_append (closed_append (closed_code rfl (by decide)) h) hend
  unfold keepBalance
  simpa only [String.append_assoc] using hline

/-! ### Deployments and balances -/

/-- **A deployment is closed** if its arguments are, and the statements in front of it. -/
lemma closedLines_deploy {name : String} {arguments prelude : List String}
    (hname : Closed name.toList) (harguments : ∀ e ∈ arguments, Closed e.toList)
    (hprelude : ∀ s ∈ prelude, Closed s.toList) :
    ClosedLines (deploy name arguments prelude).lines := by
  have hlist : Closed (", ".intercalate arguments).toList := by
    have hcomma : Closed [',', ' '] := closed_of_isNested (by decide)
    have hjoin : Closed (joinWith [',', ' '] (arguments.map String.toList)) :=
      closed_joinWith hcomma (by simpa)
    rw [joinWith_eq_intercalate] at hjoin
    rw [String.toList_intercalate]
    exact hjoin
  have hcall : Closed ("(" ++ ", ".intercalate arguments ++ ");").toList :=
    closed_gap rfl rfl (by decide) hlist
  have hnew : Closed "target = new ".toList := closed_code rfl (by decide)
  have hline := closed_append (closed_append hnew hname) hcall
  refine (closedLines_of_forall hprelude).append (closedLines_singleton ?_)
  simpa only [String.append_assoc] using hline

lemma closedFragments_seedBalance (hseed : Closed amounts.seed.toList) :
    ClosedFragments (seedBalance amounts facts) := by
  have hdeal : Closed ("deal(address(target), address(this), " ++ amounts.seed ++ ");").toList :=
    closed_gap rfl rfl (by decide) hseed
  unfold seedBalance
  split
  · exact closedFragments_cons (closedLines_singleton hdeal) closedFragments_nil
  · exact closedFragments_nil

lemma closedLines_ownerTokens (tokens : OwnerTokens) : ClosedLines tokens.lines := by
  have hsend : Closed (transferTo "testAddress" (balanceOf "target.owner()")).toList :=
    closed_transferTo (closed_code rfl (by decide)) (closed_balanceOf (closed_code rfl (by decide)))
  cases tokens with
  | kept => exact closedLines_nil
  | moved => exact closedLines_singleton (closed_append hsend (closed_code rfl (by decide)))
  | tried => exact closedLines_singleton (closed_gap rfl rfl (by decide) hsend)

lemma closedFragments_neutralizeOwnership (tokens : OwnerTokens) :
    ClosedFragments (neutralizeOwnership facts tokens) := by
  have hfront : ClosedLines
      ["address testAddress = address(this);", "vm.startPrank(address(target.owner()));"] :=
    closedLines_cons (closed_code rfl (by decide)) <|
      closedLines_singleton (closed_code rfl (by decide))
  have hback : ClosedLines ["target.transferOwnership(testAddress);", "vm.stopPrank();"] :=
    closedLines_cons (closed_code rfl (by decide)) <|
      closedLines_singleton (closed_code rfl (by decide))
  unfold neutralizeOwnership
  split
  · exact closedFragments_cons ((hfront.append (closedLines_ownerTokens tokens)).append hback)
      closedFragments_nil
  · exact closedFragments_nil

lemma closedFragments_fundHolder {amount : String} {more : List String}
    (hamount : Closed amount.toList) (hmore : ClosedLines more) :
    ClosedFragments (fundHolder amount more) := by
  have hcheck : ClosedLines ["willSkip = " ++ balanceOf "address(this)" ++ " == 0;"] :=
    closedLines_singleton
      (closed_gap rfl rfl (by decide) (closed_balanceOf (closed_code rfl (by decide))))
  have hsend : Closed (transferTo holder amount ++ ";").toList :=
    closed_append (closed_transferTo closed_holder hamount) (closed_code rfl (by decide))
  have hheader : Closed "if (!willSkip)".toList := closed_code rfl (by decide)
  have hfund := closedLines_block hheader ((closedLines_singleton hsend).append hmore)
  have hmark : ClosedLines ["if (willSkip) vm.skip(true);"] :=
    closedLines_singleton (closed_code rfl (by decide))
  exact closedFragments_cons hcheck (closedFragments_cons hfund
    (closedFragments_cons hmark closedFragments_nil))

lemma closedLines_timeSkip : ClosedLines (timeSkip amounts).lines := by
  have hseconds : Closed (String.ofList (signedDecimal amounts.skippedSeconds)).toList := by
    rw [String.toList_ofList]
    exact closed_of_isWord (isWord_signedDecimal _)
  exact closedLines_singleton (closed_gap rfl rfl (by decide) hseconds)

/-! ### The bodies of the suites -/

lemma closed_stopActing : Closed stopActing.toList :=
  closed_code rfl (by decide)

lemma closedLines_targetSelf : ClosedLines targetSelf.lines :=
  closedLines_singleton (closed_code rfl (by decide))

lemma closedLines_skipGuard : ClosedLines skipGuard.lines :=
  closedLines_singleton (closed_code rfl (by decide))

/-- The set-up of a suite begins with the deployment, whatever that is, and the rest of the suite
does not depend on it and is closed. -/
inductive Opens (b : Fragment → Bodies) (state : List String) : Prop
  | mk {rest invariant : List Fragment} (hrest : ClosedFragments rest)
      (hinvariant : ClosedFragments invariant)
      (heq : ∀ deployment, b deployment = { state, setUp := deployment :: rest, invariant }) :
      Opens b state

/-- The statement with which the holder sends tokens. -/
lemma closed_sending {amount : String} (hamount : Closed amount.toList) :
    Closed (transferTo recipient amount ++ ";").toList :=
  closed_append (closed_transferTo closed_recipient hamount) (closed_code rfl (by decide))

/-- The statements in front of it. -/
lemma closedLines_holding : ClosedLines [actAs holder, keepBalance "balanceBefore"] :=
  closedLines_cons (closed_actAs closed_holder) <|
    closedLines_singleton (closed_keepBalance (closed_code rfl (by decide)))

lemma opens_honeypotBodies (hseed : Closed amounts.seed.toList) :
    Opens (honeypotBodies amounts facts) [] := by
  have hsend : ClosedLines [transferTo recipient "100" ++ ";", keepBalance "balanceAfter",
      stopActing, "assertGt(balanceAfter, balanceBefore);"] :=
    closedLines_cons (closed_sending (closed_code rfl (by decide))) <|
      closedLines_cons (closed_keepBalance (closed_code rfl (by decide))) <|
      closedLines_cons closed_stopActing <| closedLines_singleton (closed_code rfl (by decide))
  have hheader : Closed ("if (" ++ balanceOf holder ++ " > 0)").toList :=
    closed_gap rfl rfl (by decide) (closed_balanceOf closed_holder)
  have hfund : ClosedFragments (fundHolder "100000000" []) :=
    closedFragments_fundHolder (closed_code rfl (by decide)) closedLines_nil
  refine .mk ?_ ?_ fun _ => rfl
  · exact (((closedFragments_seedBalance hseed).append
      (closedFragments_neutralizeOwnership .moved)).append hfund).append
        (closedFragments_cons closedLines_timeSkip closedFragments_nil)
  · exact closedFragments_cons (closedLines_block hheader (closedLines_holding.append hsend))
      closedFragments_nil

lemma opens_hiddenMintBodies : Opens (hiddenMintBodies amounts facts) ["uint256 totalSupply;"] := by
  have hrecord : ClosedLines ["totalSupply = target.totalSupply();"] :=
    closedLines_singleton (closed_code rfl (by decide))
  have hassert : ClosedLines ["assertTrue(totalSupply >= target.totalSupply());"] :=
    closedLines_singleton (closed_code rfl (by decide))
  refine .mk ?_ ?_ fun _ => rfl
  · exact (closedFragments_neutralizeOwnership .moved).append (closedFragments_cons hrecord
      (closedFragments_cons closedLines_targetSelf
        (closedFragments_cons closedLines_timeSkip closedFragments_nil)))
  · exact closedFragments_cons hassert closedFragments_nil

lemma opens_fakeOwnershipRenunciationBodies :
    Opens (fakeOwnershipRenunciationBodies amounts facts) [] := by
  have hrenounce : ClosedLines
      ["target.transferOwnership(" ++ holder ++ ");", "excludeSender(" ++ holder ++ ");"] :=
    closedLines_cons (closed_gap rfl rfl (by decide) closed_holder) <|
      closedLines_singleton (closed_gap rfl rfl (by decide) closed_holder)
  have hassert : ClosedLines ["assertTrue(target.owner() == " ++ holder ++
      " && target.owner() != address(0x0));"] :=
    closedLines_singleton (closed_gap rfl rfl (by decide) closed_holder)
  refine .mk ?_ ?_ fun _ => rfl
  · exact (closedFragments_neutralizeOwnership .kept).append
      (closedFragments_cons closedLines_targetSelf (closedFragments_cons hrenounce
        (closedFragments_cons closedLines_timeSkip closedFragments_nil)))
  · exact closedFragments_cons hassert closedFragments_nil

lemma opens_hiddenTransferBodies (hseed : Closed amounts.seed.toList) :
    Opens (hiddenTransferBodies amounts facts) ["uint256 balance;"] := by
  have hkeep : ClosedLines ["balance = " ++ balanceOf holder ++ ";"] :=
    closedLines_singleton (closed_gap rfl rfl (by decide) (closed_balanceOf closed_holder))
  have hexclude : ClosedLines ["excludeSender(" ++ holder ++ ");"] :=
    closedLines_singleton (closed_gap rfl rfl (by decide) closed_holder)
  have hassert : ClosedLines ["assertTrue(" ++ balanceOf holder ++ " >= balance);"] :=
    closedLines_singleton (closed_gap rfl rfl (by decide) (closed_balanceOf closed_holder))
  have hfund : ClosedFragments
      (fundHolder "100000000" ["balance = " ++ balanceOf holder ++ ";"]) :=
    closedFragments_fundHolder (closed_code rfl (by decide)) hkeep
  refine .mk ?_ ?_ fun _ => rfl
  · exact (((closedFragments_seedBalance hseed).append
      (closedFragments_neutralizeOwnership .moved)).append hfund).append
        (closedFragments_cons closedLines_targetSelf (closedFragments_cons hexclude
          (closedFragments_cons closedLines_timeSkip closedFragments_nil)))
  · exact closedFragments_cons hassert closedFragments_nil

lemma opens_hiddenFeeModifierBodies (hseed : Closed amounts.seed.toList) :
    Opens (hiddenFeeModifierBodies amounts facts) ["uint256 fee;"] := by
  have hafter : Closed (keepBalance "balanceAfter").toList :=
    closed_keepBalance (closed_code rfl (by decide))
  have hmeasure : ClosedLines [transferTo recipient "1e5" ++ ";", keepBalance "balanceAfter",
      "fee = 1e5 - (balanceAfter - balanceBefore);", stopActing] :=
    closedLines_cons (closed_sending (closed_code rfl (by decide))) <|
      closedLines_cons hafter <| closedLines_cons (closed_code rfl (by decide)) <|
      closedLines_singleton closed_stopActing
  have hcompare : ClosedLines ["uint256 currentFee = 1e5 - (balanceAfter - balanceBefore);",
      stopActing, "assertEq(fee, currentFee);"] :=
    closedLines_cons (closed_code rfl (by decide)) <| closedLines_cons closed_stopActing <|
      closedLines_singleton (closed_code rfl (by decide))
  have hfund : ClosedFragments (fundHolder "1e6" []) :=
    closedFragments_fundHolder (closed_code rfl (by decide)) closedLines_nil
  have htry : Closed ("try " ++ transferTo recipient "1e5" ++ " returns (bool success)").toList :=
    closed_gap rfl rfl (by decide)
      (closed_transferTo closed_recipient (closed_code rfl (by decide)))
  have hif : Closed "if (success || balanceAfter > balanceBefore)".toList :=
    closed_code rfl (by decide)
  have hcatch : Closed "catch".toList := closed_code rfl (by decide)
  refine .mk ?_ ?_ fun _ => rfl
  · exact (((closedFragments_seedBalance hseed).append
      (closedFragments_neutralizeOwnership .tried)).append hfund).append
        (closedFragments_cons (closedLines_block (closed_code rfl (by decide))
            (closedLines_holding.append hmeasure))
          (closedFragments_cons closedLines_targetSelf
            (closedFragments_cons closedLines_timeSkip closedFragments_nil)))
  · exact closedFragments_cons ((closedLines_holding.append (closedLines_block htry
      ((closedLines_singleton hafter).append (closedLines_block hif hcompare)))).append
        (closedLines_block hcatch (closedLines_singleton closed_stopActing))) closedFragments_nil

lemma opens_hiddenTransferRevertBodies (hseed : Closed amounts.seed.toList) :
    Opens (hiddenTransferRevertBodies amounts facts) [] := by
  have hdrain : ClosedLines [actAs holder, "uint256 selfBalance = " ++ balanceOf holder ++ ";",
      transferTo recipient "selfBalance" ++ ";", stopActing] :=
    closedLines_cons (closed_actAs closed_holder) <|
      closedLines_cons (closed_gap rfl rfl (by decide) (closed_balanceOf closed_holder)) <|
      closedLines_cons (closed_sending (closed_code rfl (by decide))) <|
      closedLines_singleton closed_stopActing
  have hfund : ClosedFragments (fundHolder "100000000" []) :=
    closedFragments_fundHolder (closed_code rfl (by decide)) closedLines_nil
  refine .mk ?_ ?_ fun _ => rfl
  · exact (((closedFragments_seedBalance hseed).append
      (closedFragments_neutralizeOwnership .tried)).append hfund).append
        (closedFragments_cons closedLines_targetSelf
          (closedFragments_cons closedLines_timeSkip closedFragments_nil))
  · exact closedFragments_cons hdrain closedFragments_nil

end Fragments

end HoneypotAudit.Suite
