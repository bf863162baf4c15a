import HoneypotAudit.Text.Lines

/-!
# Scenarios

A scenario is one way in which a contract may cheat.  It is tested by one test contract, its suite,
with one invariant; `Scenario.ofSuite?` finds the scenario of a suite by the name of its contract,
which may have the path of its file and a colon in front.
-/

namespace HoneypotAudit

open HoneypotAudit.Text

/-- A way in which a contract may cheat. -/
inductive Scenario where
  | honeypot
  | hiddenMint
  | fakeOwnershipRenunciation
  | hiddenTransfer
  | hiddenFeeModifier
  | hiddenTransferRevert
  deriving Repr, DecidableEq, Inhabited

namespace Scenario

/-- All scenarios in order. -/
def all : List Scenario :=
  [honeypot, hiddenMint, fakeOwnershipRenunciation, hiddenTransfer, hiddenFeeModifier,
    hiddenTransferRevert]

theorem mem_all (s : Scenario) : s ∈ all := by
  cases s <;> decide

/-- The name of a scenario in reports. -/
def text : Scenario → String
  | .honeypot => "honeypot"
  | .hiddenMint => "hidden_mint"
  | .fakeOwnershipRenunciation => "fake_ownership_renunciation"
  | .hiddenTransfer => "hidden_transfer"
  | .hiddenFeeModifier => "hidden_fee_modifier"
  | .hiddenTransferRevert => "hidden_transfer_revert"

/-- The scenario of a name. -/
def ofText? (name : String) : Option Scenario :=
  all.find? (·.text = name)

/-- Whether the scenario is about tokens; the others are about ownership. -/
def isToken : Scenario → Bool
  | .fakeOwnershipRenunciation => false
  | _ => true

/-- Whether the scenario can only be tested with a balance of tokens. -/
def dependsOnBalance : Scenario → Bool
  | .hiddenMint => false
  | .fakeOwnershipRenunciation => false
  | _ => true

/-- The name of the test contract. -/
def suiteName : Scenario → String
  | .honeypot => "DynamicHoneypotTest"
  | .hiddenMint => "DynamicHiddenMintsTest"
  | .fakeOwnershipRenunciation => "DynamicFakeOwnershipRenunciationTest"
  | .hiddenTransfer => "DynamicHiddenTransfersTest"
  | .hiddenFeeModifier => "DynamicHiddenFeeModifiersTest"
  | .hiddenTransferRevert => "DynamicHiddenTransferRevertsTest"

/-- The name of the invariant in the test contract. -/
def invariantName : Scenario → String
  | .honeypot => "invariant_transfer"
  | .hiddenMint => "invariant_totalsupply"
  | .fakeOwnershipRenunciation => "invariant_ownership"
  | .hiddenTransfer => "invariant_balances"
  | .hiddenFeeModifier => "invariant_fee"
  | .hiddenTransferRevert => "invariant_transfer_without_revert"

/-- The scenario that a suite tests, given the name of its contract behind the path of its file, if
any, and a colon. -/
def ofSuite? (suite : String) : Option Scenario :=
  let name := String.ofList (afterLast ':' suite.toList)
  all.find? (·.suiteName = name)

/-- The scenarios about tokens. -/
def aboutTokens : List Scenario := all.filter isToken

/-- The scenarios about ownership. -/
def aboutOwnership : List Scenario := all.filter fun s => !s.isToken

end Scenario

/-- What a test run says about a scenario. -/
inductive Verdict where
  | pass
  | fail
  | skip
  deriving Repr, DecidableEq, Inhabited

/-- The name of a verdict in reports. -/
def Verdict.text : Verdict → String
  | .pass => "pass"
  | .fail => "fail"
  | .skip => "skip"

/-- The verdict of a name. -/
def Verdict.ofText? (name : String) : Option Verdict :=
  [Verdict.pass, .fail, .skip].find? (·.text = name)

end HoneypotAudit
