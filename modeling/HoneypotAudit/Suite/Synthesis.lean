import HoneypotAudit.Solidity.Facts
import HoneypotAudit.Suite.Basic
import HoneypotAudit.Text.Digit

/-!
# Synthesis of suites

`suitesFor` builds the suites of all scenarios that apply to a contract.  The set-up of every suite
deploys the contract, and then, as far as the scenario needs it,

1. gives the test contract a balance, if the contract keeps one,
2. takes the tokens and the ownership away from the owner, if there is one,
3. prepares the accounts and records what the invariant compares with,
4. lets a year go by.

A suite that cannot be tested without tokens marks itself as skipped when the test contract ends up
without any, and its invariant then returns at once.
-/

namespace HoneypotAudit.Suite

open HoneypotAudit.Solidity HoneypotAudit.Text

/-- The amounts in the suites. -/
structure Amounts where
  /-- The tokens that the test contract gets. -/
  seed : String := "1e20"
  /-- The time that passes before the invariant is checked. -/
  skippedSeconds : Int := 31536000
  deriving Repr, DecidableEq, Inhabited

/-- The scenarios that apply to a contract, in the order of their suites. -/
def scenariosFor (facts : Facts) : List Scenario :=
  (if facts.isToken then Scenario.aboutTokens else []) ++
    (if facts.isOwnable then Scenario.aboutOwnership else [])

/-! ## Accounts -/

/-- The account that holds tokens during a test, and that ownership goes to. -/
def holder : String := "address(0x1)"

/-- The account that receives tokens. -/
def recipient : String := "address(0x2)"

/-- The balance of an account. -/
def balanceOf (account : String) : String :=
  "target.balanceOf(" ++ account ++ ")"

/-- The call that sends tokens to an account. -/
def transferTo (account amount : String) : String :=
  "target.transfer(" ++ account ++ ", " ++ amount ++ ")"

/-! ## Shared fragments -/

/-- Deploys the contract behind the statements that its arguments need. -/
def deploy (name : String) (arguments prelude : List String) : Fragment :=
  ⟨"deploy", prelude ++ ["target = new " ++ name ++ "(" ++ ", ".intercalate arguments ++ ");"]⟩

/-- Gives the test contract tokens, if the contract keeps balances. -/
def seedBalance (amounts : Amounts) (facts : Facts) : List Fragment :=
  if facts.hasBalance then
    [⟨"seed_balance", ["deal(address(target), address(this), " ++ amounts.seed ++ ");"]⟩]
  else []

/-- What happens to the tokens of the owner. -/
inductive OwnerTokens where
  | kept
  | moved
  /-- They are moved if the contract lets that happen. -/
  | tried

/-- The statements that move the tokens of the owner to the test contract. -/
def OwnerTokens.lines : OwnerTokens → List String
  | .kept => []
  | .moved => [transferTo "testAddress" (balanceOf "target.owner()") ++ ";"]
  | .tried =>
    ["try " ++ transferTo "testAddress" (balanceOf "target.owner()") ++
      " returns (bool) \x7b\x7d catch \x7b\x7d"]

/-- Takes the ownership, if there is one. -/
def neutralizeOwnership (facts : Facts) (tokens : OwnerTokens) : List Fragment :=
  if facts.isOwnable then
    [⟨"neutralize_ownership",
      ["address testAddress = address(this);", "vm.startPrank(address(target.owner()));"] ++
        tokens.lines ++ ["target.transferOwnership(testAddress);", "vm.stopPrank();"]⟩]
  else []

/-- Sends tokens to the holder if the test contract has any, and marks the suite as skipped if not.
More statements may run behind the transfer. -/
def fundHolder (amount : String) (more : List String) : List Fragment :=
  [⟨"check_balance", ["willSkip = " ++ balanceOf "address(this)" ++ " == 0;"]⟩,
    ⟨"fund_holder", block "if (!willSkip)" ((transferTo holder amount ++ ";") :: more)⟩,
    ⟨"mark_skipped", ["if (willSkip) vm.skip(true);"]⟩]

/-- Lets time go by. -/
def timeSkip (amounts : Amounts) : Fragment :=
  ⟨"time_skip", ["skip(" ++ String.ofList (signedDecimal amounts.skippedSeconds) ++ ");"]⟩

/-- Makes the test contract the only sender of calls. -/
def targetSelf : Fragment :=
  ⟨"target_sender", ["targetSender(address(this));"]⟩

/-- Leaves the invariant of a skipped suite at once. -/
def skipGuard : Fragment :=
  ⟨"skip_guard", ["if (willSkip) return;"]⟩

/-- The statement with which an account begins to act. -/
def actAs (account : String) : String :=
  "vm.startPrank(" ++ account ++ ");"

/-- The statement with which an account stops to act. -/
def stopActing : String := "vm.stopPrank();"

/-- The statement that keeps the balance of the receiving account. -/
def keepBalance (name : String) : String :=
  "uint256 " ++ name ++ " = " ++ balanceOf recipient ++ ";"

/-! ## The suites -/

/-- The bodies of a suite and its own state variables. -/
structure Bodies where
  state : List String := []
  setUp : List Fragment
  invariant : List Fragment

/-- A third account cannot sell what it got. -/
def honeypotBodies (amounts : Amounts) (facts : Facts) (deployment : Fragment) : Bodies where
  setUp := deployment :: seedBalance amounts facts ++ neutralizeOwnership facts .moved ++
    fundHolder "100000000" [] ++ [timeSkip amounts]
  invariant := [⟨"third_party_transfer", block ("if (" ++ balanceOf holder ++ " > 0)")
    [actAs holder, keepBalance "balanceBefore", transferTo recipient "100" ++ ";",
      keepBalance "balanceAfter", stopActing, "assertGt(balanceAfter, balanceBefore);"]⟩]

/-- The supply grows. -/
def hiddenMintBodies (amounts : Amounts) (facts : Facts) (deployment : Fragment) : Bodies where
  state := ["uint256 totalSupply;"]
  setUp := deployment :: neutralizeOwnership facts .moved ++
    [⟨"record_supply", ["totalSupply = target.totalSupply();"]⟩, targetSelf, timeSkip amounts]
  invariant := [⟨"supply_bounded", ["assertTrue(totalSupply >= target.totalSupply());"]⟩]

/-- Ownership comes back from where it was sent. -/
def fakeOwnershipRenunciationBodies (amounts : Amounts) (facts : Facts)
    (deployment : Fragment) : Bodies where
  setUp := deployment :: neutralizeOwnership facts .kept ++
    [targetSelf,
      ⟨"renounce",
        ["target.transferOwnership(" ++ holder ++ ");", "excludeSender(" ++ holder ++ ");"]⟩,
      timeSkip amounts]
  invariant := [⟨"owner_moved",
    ["assertTrue(target.owner() == " ++ holder ++ " && target.owner() != address(0x0));"]⟩]

/-- Tokens leave an account that did nothing. -/
def hiddenTransferBodies (amounts : Amounts) (facts : Facts) (deployment : Fragment) : Bodies where
  state := ["uint256 balance;"]
  setUp := deployment :: seedBalance amounts facts ++ neutralizeOwnership facts .moved ++
    fundHolder "100000000" ["balance = " ++ balanceOf holder ++ ";"] ++
    [targetSelf, ⟨"exclude_holder", ["excludeSender(" ++ holder ++ ");"]⟩, timeSkip amounts]
  invariant :=
    [⟨"holder_balance_kept", ["assertTrue(" ++ balanceOf holder ++ " >= balance);"]⟩]

/-- The fee on transfers changes. -/
def hiddenFeeModifierBodies (amounts : Amounts) (facts : Facts)
    (deployment : Fragment) : Bodies where
  state := ["uint256 fee;"]
  setUp := deployment :: seedBalance amounts facts ++ neutralizeOwnership facts .tried ++
    fundHolder "1e6" [] ++
    [⟨"measure_fee", block "if (!willSkip)"
      [actAs holder, keepBalance "balanceBefore", transferTo recipient "1e5" ++ ";",
        keepBalance "balanceAfter", "fee = 1e5 - (balanceAfter - balanceBefore);", stopActing]⟩,
      targetSelf, timeSkip amounts]
  invariant := [⟨"repeat_transfer",
    [actAs holder, keepBalance "balanceBefore"] ++
      block ("try " ++ transferTo recipient "1e5" ++ " returns (bool success)")
        (keepBalance "balanceAfter" ::
          block "if (success || balanceAfter > balanceBefore)"
            ["uint256 currentFee = 1e5 - (balanceAfter - balanceBefore);", stopActing,
              "assertEq(fee, currentFee);"]) ++
      block "catch" [stopActing]⟩]

/-- Transfers revert. -/
def hiddenTransferRevertBodies (amounts : Amounts) (facts : Facts)
    (deployment : Fragment) : Bodies where
  setUp := deployment :: seedBalance amounts facts ++ neutralizeOwnership facts .tried ++
    fundHolder "100000000" [] ++ [targetSelf, timeSkip amounts]
  invariant := [⟨"drain_holder",
    [actAs holder, "uint256 selfBalance = " ++ balanceOf holder ++ ";",
      transferTo recipient "selfBalance" ++ ";", stopActing]⟩]

/-- The bodies of the suite of a scenario. -/
def bodies (amounts : Amounts) (facts : Facts) (deployment : Fragment) : Scenario → Bodies
  | .honeypot => honeypotBodies amounts facts deployment
  | .hiddenMint => hiddenMintBodies amounts facts deployment
  | .fakeOwnershipRenunciation => fakeOwnershipRenunciationBodies amounts facts deployment
  | .hiddenTransfer => hiddenTransferBodies amounts facts deployment
  | .hiddenFeeModifier => hiddenFeeModifierBodies amounts facts deployment
  | .hiddenTransferRevert => hiddenTransferRevertBodies amounts facts deployment

/-- The suite of a scenario. -/
def suiteFor (amounts : Amounts) (facts : Facts) (deployment : Fragment) (s : Scenario) : Suite :=
  let b := bodies amounts facts deployment s
  { scenario := s
    target := facts.name
    state := b.state ++ (if s.dependsOnBalance then ["bool willSkip;"] else [])
    setUp := b.setUp
    invariant := (if s.dependsOnBalance then [skipGuard] else []) ++ b.invariant }

/-- The suites of a contract that is deployed with argument expressions, behind statements that
have to run first. -/
def suitesFor (amounts : Amounts) (facts : Facts) (arguments prelude : List String) :
    List Suite :=
  (scenariosFor facts).map (suiteFor amounts facts (deploy facts.name arguments prelude))

end HoneypotAudit.Suite
