import HoneypotAudit.Solidity.Facts
import HoneypotAudit.Solidity.Pragma
import HoneypotAudit.Source.Splice

/-!
# Injection

A contract is made ready for the suites by inserting text: a constructor if it has none, and a call
that mints tokens for the deployer if it is a token with a mint function.  The text goes in front of
the closing brace of the constructor, or of the contract if there is no constructor.

`Plan.ofFacts` says what goes where and `Plan.apply` does it; the pragma and the import that the
suites need are then added behind the source.
-/

namespace HoneypotAudit

open HoneypotAudit.Solidity HoneypotAudit.Source

namespace Injection

/-- The name of the mint function. -/
def mintFunction : String := "_mint"

/-- The import that the suites need. -/
def testImport : String := "import \"forge-std/Test.sol\";"

/-- The call that mints tokens for the deployer, if the contract can mint. -/
def seedCall (facts : Facts) (amount : String) : String :=
  if facts.isToken && facts.internalFunctions.contains mintFunction then
    mintFunction ++ "(msg.sender, " ++ amount ++ "); "
  else ""

/-- Text to insert before a position. -/
structure Plan where
  position : Position
  code : String
  addsConstructor : Bool
  deriving Repr, DecidableEq

/-- Why nothing is injected. -/
inductive Fault where
  /-- It is not known where the declaration ends. -/
  | noLocation
  /-- It is said to end outside the source. -/
  | outside (cause : OutsideFault)
  deriving Repr, DecidableEq

/-- The wording of a fault. -/
def Fault.message : Fault → String
  | .noLocation => "AST node has no source location"
  | .outside cause => cause.message

/-- The place in front of the last character of a declaration. -/
def endOf (l : Location) : Except Fault Position :=
  if l.last.line < 1 then .error .noLocation else .ok l.last

/-- What to insert into a contract, and where. -/
def Plan.ofFacts (facts : Facts) (amount : String) : Except Fault Plan :=
  let seed := seedCall facts amount
  match facts.contract.constructor? with
  | none => do
    let position ← endOf facts.contract.location
    .ok ⟨position, "\nconstructor() public \x7b " ++ seed ++ "\x7d", true⟩
  | some f => do
    let position ← endOf (f.body.getD f.location)
    .ok ⟨position, "\n" ++ seed, false⟩

/-- The source with the import of the test framework. -/
def addTestImport (source : List Char) : List Char :=
  Pragma.addLine source testImport

/-- The source with the planned text, the encoder pragma and the import. -/
def Plan.apply (plan : Plan) (source : List Char) : Except Fault (List Char) :=
  match splice source plan.position plan.code.toList with
  | .ok spliced => .ok (addTestImport (Pragma.ensureEncoder spliced))
  | .error cause => .error (.outside cause)

end Injection

end HoneypotAudit
