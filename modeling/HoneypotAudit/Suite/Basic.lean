import HoneypotAudit.Scenario

/-!
# Suites

A suite is a test contract: state variables, a function `setUp` and an invariant.  The bodies of the
two functions are made of named fragments, one behind the other.
-/

namespace HoneypotAudit

/-- A run of statements with a name. -/
structure Fragment where
  name : String
  lines : List String
  deriving Repr, DecidableEq, Inhabited

/-- A test contract for one scenario. -/
structure Suite where
  scenario : Scenario
  /-- The name of the contract under test. -/
  target : String
  state : List String := []
  setUp : List Fragment
  invariant : List Fragment
  deriving Repr, DecidableEq, Inhabited

namespace Suite

/-- The names of the fragments in order. -/
def fragmentNames (s : Suite) : List String :=
  (s.setUp ++ s.invariant).map (·.name)

/-! ## Text -/

/-- Lines one level deeper; empty lines stay empty. -/
def indent (lines : List String) : List String :=
  lines.map fun line => if line.isEmpty then line else "    " ++ line

/-- A header and a body between braces. -/
def block (header : String) (body : List String) : List String :=
  (header ++ " \x7b") :: indent body ++ ["\x7d"]

/-- The statements of fragments. -/
def statements (fragments : List Fragment) : List String :=
  fragments.flatMap (·.lines)

/-- The lines of a suite. -/
def lines (s : Suite) : List String :=
  block ("contract " ++ s.scenario.suiteName ++ " is Test")
    ((s.target ++ " target;") :: s.state ++ [""] ++
      block "function setUp() public" (statements s.setUp) ++ [""] ++
      block ("function " ++ s.scenario.invariantName ++ "() external") (statements s.invariant))

/-- The text of a suite. -/
def render (s : Suite) : String :=
  "\n".intercalate s.lines ++ "\n"

/-- The text of suites, each behind an empty line. -/
def renderAll (suites : List Suite) : String :=
  String.join (suites.map fun s => "\n" ++ s.render)

end Suite

end HoneypotAudit
