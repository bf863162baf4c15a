import HoneypotAudit.Analysis.Compilation
import HoneypotAudit.Suite.Synthesis

/-!
# Preparation

A source is formatted, its facts are read, boilerplate is injected, the result is formatted again,
the constructor arguments are decoded, and the suites are built.  `prepare` gives the test file of a
contract without running anything.
-/

namespace HoneypotAudit.Analysis

open HoneypotAudit.Solidity HoneypotAudit.Deployment HoneypotAudit.Text

/-- How boilerplate is injected. -/
structure Injector where
  formatter : Forge.Formatter := {}
  /-- How the facts about a source are found, if they can be found. -/
  compiling : Option Compiling := none
  /-- The tokens that a contract mints for its deployer. -/
  amount : String := ({} : Suite.Amounts).seed
  deriving Repr, DecidableEq

/-- How contracts are made ready. -/
structure Preparing where
  formatter : Forge.Formatter := {}
  compiling : Compiling := {}
  amounts : Suite.Amounts := {}
  deriving Repr, DecidableEq

/-- The injection that is part of making contracts ready. -/
def Preparing.injector (p : Preparing) : Injector where
  formatter := p.formatter
  compiling := some p.compiling
  amount := p.amounts.seed

/-- A contract made ready, with its suites. -/
structure Prepared where
  facts : Facts
  injected : String
  suites : List Suite
  decoded : Decoded
  deriving Repr

/-- The scenarios of the suites. -/
def Prepared.scenarios (p : Prepared) : List Scenario :=
  p.suites.map (·.scenario)

/-- The test file. -/
def Prepared.code (p : Prepared) : String :=
  p.injected ++ Suite.renderAll p.suites

/-! ## Injection -/

/-- Formats a text. -/
def format (f : Forge.Formatter) (source : String) : Step String :=
  ExceptT.adapt (fun fault => .rejected (.format fault)) (f.format source)

/-- Notes what is injected where. -/
def logPlan (facts : Facts) (plan : Injection.Plan) : StateM Session Unit :=
  Session.log {
    logger := "honeyprobe.injector.constructor_injector"
    level := Log.debug
    message := "Injecting into " ++ facts.name ++ " at " ++
      String.ofList (signedDecimal plan.position.line) ++ ":" ++
      String.ofList (signedDecimal plan.position.column) ++ " (new constructor: " ++
      truthText plan.addsConstructor ++ ")" }

/-- Injects boilerplate into a source whose facts are known, and formats the result. -/
def Injector.inject (i : Injector) (source : String) (facts : Facts) : Step String := do
  match Injection.Plan.ofFacts facts i.amount with
  | .error cause => throw (.rejected (.injection cause))
  | .ok plan =>
    logPlan facts plan
    match plan.apply source.toList with
    | .error cause => throw (.rejected (.injection cause))
    | .ok injected => format i.formatter (String.ofList injected)

/-- Formats a source, reads its facts and injects boilerplate into it. -/
def Injector.injectSource (i : Injector) (source : String) : Step (String × Facts) := do
  match i.compiling with
  | none => throw (.broken .noFacts)
  | some compiling =>
    let formatted ← format i.formatter source
    let facts ← factsOf compiling formatted
    let injected ← i.inject formatted facts
    pure (injected, facts)

/-! ## Arguments -/

/-- The argument expressions of the constructor of a contract; without a constructor there are
none, whatever the raw arguments hold. -/
def decodeFor (rooms : Rooms) (facts : Facts) (blob : Blob) : Except Stopped Decoded :=
  match facts.contract.constructor? with
  | none => .ok {}
  | some f => decodeArguments rooms (f.parameters.map (·.type)) blob

/-- What the log says about arguments that are not decoded. -/
def argumentLogText : ArgumentFault → String
  | .mismatch types cause => (ArgumentFault.mismatch types cause).message
  | fault => "Constructor arguments not decoded: " ++ fault.message

/-- Decodes the arguments of a contract. -/
def decode (facts : Facts) (blob : Blob) : Step Decoded := do
  match decodeFor (← get).rooms facts blob with
  | .error cause => throw (.broken (.data cause))
  | .ok decoded =>
    match decoded.fault with
    | none => pure decoded
    | some fault =>
      Session.log {
        logger := "honeyprobe.fuzzer.abi_decoder"
        level := Log.warning
        message := argumentLogText fault }
      pure decoded

/-! ## Preparation -/

/-- Makes a contract ready. -/
def prepare (p : Preparing) (source : String) (blob : Blob) : Step Prepared := do
  let (injected, facts) ← p.injector.injectSource source
  let decoded ← decode facts blob
  let suites := Suite.suitesFor p.amounts facts decoded.arguments decoded.statements
  Session.log {
    logger := "honeyprobe.fuzzer.invariant_synth"
    level := Log.debug
    message := "Synthesized " ++ toString suites.length ++ " suites for " ++ facts.name }
  pure { facts, injected, suites, decoded }

end HoneypotAudit.Analysis
