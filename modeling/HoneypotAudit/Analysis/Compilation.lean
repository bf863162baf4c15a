import HoneypotAudit.Analysis.Fault

/-!
# From a source to facts

The compiler is installed in the version that the source asks for, if it is not there, and gives the
syntax tree of the source.  The facts are read off the tree.
-/

namespace HoneypotAudit.Analysis

open HoneypotAudit.Solidity HoneypotAudit.Text

/-- How a source is compiled. -/
structure Compiling where
  version : Solc.VersionChoice := {}
  fileName : String := "Contract.sol"
  deriving Repr, DecidableEq

/-- The log of the compiler. -/
def compilerLog (level : Int) (message : String) : StateM Session Unit :=
  Session.log { logger := "honeyprobe.ingestion.solidity_compiler", level, message }

/-- Installs a version of the compiler if it is not there.  A version that cannot be had is
described, and one that is no version breaks the analysis. -/
def ensureInstalled (version : String) : Action Breakdown (Option String) := do
  let compiler := (← get).compiler
  if compiler.installed.contains version then pure none
  else
    compilerLog Log.info ("Installing solc " ++ version)
    Session.noteCompiler (.install version)
    match compiler.installFault with
    | none => pure none
    | some (.unavailable message) => pure (some message)
    | some (.noVersion message) => throw (.version message)

/-- Compiles a source. -/
def compile (c : Compiling) (source : String) : Action Breakdown Solc.Compilation := do
  let version := c.version.versionFor source.toList
  match ← ensureInstalled version with
  | some message =>
    let error := "solc " ++ version ++ " could not be installed: " ++ message
    compilerLog Log.warning error
    pure (.failed version error)
  | none =>
    Session.noteCompiler (.compile (Solc.request c.fileName source) version)
    let compiler := (← get).compiler
    match compiler.crash with
    | some crash =>
      compilerLog Log.debug ("solc " ++ version ++ " rejected " ++ c.fileName ++ ": " ++ crash.text)
      pure (.failed version crash.text)
    | none => pure (.ofOutput version compiler.output)

/-- A truth value in a message. -/
def truthText (b : Bool) : String :=
  (Json.bool b).shown

/-- Notes what is known about a contract. -/
def logFacts (f : Facts) : StateM Session Unit :=
  Session.log {
    logger := "honeyprobe.ingestion.contract_facts"
    level := Log.debug
    message := "Facts for " ++ f.name ++ ": token=" ++ truthText f.isToken ++ " ownable=" ++
      truthText f.isOwnable ++ " balance=" ++ truthText f.hasBalance ++ " internal=" ++
      toString f.internalFunctions.length }

/-- The facts about the main contract of a source. -/
def factsOf (c : Compiling) (source : String) : Step Facts := do
  let compilation ← ExceptT.adapt .broken (compile c source)
  if !compilation.isSuccess then throw (.rejected (.rejected compilation.errors))
  match Tree.readUnit (← get).rooms source.toList c.fileName (compilation.treeOf c.fileName) with
  | .error cause => throw (.broken (.tree cause))
  | .ok u =>
    match Facts.ofUnit u with
    | .error cause => throw (.rejected (.noContract cause))
    | .ok facts => do
      logFacts facts
      pure facts

end HoneypotAudit.Analysis
