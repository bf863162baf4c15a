import HoneypotAudit.CommandLine.Syntax
import HoneypotAudit.Forge.Config
import HoneypotAudit.Text.Integer

/-!
# Invocations

What a command line asks for: a command with its options, or the version, or nothing.
`Invocation.ofWords` reads it.
-/

namespace HoneypotAudit.CommandLine

open HoneypotAudit.Text

/-! ## Commands -/

/-- The form of a report. -/
inductive ReportForm where
  | table
  | json
  deriving Repr, DecidableEq

/-- Where a text goes: into a file, or else to the standard output. -/
abbrev Target := Option String

/-- What to inject boilerplate into. -/
structure InjectOptions where
  path : String := ""
  output : Target := none
  deriving Repr, DecidableEq

/-- What to print the suites of. -/
structure SynthOptions where
  path : String := ""
  /-- The raw constructor arguments as hexadecimal digits; an empty text says that there are
  none. -/
  arguments : String := ""
  output : Target := none
  deriving Repr, DecidableEq

/-- What to analyse. -/
structure AnalyzeOptions where
  path : String := ""
  forkUrl : Option String := none
  block : Option Forge.Block := none
  /-- The raw constructor arguments as hexadecimal digits; an empty text says that there are
  none. -/
  arguments : String := ""
  /-- The transaction of the deployment; nothing if the option came without a value. -/
  transaction : Option String := some ""
  form : ReportForm := .table
  output : Target := none
  deriving Repr, DecidableEq

/-- A command. -/
inductive Command where
  | inject (options : InjectOptions)
  | synth (options : SynthOptions)
  | analyze (options : AnalyzeOptions)
  | config
  deriving Repr, DecidableEq

/-- What a command line asks for. -/
structure Invocation where
  showsVersion : Bool := false
  isQuiet : Bool := false
  command : Option Command := none
  deriving Repr, DecidableEq

/-! ## Options -/

/-- The option that asks for help. -/
def helpSwitch {σ : Type} : Switch σ :=
  ⟨["-h", "--help"], .help⟩

/-- An option with a text; an empty one says that there is none. -/
def textSwitch {σ : Type} (names : List String) (set : String → σ → σ) : Switch σ :=
  ⟨names, .value (fun value state => .ok (set value state)) (set "")⟩

/-- A target; an empty text names none. -/
def targetOf (text : String) : Target :=
  if text.isEmpty then none else some text

/-- The option that names a target. -/
def outputSwitch {σ : Type} (set : Target → σ → σ) : Switch σ :=
  textSwitch ["--output", "-o"] fun value => set (targetOf value)

/-- The option that brings raw constructor arguments. -/
def argumentsSwitch {σ : Type} (set : String → σ → σ) : Switch σ :=
  textSwitch ["--args"] set

/-- The operand that names the source. -/
def pathOperand {σ : Type} (set : String → σ → σ) : Operand σ :=
  .word "path" set

/-- Reads a block. -/
def readBlock (value : String) : Except Fault Int :=
  match Integer.read value.toList with
  | .ok n => .ok n
  | .error _ => .error (.notInteger "--block" value)

/-- Reads the form of a report. -/
def readForm (value : String) : Except Fault ReportForm :=
  if value = "table" then .ok .table
  else if value = "json" then .ok .json
  else .error (.notChoice "--format/-f" value ["table", "json"])

/-! ## Sections -/

/-- The part that belongs to injecting. -/
def injectSection : Section InjectOptions where
  part := .inject
  switches := [helpSwitch, outputSwitch fun output o => { o with output }]
  operand := pathOperand fun path o => { o with path }

/-- The part that belongs to printing suites. -/
def synthSection : Section SynthOptions where
  part := .synth
  switches := [
    helpSwitch,
    argumentsSwitch fun arguments o => { o with arguments },
    outputSwitch fun output o => { o with output }]
  operand := pathOperand fun path o => { o with path }

/-- The part that belongs to analysing. -/
def analyzeSection : Section AnalyzeOptions where
  part := .analyze
  switches := [
    helpSwitch,
    textSwitch ["--fork-url"] fun url o => { o with forkUrl := some url },
    ⟨["--block"], .value
      (fun value o => (readBlock value).map fun n => { o with block := some (.number n) })
      (fun o => { o with block := some .unnamed })⟩,
    argumentsSwitch fun arguments o => { o with arguments },
    ⟨["--tx-hash"], .value
      (fun value o => .ok { o with transaction := some value })
      (fun o => { o with transaction := none })⟩,
    ⟨["--format", "-f"], .value
      (fun value o => (readForm value).map fun form => { o with form })
      (fun o => { o with form := .table })⟩,
    outputSwitch fun output o => { o with output }]
  operand := pathOperand fun path o => { o with path }

/-- The part that belongs to showing the settings. -/
def configSection : Section Unit where
  part := .config
  switches := [helpSwitch]
  operand := .absent

/-- Reads a command from its name and the words behind it, and gives the words that are left
over. -/
def Command.ofWords : List String → Except Stop (Command × List String)
  | [] => .error (.refused .main (.missing "command"))
  | name :: words =>
    match Part.ofName? name with
    | some .inject => do
      let (options, leftOver) ← injectSection.read words {}
      .ok (.inject options, leftOver)
    | some .synth => do
      let (options, leftOver) ← synthSection.read words {}
      .ok (.synth options, leftOver)
    | some .analyze => do
      let (options, leftOver) ← analyzeSection.read words {}
      .ok (.analyze options, leftOver)
    | some .config => do
      let ((), leftOver) ← configSection.read words ()
      .ok (.config, leftOver)
    | _ => .error (.refused .main (.notChoice "command" name (Part.commands.map (·.name))))

/-- An invocation with the words that its command leaves over. -/
structure Draft where
  invocation : Invocation := {}
  leftOver : List String := []

/-- The main part. -/
def mainSection : Section Draft where
  part := .main
  switches := [
    helpSwitch,
    ⟨["--version"], .flag fun d => { d with invocation.showsVersion := true }⟩,
    ⟨["--quiet", "-q"], .flag fun d => { d with invocation.isQuiet := true }⟩]
  operand := .command fun words d => do
    let (command, leftOver) ← Command.ofWords words
    .ok { d with invocation.command := some command, leftOver }

/-- What the words of a command line ask for.  No word may be left over. -/
def Invocation.ofWords (words : List String) : Except Stop Invocation := do
  let (draft, leftOver) ← mainSection.read words {}
  match leftOver ++ draft.leftOver with
  | [] => .ok draft.invocation
  | leftOver => .error (.refused .main (.leftOver leftOver))

end HoneypotAudit.CommandLine
