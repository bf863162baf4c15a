import HoneypotAudit.Text.Quoted

/-!
# Refused command lines

A command line has parts: the main part and the part of a command.  A refusal belongs to one of them
and is shown with its usage.
-/

namespace HoneypotAudit.CommandLine

open HoneypotAudit.Text

/-! ## Parts -/

/-- A part of a command line. -/
inductive Part where
  | main
  | inject
  | synth
  | analyze
  | config
  deriving Repr, DecidableEq

namespace Part

/-- The parts that belong to commands. -/
def commands : List Part :=
  [inject, synth, analyze, config]

/-- The name of a command. -/
def name : Part → String
  | .main => ""
  | .inject => "inject"
  | .synth => "synth"
  | .analyze => "analyze"
  | .config => "config"

/-- The command of a name. -/
def ofName? (s : String) : Option Part :=
  commands.find? (·.name = s)

/-- The name of the program. -/
def programName : String := "honeyprobe"

/-- The name of the program with that of the command. -/
def title : Part → String
  | .main => programName
  | p => programName ++ " " ++ p.name

end Part

/-! ## Faults -/

/-- What is wrong with a command line. -/
inductive Fault where
  /-- A shortened option may stand for several ones. -/
  | ambiguous (word : String) (names : List String)
  /-- The value of an option is not there. -/
  | noValue (option : String)
  /-- An option that takes no value has one. -/
  | superfluous (option value : String)
  | notInteger (option value : String)
  | notChoice (argument value : String) (choices : List String)
  /-- An operand is not there. -/
  | missing (operand : String)
  /-- Words that nothing takes. -/
  | leftOver (words : List String)
  deriving Repr, DecidableEq

/-- A text about an argument. -/
def aboutArgument (argument text : String) : String :=
  "argument " ++ argument ++ ": " ++ text

/-- The wording of a fault. -/
def Fault.message : Fault → String
  | .ambiguous word names =>
    "ambiguous option: " ++ word ++ " could match " ++ ", ".intercalate names
  | .noValue option => aboutArgument option "expected one argument"
  | .superfluous option value =>
    aboutArgument option ("ignored explicit argument " ++ Quoted.ofString value)
  | .notInteger option value =>
    aboutArgument option ("invalid int value: " ++ Quoted.ofString value)
  | .notChoice argument value choices =>
    aboutArgument argument ("invalid choice: " ++ Quoted.ofString value ++ " (choose from " ++
      ", ".intercalate (choices.map Quoted.ofString) ++ ")")
  | .missing operand => "the following arguments are required: " ++ operand
  | .leftOver words => "unrecognized arguments: " ++ " ".intercalate words

/-- Why a command line names nothing to do. -/
inductive Stop where
  /-- Help is asked for. -/
  | help (part : Part)
  | refused (part : Part) (cause : Fault)
  deriving Repr, DecidableEq

end HoneypotAudit.CommandLine
