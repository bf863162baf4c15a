import HoneypotAudit.Json.Basic
import HoneypotAudit.Solidity.Pragma
import HoneypotAudit.Text.Digit

/-!
# The Solidity compiler

The compiler is installed in the version that a source asks for and is given a request in JSON: one
file, of which the syntax tree is wanted.  It answers with errors, warnings and trees in JSON.

`Compiler` says which versions are there and what installing and compiling come to.
-/

namespace HoneypotAudit.Solc

open HoneypotAudit.Text HoneypotAudit.Solidity

/-! ## Requests -/

/-- The request for the syntax tree of a file. -/
def request (fileName source : String) : Json :=
  .obj [
    ("language", .str "Solidity"),
    ("sources", .obj [(fileName, .obj [("content", .str source)])]),
    ("settings", .obj [("outputSelection", .obj [("*", .obj [("", .arr [.str "ast"])])])])]

/-- A step that the compiler was asked for. -/
inductive Call where
  | install (version : String)
  | compile (request : Json) (version : String)
  deriving Repr

/-- The directory from which the compiler may read files. -/
def allowedPath : String := "."

/-- The version that a step is about. -/
def Call.version : Call → String
  | .install version => version
  | .compile _ version => version

/-! ## Faults -/

/-- Why a version cannot be installed. -/
inductive InstallFault where
  /-- It cannot be had. -/
  | unavailable (message : String)
  /-- It is no version at all. -/
  | noVersion (message : String)
  deriving Repr, DecidableEq

/-- A run of the compiler that broke off. -/
structure CrashFault where
  message : String := "An error occurred during execution"
  command : List String := []
  status : Option Int := none
  stdout : Option String := none
  stderr : Option String := none
  deriving Repr, DecidableEq

/-- A text, or the word that stands for what is not known. -/
def shownOr (s : Option String) : String :=
  s.getD "None"

/-- The wording of a broken run. -/
def CrashFault.text (f : CrashFault) : String :=
  let text := f.message ++ "\n> command: `" ++ " ".intercalate f.command ++ "`\n> return code: `" ++
    shownOr (f.status.map fun n => String.ofList (signedDecimal n)) ++ "`\n> stdout:\n" ++
    shownOr f.stdout ++ "\n> stderr:\n" ++ shownOr f.stderr
  String.ofList (strip text.toList)

/-! ## The compiler -/

/-- The versions of the compiler that are there, and what it does. -/
structure Compiler where
  installed : List String := []
  installFault : Option InstallFault := none
  crash : Option CrashFault := none
  output : Json := .obj []
  deriving Repr

/-! ## Results -/

/-- What came of compiling a file. -/
structure Compilation where
  errors : List String := []
  warnings : List String := []
  /-- The syntax trees by file name. -/
  trees : Json.Members := []
  version : String
  isSuccess : Bool := errors.isEmpty
  deriving Repr

/-- The syntax tree of a file; one without a tree has an empty one. -/
def Compilation.treeOf (c : Compilation) (fileName : String) : Json :=
  (Json.find? fileName c.trees).getD (.obj [])

/-- Whether a message of the compiler is an error. -/
def isError (message : Json) : Bool :=
  (message.member "severity").text = "error"

/-- The text of a message of the compiler. -/
def messageText (message : Json) : String :=
  match message.get? "formattedMessage" with
  | some v => v.text
  | none => (message.member "message").text

/-- What an answer of the compiler says. -/
def Compilation.ofOutput (version : String) (output : Json) : Compilation :=
  let messages := (output.member "errors").items
  let errors := (messages.filter isError).map messageText
  { errors
    warnings := (messages.filter fun m => !isError m).map messageText
    trees := (output.member "sources").members.map fun (name, file) =>
      (name, (file.get? "ast").getD (.obj []))
    version }

/-- A compilation that failed with one error. -/
def Compilation.failed (version error : String) : Compilation where
  errors := [error]
  version := version
  isSuccess := false

/-! ## Versions -/

/-- The choice of a version: a fixed one, or else the one that the source names, or else one to fall
back to. -/
structure VersionChoice where
  pinned : Option String := none
  fallback : String := "0.8.28"
  deriving Repr, DecidableEq

/-- The version for a source.  An empty fixed version is none. -/
def VersionChoice.versionFor (c : VersionChoice) (source : List Char) : String :=
  match c.pinned with
  | some v => if v.isEmpty then detected else v
  | none => detected
where
  /-- The version that the source names, or the one to fall back to. -/
  detected : String := ((Pragma.version? source).map String.ofList).getD c.fallback

end HoneypotAudit.Solc
