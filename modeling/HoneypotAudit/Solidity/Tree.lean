import HoneypotAudit.Json.Basic
import HoneypotAudit.Json.Printer
import HoneypotAudit.Solidity.Declaration

/-!
# The compiler's syntax tree

The compiler gives the syntax tree of a source file as JSON: every node is an object that names its
kind as `nodeType`.  `Tree.readUnit` takes from it the declarations that matter here, for trees of
all compiler versions: what an older version does not write has the value that it had then.

The identifiers of contracts and the numbers of locations are read as integers, and that can fail.
The length of an array is read from its literal.  If that is no integer (an expression, or a number
such as `1e1`), it is read from the type string in which the compiler shows the length.
-/

namespace HoneypotAudit.Solidity.Tree

open HoneypotAudit.Text HoneypotAudit.Source

/-! ## Faults -/

/-- Why a tree is not read. -/
inductive Fault where
  /-- A text is no integer. -/
  | number (cause : Integer.Refusal)
  /-- An identifier is a number without an integer part. -/
  | notFinite (isNan : Bool)
  /-- An identifier is neither a number nor a text. -/
  | unsuited
  /-- A type is nested too deep. -/
  | tooDeep
  deriving Repr, DecidableEq

/-- The wording of a fault. -/
def Fault.message : Fault → String
  | .number cause => cause.message
  | .notFinite isNan =>
    if isNan then "cannot convert float NaN to integer"
    else "cannot convert float infinity to integer"
  | .unsuited => "unsuitable identifier"
  | .tooDeep => "a type of the tree is nested too deep"

/-! ## Members of nodes -/

/-- The kind of a node. -/
def nodeType (node : Json) : String :=
  (node.member "nodeType").text

/-- A member as a text, with a value for one that is not there. -/
def textOr (default key : String) (node : Json) : String :=
  match node.get? key with
  | none => default
  | some v => v.text

/-- The type string of a node. -/
def typeString (node : Json) : String :=
  ((node.member "typeDescriptions").member "typeString").text

/-- The location of a node. -/
def location (data : Bytes) (node : Json) : Except Fault Location :=
  match Location.read (some data) (node.member "src").text.toList with
  | .ok l => .ok l
  | .error cause => .error (.number cause)

/-- The integer that a value stands for. -/
def integer : Json → Except Fault Int
  | .int n => .ok n
  | .bool b => .ok (if b then 1 else 0)
  | .float x =>
    match x.truncate? with
    | some n => .ok n
    | none => .error (.notFinite (x = .nan))
  | .str s =>
    match Integer.readText s.toList with
    | .ok n => .ok n
    | .error cause => .error (.number cause)
  | _ => .error .unsuited

/-! ## Types -/

/-- Blanks or lower-case letters, of which the first one is a blank. -/
def areWords : List Char → Bool
  | [] => true
  | c :: cs => isBlank c && cs.all fun d => isBlank d || decide ('a' ≤ d ∧ d ≤ 'z')

/-- The digits between the last brackets of a type string, behind which only words such as data
locations may stand. -/
def shownLength? (typeText : List Char) : Option (List Char) :=
  match cutLast? '[' typeText with
  | none => none
  | some (_, behind) =>
    let digits := behind.takeWhile isDigit
    match digits, behind.dropWhile isDigit with
    | [], _ => none
    | _, ']' :: rest => if areWords rest then some digits else none
    | _, _ => none

/-- The integer that a literal node spells. -/
def literalLength? (node : Json) : Option Int :=
  if nodeType node = "Literal" then
    match node.member "value" with
    | .str s => Integer.readLiteral? s.toList
    | .int n => some n
    | _ => none
  else none

/-- The length of an array type. -/
def arrayLength (node : Json) : Except Integer.Refusal ArrayLength :=
  let lengthNode := node.member "length"
  if !lengthNode.isTrue then .ok .dynamic
  else
    match literalLength? lengthNode with
    | some n => .ok (.fixed n)
    | none =>
      match shownLength? (typeString node).toList with
      | none => .ok (.unresolved none)
      | some digits => (Integer.readText digits).map .fixed

/-- The name of an elementary type; an address that takes money says so in its name. -/
def elementaryName (node : Json) : String :=
  let name := (node.member "name").text
  if name = "address" ∧ (node.member "stateMutability").text = "payable" then "address payable"
  else name

/-- The name of a type that the source declares. -/
def pathName (node : Json) : String :=
  match node.member "pathNode" with
  | .obj ms => ((Json.obj ms).member "name").text
  | _ => (node.member "name").text

/-- A type of at most `room` levels, where a node that is not there stands for one without a
name. -/
def readType : (room : Nat) → Json → Except Fault TypeName
  | 0, _ => .error .tooDeep
  | room + 1, node =>
    if !node.isTrue then .ok (.named "" "")
    else
      match nodeType node with
      | "ElementaryTypeName" => .ok (.elementary (elementaryName node))
      | "ArrayTypeName" => do
        let base ← readType room (node.member "baseType")
        match arrayLength node with
        | .ok length => .ok (.array base length)
        | .error cause => .error (.number cause)
      | "Mapping" => do
        let key ← readType room (node.member "keyType")
        let value ← readType room (node.member "valueType")
        .ok (.mapping key value)
      | "UserDefinedTypeName" => .ok (.named (pathName node) (typeString node))
      | "FunctionTypeName" => .ok (.named "function" (typeString node))
      | _ => .ok (.named "" (typeString node))

/-- The type of a declaration. -/
def declaredType (room : Nat) (node : Json) : Except Fault TypeName :=
  readType room (node.member "typeName")

/-! ## Declarations -/

/-- A parameter. -/
def readParameter (rooms : Rooms) (node : Json) : Except Fault Parameter := do
  let type ← declaredType rooms.parameterTypes node
  .ok { name := (node.member "name").text, type, storage := (node.member "storageLocation").text }

/-- The parameters of a function. -/
def readParameters (rooms : Rooms) (node : Json) : Except Fault (List Parameter) :=
  ((node.member "parameters").member "parameters").items.mapM (readParameter rooms)

/-- The kind of a function; older compilers only mark constructors. -/
def functionKind (node : Json) : String :=
  let kind := (node.member "kind").text
  if !kind.isEmpty then kind
  else if (node.member "isConstructor").isTrue then "constructor"
  else "function"

/-- A function. -/
def readFunction (rooms : Rooms) (data : Bytes) (node : Json) : Except Fault FunctionDecl := do
  let kind := functionKind node
  let parameters ← readParameters rooms node
  let location ← location data node
  let bodyNode := node.member "body"
  let body ← if bodyNode.isTrue then (Tree.location data bodyNode).map some else .ok none
  .ok {
    name := (node.member "name").text
    kind
    visibility := (Visibility.ofText? (node.member "visibility").text).getD .public
    mutability := (StateMutability.ofText? (node.member "stateMutability").text).getD .nonpayable
    isConstructor := kind = "constructor" || (node.member "isConstructor").isTrue
    parameters, location, body }

/-- The mutability of a state variable. -/
def variableMutability (node : Json) : VariableMutability :=
  if (node.member "constant").isTrue then .constant
  else if (node.member "mutability").text = "immutable" then .immutable
  else .changing

/-- A state variable. -/
def readVariable (rooms : Rooms) (data : Bytes) (node : Json) : Except Fault StateVariable := do
  let type ← declaredType rooms.variableTypes node
  let location ← location data node
  .ok {
    name := (node.member "name").text
    type
    visibility := (Visibility.ofText? (node.member "visibility").text).getD .internal
    mutability := variableMutability node
    location }

/-- The functions and the state variables among the members of a contract. -/
def readMembers (rooms : Rooms) (data : Bytes) :
    List Json → Except Fault (List FunctionDecl × List StateVariable)
  | [] => .ok ([], [])
  | node :: nodes => do
    match nodeType node with
    | "FunctionDefinition" =>
      let f ← readFunction rooms data node
      let (fs, vs) ← readMembers rooms data nodes
      .ok (f :: fs, vs)
    | "VariableDeclaration" =>
      let v ← readVariable rooms data node
      let (fs, vs) ← readMembers rooms data nodes
      .ok (fs, v :: vs)
    | _ => readMembers rooms data nodes

/-- A contract. -/
def readContract (rooms : Rooms) (data : Bytes) (node : Json) : Except Fault Contract := do
  let (functions, stateVariables) ← readMembers rooms data (node.member "nodes").items
  let id ← match node.get? "id" with
    | some v => integer v
    | none => .ok (-1)
  let baseIds ← (node.member "linearizedBaseContracts").items.mapM integer
  let location ← location data node
  .ok {
    id
    name := (node.member "name").text
    kind := textOr "contract" "contractKind" node
    isAbstract := (node.member "abstract").isTrue
    functions, stateVariables, baseIds, location }

/-- The version text of the first version pragma. -/
def versionPragma : List Json → String
  | [] => ""
  | node :: nodes =>
    match nodeType node, (node.member "literals").items with
    | "PragmaDirective", .str "solidity" :: parts => String.join (parts.map Json.text)
    | _, _ => versionPragma nodes

/-- The declarations of a source file from its syntax tree.  What is not the tree of a source file
has none. -/
def readUnit (rooms : Rooms) (source : List Char) (fileName : String) (tree : Json) :
    Except Fault SourceUnit :=
  if nodeType tree ≠ "SourceUnit" then .ok { fileName }
  else do
    let nodes := (tree.member "nodes").items
    let data := Utf8.encode source
    let contracts ←
      (nodes.filter (nodeType · = "ContractDefinition")).mapM (readContract rooms data)
    .ok {
      contracts
      pragma := versionPragma nodes
      license := (tree.member "license").text
      fileName }

end HoneypotAudit.Solidity.Tree
