import HoneypotAudit.Solidity.TypeName
import HoneypotAudit.Source.Position

/-!
# Declarations

The contracts of a source unit with their functions and state variables, in the order in which they
are declared.

* `SourceUnit.mainContract?` is the contract that an analysis is about.
* `SourceUnit.linearized` is a contract with its bases, as far as the source unit holds them.
* `Contract.constructor?` is the constructor of a contract itself.
-/

namespace HoneypotAudit.Solidity

open HoneypotAudit.Source

/-! ## Properties of declarations -/

/-- From where a declaration can be used. -/
inductive Visibility where
  | «public»
  | external
  | internal
  | «private»
  deriving Repr, DecidableEq, Inhabited

/-- The keyword of a visibility. -/
def Visibility.text : Visibility → String
  | .public => "public"
  | .external => "external"
  | .internal => "internal"
  | .private => "private"

/-- The visibility of a keyword. -/
def Visibility.ofText? (s : String) : Option Visibility :=
  [Visibility.public, .external, .internal, .private].find? (·.text = s)

/-- Whether only the contract and what inherits from it can use the declaration. -/
def Visibility.isInternal : Visibility → Bool
  | .internal => true
  | .private => true
  | _ => false

/-- What a function may do with the state and with money sent to it. -/
inductive StateMutability where
  | pure
  | view
  | nonpayable
  | payable
  deriving Repr, DecidableEq, Inhabited

/-- The keyword of a state mutability. -/
def StateMutability.text : StateMutability → String
  | .pure => "pure"
  | .view => "view"
  | .nonpayable => "nonpayable"
  | .payable => "payable"

/-- The state mutability of a keyword. -/
def StateMutability.ofText? (s : String) : Option StateMutability :=
  [StateMutability.pure, .view, .nonpayable, .payable].find? (·.text = s)

/-- Whether a state variable can change. -/
inductive VariableMutability where
  | changing
  | immutable
  | constant
  deriving Repr, DecidableEq, Inhabited

/-- The word for the mutability of a variable. -/
def VariableMutability.text : VariableMutability → String
  | .changing => "mutable"
  | .immutable => "immutable"
  | .constant => "constant"

/-! ## Declarations -/

/-- A parameter of a function. -/
structure Parameter where
  name : String
  type : TypeName
  storage : String := ""
  deriving Repr, DecidableEq, Inhabited

/-- A function.  The name is empty for constructors, fallback and receive functions that are
declared by a keyword of their own. -/
structure FunctionDecl where
  name : String
  kind : String := "function"
  visibility : Visibility := .public
  mutability : StateMutability := .nonpayable
  isConstructor : Bool := false
  parameters : List Parameter := []
  location : Location := {}
  body : Option Location := none
  deriving Repr, DecidableEq, Inhabited

/-- A state variable. -/
structure StateVariable where
  name : String
  type : TypeName
  visibility : Visibility := .internal
  mutability : VariableMutability := .changing
  location : Location := {}
  deriving Repr, DecidableEq, Inhabited

/-- A contract, a library or an interface. -/
structure Contract where
  id : Int
  name : String
  kind : String := "contract"
  isAbstract : Bool := false
  functions : List FunctionDecl := []
  stateVariables : List StateVariable := []
  /-- The identifiers of the contract and its bases, most derived first. -/
  baseIds : List Int := []
  location : Location := {}
  deriving Repr, DecidableEq, Inhabited

/-- The constructor of a contract: the first function without a name that is one.  A function that
has the name of its contract, or the name `constructor`, is none. -/
def Contract.constructor? (c : Contract) : Option FunctionDecl :=
  c.functions.find? fun f => f.isConstructor && f.name.isEmpty

/-! ## Source units -/

/-- What is declared in one source file. -/
structure SourceUnit where
  contracts : List Contract := []
  pragma : String := ""
  license : String := ""
  fileName : String := ""
  deriving Repr, DecidableEq, Inhabited

namespace SourceUnit

/-- The contract of an identifier; the last one if several have it. -/
def contractOf? (u : SourceUnit) (id : Int) : Option Contract :=
  u.contracts.reverse.find? (·.id = id)

/-- The contract that an analysis is about: the last one that can be deployed, or the last abstract
one if there is none.  Libraries and interfaces do not count. -/
def mainContract? (u : SourceUnit) : Option Contract :=
  let contracts := u.contracts.reverse.filter (·.kind = "contract")
  (contracts.find? fun c => !c.isAbstract) <|> contracts.head?

/-- A contract followed by its bases, most derived first.  Bases that the source unit does not hold
are left out. -/
def linearized (u : SourceUnit) (c : Contract) : List Contract :=
  let chain := c.baseIds.filterMap u.contractOf?
  match chain with
  | [] => [c]
  | first :: _ => if first.id = c.id then chain else c :: chain

/-- The functions of a contract and of its bases. -/
def functionsOf (u : SourceUnit) (c : Contract) : List FunctionDecl :=
  (u.linearized c).flatMap (·.functions)

end SourceUnit

end HoneypotAudit.Solidity
