import HoneypotAudit.Solidity.Tree

/-!
# Facts about a contract

What an analysis knows about the contract that it is about: whether it is a token, whether it has an
owner, whether it keeps balances, and the names of its internal functions.  All of it is read off
the functions and state variables of the contract and of its bases.
-/

namespace HoneypotAudit.Solidity

/-! ## Names in order -/

/-- Adds a name to names in ascending order without repeats. -/
def addName (name : String) : List String → List String
  | [] => [name]
  | n :: ns =>
    if name < n then name :: n :: ns
    else if name = n then n :: ns
    else n :: addName name ns

/-- The names of a list in ascending order, each once. -/
def sortNames (names : List String) : List String :=
  names.foldr addName []

theorem mem_addName {name other : String} {ns : List String} :
    other ∈ addName name ns ↔ other = name ∨ other ∈ ns := by
  induction ns with
  | nil => simp [addName]
  | cons n ns ih =>
    rw [addName]
    split
    · simp
    · split
      · next h => subst h; simp
      · simp only [List.mem_cons, ih]
        constructor <;> rintro (h | h | h) <;> simp [h]

/-- Sorting keeps the names. -/
theorem mem_sortNames {name : String} {names : List String} :
    name ∈ sortNames names ↔ name ∈ names := by
  induction names with
  | nil => simp [sortNames]
  | cons n ns ih => rw [sortNames, List.foldr_cons, mem_addName, ← sortNames, ih, List.mem_cons]

/-! ## Facts -/

/-- The names that a token offers. -/
def tokenSurface : List String := ["totalSupply", "balanceOf", "transfer"]

/-- The names that a contract with an owner offers. -/
def ownableSurface : List String := ["owner", "transferOwnership"]

/-- Facts about the contract of an analysis. -/
structure Facts where
  contract : Contract
  isToken : Bool := false
  isOwnable : Bool := false
  hasBalance : Bool := false
  /-- In ascending order. -/
  internalFunctions : List String := []
  deriving Repr, DecidableEq, Inhabited

/-- The name of the contract. -/
def Facts.name (f : Facts) : String :=
  f.contract.name

/-- Whether there is anything to test. -/
def Facts.isApplicable (f : Facts) : Bool :=
  f.isToken || f.isOwnable

/-- A mapping from addresses to unsigned integers. -/
def isBalanceMapping : TypeName → Bool
  | .mapping (.elementary key) (.elementary value) =>
    key = "address" && "uint".toList.isPrefixOf value.toList
  | _ => false

/-- The names that can be called from outside: of functions that are not internal, and of public
state variables. -/
def callableNames (functions : List FunctionDecl) (stateVariables : List StateVariable) :
    List String :=
  (functions.filter fun f => !f.name.isEmpty && !f.visibility.isInternal).map (·.name) ++
    (stateVariables.filter (·.visibility = .public)).map (·.name)

/-- The facts about a contract, given its functions and state variables and those of its bases. -/
def Facts.ofMembers (contract : Contract) (functions : List FunctionDecl)
    (stateVariables : List StateVariable) : Facts :=
  let callable := callableNames functions stateVariables
  { contract
    isToken := tokenSurface.all callable.contains
    isOwnable := ownableSurface.all callable.contains
    hasBalance := stateVariables.any fun v => v.mutability = .changing && isBalanceMapping v.type
    internalFunctions := sortNames
      ((functions.filter fun f => !f.name.isEmpty && f.visibility.isInternal).map (·.name)) }

/-- A source unit has no contract to analyse. -/
structure NoContractFault where
  fileName : String
  deriving Repr, DecidableEq

/-- The wording of the fault. -/
def NoContractFault.message (f : NoContractFault) : String :=
  "No entry contract found in " ++ (if f.fileName.isEmpty then "source" else f.fileName)

/-- The facts about the main contract of a source unit. -/
def Facts.ofUnit (u : SourceUnit) : Except NoContractFault Facts :=
  match u.mainContract? with
  | none => .error ⟨u.fileName⟩
  | some c =>
    .ok (.ofMembers c (u.functionsOf c) ((u.linearized c).flatMap (·.stateVariables)))

end HoneypotAudit.Solidity
