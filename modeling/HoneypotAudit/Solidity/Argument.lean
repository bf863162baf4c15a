import HoneypotAudit.Solidity.Literal
import HoneypotAudit.Text.Lines

/-!
# Arguments

Values as argument expressions of their declared type.

* A scalar is a literal, in a conversion if the declared type is spelled differently from the ABI
  type.
* An array of a fixed length is an inline array.  Its first item is converted to the item type if
  it is a bare literal, so that the whole takes that item type.
* An array without a length has no literal: it is built in a memory variable by statements that
  have to run first, and the expression is the name of the variable.

A `Renderer` hands out the variables and collects the statements.  An item of an array is always
rendered before the array's own statements are added.
-/

namespace HoneypotAudit.Solidity

open HoneypotAudit.Text HoneypotAudit.Abi

/-! ## The renderer -/

/-- The statements collected so far and the number of the next variable. -/
structure Renderer where
  statements : List String := []
  next : Nat := 0
  deriving Repr, DecidableEq, Inhabited

/-- A rendering step; a fault leaves behind what was collected before it. -/
abbrev Rendering := ExceptT LiteralFault (StateM Renderer)

/-- Takes the name of a new variable. -/
def Rendering.fresh : Rendering String :=
  modifyGet fun r => ("ctorArg" ++ toString r.next, { r with next := r.next + 1 })

/-- Adds statements at the end. -/
def Rendering.emit (lines : List String) : Rendering Unit :=
  modify fun r => { r with statements := r.statements ++ lines }

/-! ## Type texts -/

/-- The text of the item type of an array type: all before the last opening bracket. -/
def elementText? (typeText : List Char) : Option (List Char) :=
  (cutLast? '[' typeText).map Prod.fst

/-- Whether a text ends with another. -/
def endsWith (ending cs : List Char) : Bool :=
  ending.isSuffixOf cs

/-! ## Rendering -/

/-- The items of a value that can be gone through: of a tuple its items, of a text its characters,
of bytes their numbers. -/
def items? : Value → Option (List Value)
  | .tuple items => some items
  | .text s => some (s.toList.map fun c => .text (String.singleton c))
  | .bytes bs => some (bs.map fun b => .int b.toNat)
  | _ => none

/-- The items of a value, or a fault if it has none. -/
def itemsOf (v : Value) : Rendering (List Value) :=
  match items? v with
  | some items => pure items
  | none => throw .unsuited

/-- Renders the items of a list from left to right. -/
def renderAll (render : Value → Rendering (List Char)) : List Value → Rendering (List (List Char))
  | [] => pure []
  | v :: vs => do
    let expr ← render v
    let exprs ← renderAll render vs
    pure (expr :: exprs)

/-- A scalar in the conversion that its declared type asks for. -/
def convert (literal abiType solType : List Char) : List Char :=
  if solType = abiType then literal
  else if solType = "address payable".toList then "payable(".toList ++ literal ++ [')']
  else solType ++ '(' :: literal ++ [')']

/-- An inline array of items whose types are given; a first item that is a bare literal is
converted. -/
def inlineArray (exprs : List (List Char)) (abiItem solItem : List Char) : List Char :=
  let exprs := match exprs with
    | first :: rest =>
      if !endsWith [']'] abiItem && solItem == abiItem then
        (solItem ++ '(' :: first ++ [')']) :: rest
      else exprs
    | [] => []
  '[' :: joinWith [',', ' '] exprs ++ [']']

/-- The statements that assign the items of an array variable, from an index on. -/
def assignments (name : String) : Nat → List (List Char) → List String
  | _, [] => []
  | i, expr :: exprs =>
    (name ++ "[" ++ toString i ++ "] = " ++ String.ofList expr ++ ";")
      :: assignments name (i + 1) exprs

/-- The statement that allocates an array variable of so many items. -/
def allocation (name : String) (solItem : List Char) (count : Nat) : String :=
  let item := String.ofList solItem
  item ++ "[] memory " ++ name ++ " = new " ++ item ++ "[](" ++ toString count ++ ");"

/-- The expression of a value of at most `room` levels, of an ABI type that is declared as a
Solidity type. -/
def render : (room : Nat) → List Char → List Char → Value → Rendering (List Char)
  | 0, _, _, _ => throw .tooDeep
  | room + 1, abiType, solType, v =>
    if endsWith [']'] abiType then
      match elementText? abiType, elementText? solType with
      | some abiItem, some solItem =>
        if endsWith ['[', ']'] abiType then do
          let name ← Rendering.fresh
          let exprs ← renderAll (render room abiItem solItem) (← itemsOf v)
          Rendering.emit (allocation name solItem exprs.length :: assignments name 0 exprs)
          pure name.toList
        else do
          let exprs ← renderAll (render room abiItem solItem) (← itemsOf v)
          pure (inlineArray exprs abiItem solItem)
      | _, _ => throw .noBracket
    else
      match literal v abiType with
      | .ok expr => pure (convert expr abiType solType)
      | .error fault => throw fault

end HoneypotAudit.Solidity
