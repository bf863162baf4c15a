import HoneypotAudit.Json.Basic
import HoneypotAudit.Number.Numeral

/-!
# Validation

Reading the fields of a record from JSON values.  All that is wrong is found, not only the first
thing: an `Issue` names the field and what is wrong with it.

Numbers are read generously: an integer may be given as a text or as a number without a fraction,
and truth values count as one and zero.
-/

namespace HoneypotAudit.Validation

open HoneypotAudit.Text HoneypotAudit.Number

/-! ## Issues -/

/-- What can be wrong with a field. -/
inductive IssueKind where
  | missing
  | unknown
  | notText
  | garbledText
  | notChoice
  | notMember
  | notInteger
  | fractional
  | notFinite
  | unreadableInteger
  | longInteger
  | notNumber
  | unreadableNumber
  | notList
  | notObject
  | notRecord
  deriving Repr, DecidableEq

/-- The name of what is wrong. -/
def IssueKind.text : IssueKind → String
  | .missing => "missing"
  | .unknown => "extra_forbidden"
  | .notText => "string_type"
  | .garbledText => "string_unicode"
  | .notChoice => "literal_error"
  | .notMember => "enum"
  | .notInteger => "int_type"
  | .fractional => "int_from_float"
  | .notFinite => "finite_number"
  | .unreadableInteger => "int_parsing"
  | .longInteger => "int_parsing_size"
  | .notNumber => "float_type"
  | .unreadableNumber => "float_parsing"
  | .notList => "list_type"
  | .notObject => "dict_type"
  | .notRecord => "model_type"

/-- Something that is wrong with a field. -/
structure Issue where
  /-- The way to the field, with points between its parts. -/
  path : String
  kind : IssueKind
  deriving Repr, DecidableEq

/-- The wording of issues. -/
def messageOf (issues : List Issue) : String :=
  "; ".intercalate (issues.map fun i => i.path ++ ": " ++ i.kind.text)

/-- The order of issues: by field, then by what is wrong. -/
def Issue.before (a b : Issue) : Bool :=
  decide (a.path < b.path) || (a.path == b.path && decide (a.kind.text ≤ b.kind.text))

/-- Adds an issue to issues in order. -/
def addIssue (i : Issue) : List Issue → List Issue
  | [] => [i]
  | j :: js => if i.before j then i :: j :: js else j :: addIssue i js

/-- Issues in order. -/
def sortIssues (is : List Issue) : List Issue :=
  is.foldr addIssue []

/-- The way to a part of a field. -/
def below (path part : String) : String :=
  if path.isEmpty then part else path ++ "." ++ part

/-! ## Checked values -/

/-- A value, or all that is wrong with it. -/
inductive Checked (α : Type) where
  | good (x : α)
  | bad (issues : List Issue)

namespace Checked

/-- A value of which one thing is wrong. -/
def wrong {α : Type} (path : String) (kind : IssueKind) : Checked α :=
  .bad [⟨path, kind⟩]

/-- Applies a function to a checked value. -/
def map {α β : Type} (f : α → β) : Checked α → Checked β
  | .good x => .good (f x)
  | .bad is => .bad is

/-- Applies a checked function to a checked value and keeps what is wrong with either. -/
def ap {α β : Type} (f : Checked (α → β)) (x : Checked α) : Checked β :=
  match f, x with
  | .good f, .good x => .good (f x)
  | .good _, .bad is => .bad is
  | .bad is, .good _ => .bad is
  | .bad is, .bad js => .bad (is ++ js)

/-- The values of a list of checked values. -/
def all {α : Type} : List (Checked α) → Checked (List α)
  | [] => .good []
  | x :: xs => (x.map fun y ys => y :: ys).ap (all xs)

/-- The value, or what is wrong in order. -/
def toExcept {α : Type} : Checked α → Except (List Issue) α
  | .good x => .ok x
  | .bad is => .error (sortIssues is)

end Checked

/-! ## Readers -/

/-- A reader of a field at a path. -/
abbrev Reader (α : Type) := String → Json → Checked α

/-- A text. -/
def text : Reader String := fun path v =>
  match v with
  | .str s => .good s
  | .garbled _ => .wrong path .garbledText
  | _ => .wrong path .notText

/-- A value or null. -/
def nullable {α : Type} (read : Reader α) : Reader (Option α) := fun path v =>
  match v with
  | .null => .good none
  | v => (read path v).map some

/-- One of the texts of a list. -/
def choice (options : List String) : Reader String := fun path v =>
  match v with
  | .str s => if s ∈ options then .good s else .wrong path .notChoice
  | _ => .wrong path .notChoice

/-- A member of an enumeration by its name. -/
def named {α : Type} (ofText? : String → Option α) : Reader α := fun path v =>
  match v with
  | .str s =>
    match ofText? s with
    | some x => .good x
    | none => .wrong path .notMember
  | _ => .wrong path .notMember

/-- The integers that a floating-point number may stand for lie strictly between this bound and
its opposite. -/
def wholeBound : Int := 0x8000000000000000

/-- An integer. -/
def integer : Reader Int := fun path v =>
  match v with
  | .int n => .good n
  | .bool b => .good (if b then 1 else 0)
  | .float x =>
    match x.truncate? with
    | none => .wrong path .notFinite
    | some n =>
      if !(x - .ofInt n).isZero then .wrong path .fractional
      else if -wholeBound < n ∧ n < wholeBound then .good n
      else .wrong path .longInteger
  | .str s =>
    match Numeral.readInteger s.toList with
    | .ok n => .good n
    | .error .malformed => .wrong path .unreadableInteger
    | .error (.tooLong _) => .wrong path .longInteger
  | _ => .wrong path .notInteger

/-- A floating-point number.  An integer beyond all of them is none. -/
def number : Reader Binary64 := fun path v =>
  match v with
  | .int n =>
    match Binary64.ofInt n with
    | .infinite _ => .wrong path .notNumber
    | x => .good x
  | .bool b => .good (.ofInt (if b then 1 else 0))
  | .float x => .good x
  | .str s =>
    match Numeral.readFloat? s.toList with
    | some x => .good x
    | none => .wrong path .unreadableNumber
  | _ => .wrong path .notNumber

/-- The items of a list with their positions. -/
def items {α : Type} (read : Reader α) (path : String) : Nat → List Json → List (Checked α)
  | _, [] => []
  | i, v :: vs => read (below path (toString i)) v :: items read path (i + 1) vs

/-- A list. -/
def list {α : Type} (read : Reader α) : Reader (List α) := fun path v =>
  match v with
  | .arr vs => .all (items read path 0 vs)
  | _ => .wrong path .notList

/-- The members of an object as they are. -/
def members : Reader Json.Members := fun path v =>
  match v with
  | .obj ms => .good ms
  | _ => .wrong path .notObject

/-- A member that has to be there. -/
def required {α : Type} (read : Reader α) (path key : String) (ms : Json.Members) : Checked α :=
  match Json.find? key ms with
  | some v => read (below path key) v
  | none => .wrong (below path key) .missing

/-- A member with a value for when it is not there. -/
def defaulted {α : Type} (read : Reader α) (default : α) (path key : String)
    (ms : Json.Members) : Checked α :=
  match Json.find? key ms with
  | some v => read (below path key) v
  | none => .good default

end HoneypotAudit.Validation
