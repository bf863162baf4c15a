import HoneypotAudit.Failure
import HoneypotAudit.Log.Template

/-!
# Log records

A record has a level, a logger and a message.  It may carry the place in the program that wrote it,
an error, and further attributes: the contract and the transaction that it is about, measures that
machines read, and parts of the record itself, which they replace.
-/

namespace HoneypotAudit.Log

open HoneypotAudit.Text

/-! ## Levels -/

/-- The levels that have a name. -/
def levelNames : List (Int × String) :=
  [(50, "CRITICAL"), (40, "ERROR"), (30, "WARNING"), (20, "INFO"), (10, "DEBUG"), (0, "NOTSET")]

/-- The name of a level. -/
def levelName (level : Int) : String :=
  (levelNames.lookup level).getD ("Level " ++ String.ofList (signedDecimal level))

/-- The level of messages for those who search for faults. -/
def debug : Int := 10

/-- The level of messages about what happens. -/
def info : Int := 20

/-- The level of messages about what went wrong without stopping anything. -/
def warning : Int := 30

/-- The level of messages about what failed. -/
def error : Int := 40

/-! ## Errors -/

/-- An error that is attached to a record. -/
structure Raised where
  type : String
  /-- The type with the module that declares it. -/
  qualified : String
  message : String
  deriving Repr, DecidableEq

/-- An error by the name of its type.  An error about a missing key shows the key between quotes. -/
def Raised.ofType (type message : String) : Raised where
  type := type
  qualified :=
    if (FailureKind.ofText? type).isSome then "honeyprobe.core.errors." ++ type else type
  message := if type = "KeyError" then Quoted.ofString message else message

/-- The text of an error by itself. -/
def Raised.text (r : Raised) : String :=
  if r.message.isEmpty then r.qualified else r.qualified ++ ": " ++ r.message

/-! ## Records -/

/-- A log record. -/
structure Record where
  logger : String
  level : Int := info
  message : String
  /-- The file of the program that wrote the record; empty if it is not known. -/
  path : String := ""
  function : Option String := none
  line : Int := 0
  raised : Option Raised := none
  attributes : Json.Members := []
  deriving Repr

/-- Says which contract and which transaction a record is about. -/
def Record.about (r : Record) (contract transaction : String) : Record :=
  { r with
    attributes := Json.insert "tx_hash" (.str transaction)
      (Json.insert "contract_name" (.str contract) r.attributes) }

/-- A part of a record: what an attribute of that name says, or else what the record says. -/
def Record.part (r : Record) (name : String) (own : Json) : Json :=
  (Json.find? name r.attributes).getD own

/-! ## Messages with arguments -/

/-- The values that come with a template as its arguments: one object that has members stands for
itself. -/
def argumentsOf (values : List Json) : Option Template.Arguments :=
  match values with
  | [] => none
  | [.obj (m :: ms)] => some (.single (.obj (m :: ms)))
  | values => some (.listed values)

/-- A template filled with arguments; without any it is left as it is. -/
def fillTemplate (room : Nat) (template : String) :
    Option Template.Arguments → Except Template.Fault String
  | none => .ok template
  | some arguments => (Template.fill room template.toList arguments).map String.ofList

/-- The message of a record with a template and values for it.  Attributes may replace either. -/
def messageOf (room : Nat) (attributes : Json.Members) (template : Json) (values : List Json) :
    Except Template.Fault String :=
  let template := (Json.find? "msg" attributes).getD template
  let arguments := match Json.find? "args" attributes with
    | some v => if v.isTrue then some (.single v) else none
    | none => argumentsOf values
  match template.writeFault? room with
  | none => fillTemplate room template.plain arguments
  | some cause => .error (.ofWrite cause)

end HoneypotAudit.Log
