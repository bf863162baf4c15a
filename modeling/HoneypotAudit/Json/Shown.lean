import HoneypotAudit.Json.Printer
import HoneypotAudit.Text.Quoted

/-!
# JSON values in messages

A message shows a value in a notation of its own: `None`, `True` and `False` for the names, texts
between quotes as `Text.Quoted` writes them.
-/

namespace HoneypotAudit.Json

open HoneypotAudit.Text HoneypotAudit.Number

/-- How messages name the floating-point numbers that are not finite. -/
def messageStyle : Style :=
  { lineStyle with nan := "nan", infinity := "inf", negativeInfinity := "-inf" }

mutual

/-- A value as messages show it. -/
def shownOf : Json → List Char
  | .null => "None".toList
  | .bool b => if b then "True".toList else "False".toList
  | .int n => signedDecimal n
  | .float x => floatText messageStyle x
  | .str s => Quoted.ofChars s.toList
  | .garbled codes => Quoted.ofCodes codes
  | .arr items => '[' :: shownItems items ++ [']']
  | .obj members => '{' :: shownMembers members ++ ['}']

/-- The items of a list as messages show them. -/
def shownItems : List Json → List Char
  | [] => []
  | [v] => shownOf v
  | v :: rest => shownOf v ++ ',' :: ' ' :: shownItems rest

/-- The members of an object as messages show them. -/
def shownMembers : List (String × Json) → List Char
  | [] => []
  | [(k, v)] => Quoted.ofChars k.toList ++ ':' :: ' ' :: shownOf v
  | (k, v) :: rest =>
    Quoted.ofChars k.toList ++ ':' :: ' ' :: shownOf v ++ ',' :: ' ' :: shownMembers rest

end

/-- A value as messages show it. -/
def shown (v : Json) : String :=
  String.ofList (shownOf v)

/-- A value in a message, where a text stands without quotes. -/
def plain : Json → String
  | .str s => s
  | .garbled codes => textOfCodes codes
  | v => v.shown

end HoneypotAudit.Json
