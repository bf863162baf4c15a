/-!
# Rooms

What is nested is gone through by functions that call themselves, and an interpreter has room for so
many open calls only.  How many levels that makes is up to the interpreter, to the callers and to
what the innermost calls need; nothing in the program says it.  So the rooms are parameters, one for
each place where the input decides how deep the calls go, and all that is proved is proved for all
rooms.
-/

namespace HoneypotAudit

/-- How much room there is for what is nested. -/
structure Rooms where
  /-- The levels of the type of a state variable that are read from a syntax tree. -/
  variableTypes : Nat
  /-- The levels of the type of a parameter that are read from a syntax tree. -/
  parameterTypes : Nat
  /-- The levels of a type that are described in a message. -/
  described : Nat
  /-- The levels of a type that are spelled as the source does it. -/
  spelled : Nat
  /-- The parentheses that are open at a place of a type text. -/
  parentheses : Nat
  /-- The calls for the parts of an ABI type that is looked up. -/
  lookUps : Nat
  /-- The calls that looking up a dimension takes. -/
  dimension : Nat
  /-- The calls that looking up a tuple takes. -/
  tuple : Nat
  /-- The levels of a value that is rendered. -/
  rendered : Nat
  /-- The lists and objects of a test report, one inside the other. -/
  reported : Nat
  /-- The lists and objects of a log line, one inside the other. -/
  logged : Nat
  /-- The lists and objects of a value in a message, one inside the other. -/
  shown : Nat
  /-- The directories that are made at once. -/
  made : Nat
  deriving Repr, DecidableEq

/-- The same room for everything, where each part of an ABI type takes one call. -/
def Rooms.same (room : Nat) : Rooms where
  variableTypes := room
  parameterTypes := room
  described := room
  spelled := room
  parentheses := room
  lookUps := room
  dimension := 1
  tuple := 1
  rendered := room
  reported := room
  logged := room
  shown := room
  made := room

end HoneypotAudit
