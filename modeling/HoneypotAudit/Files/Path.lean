import HoneypotAudit.Text.Lines

/-!
# Paths

A path is absolute or relative and has parts.  Empty parts and parts that are a single point say
nothing and are dropped when a path is read; a part of two points leads to the directory above.
Two slashes in front, and no more, are kept; they lead where one leads.
-/

namespace HoneypotAudit.Files

open HoneypotAudit.Text

/-- A path. -/
structure Path where
  isAbsolute : Bool := false
  /-- Whether an absolute path is written with two slashes in front. -/
  isDoubled : Bool := false
  parts : List String := []
  deriving Repr, DecidableEq, Inhabited

namespace Path

/-- A path from the working directory. -/
def relative (parts : List String) : Path :=
  { parts }

/-- A path from the root. -/
def absolute (parts : List String) : Path :=
  { isAbsolute := true, parts }

/-- The path that a text spells. -/
def ofText (s : String) : Path :=
  let slashes := (s.toList.takeWhile (· = '/')).length
  { isAbsolute := slashes ≠ 0
    isDoubled := slashes = 2
    parts := ((splitOn '/' s.toList).map String.ofList).filter fun part => part ≠ "" ∧ part ≠ "." }

/-- The text of a path.  A relative path without parts is a point. -/
def text (p : Path) : String :=
  if p.isAbsolute then (if p.isDoubled then "//" else "/") ++ "/".intercalate p.parts
  else if p.parts.isEmpty then "."
  else "/".intercalate p.parts

/-- The path that leads on from another one.  An absolute path does not depend on it. -/
def join (p q : Path) : Path :=
  if q.isAbsolute then q else { p with parts := p.parts ++ q.parts }

/-- The path of the directory that a path leads into. -/
def parent (p : Path) : Path :=
  { p with parts := p.parts.dropLast }

end Path

/-- A place in the file tree: the names on the way from the root. -/
abbrev Location := List String

/-- The place that parts lead to from a place, where two points lead up whatever is there. -/
def Location.follow (start : Location) (parts : List String) : Location :=
  parts.foldl (fun at_ part => if part = ".." then at_.dropLast else at_ ++ [part]) start

/-- The place of a path, seen from a working directory. -/
def Path.resolve (p : Path) (workingDirectory : Location) : Location :=
  Location.follow (if p.isAbsolute then [] else workingDirectory) p.parts

/-- The absolute path of a place. -/
def Location.toPath (l : Location) : Path :=
  .absolute l

end HoneypotAudit.Files
