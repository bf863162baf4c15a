import HoneypotAudit.Files.Path
import HoneypotAudit.Text.Quoted

/-!
# File trees

The files and directories that an analysis sees, by their places.  The root is always a directory.
Every operation that can fail says why with the path that it was about.

The bytes of a name and of a whole path are limited (`maxName`, `pathLimit`), and no path has a
null character.  A path is refused for its own text before anything is looked up (`Path.fault?`); a
name that is too long is noticed when it is looked up in its directory (`Tree.lookUp`).
-/

namespace HoneypotAudit.Files

open HoneypotAudit.Text

/-! ## Faults -/

/-- Why an operation on files fails. -/
inductive FaultKind where
  | missing
  | exists
  | notDirectory
  | isDirectory
  | nameTooLong
  | embeddedNull
  | tooDeep
  deriving Repr, DecidableEq

/-- A failed operation on a path. -/
structure Fault where
  kind : FaultKind
  path : Path
  deriving Repr, DecidableEq

/-- The number and the text of a kind of fault. -/
def FaultKind.text : FaultKind → String
  | .missing => "[Errno 2] No such file or directory"
  | .exists => "[Errno 17] File exists"
  | .notDirectory => "[Errno 20] Not a directory"
  | .isDirectory => "[Errno 21] Is a directory"
  | .nameTooLong => "[Errno 36] File name too long"
  | .embeddedNull => "embedded null byte"
  | .tooDeep => "Too many directories are missing"

/-- The wording of a fault, which names the path unless that has a null character in it. -/
def Fault.message (f : Fault) : String :=
  match f.kind with
  | .embeddedNull => f.kind.text
  | kind => kind.text ++ ": " ++ Quoted.ofString f.path.text

/-! ## Limits -/

/-- The most bytes of a name. -/
def maxName : Nat := 255

/-- The paths of so many bytes and more are refused. -/
def pathLimit : Nat := 4096

/-- The fault of a path with a null character. -/
def Path.nullFault? (p : Path) : Option FaultKind :=
  if p.parts.any (·.toList.contains '\x00') then some .embeddedNull else none

/-- What is wrong with a path, whatever there is. -/
def Path.fault? (p : Path) : Option FaultKind :=
  p.nullFault? <|> if pathLimit ≤ p.text.utf8ByteSize then some .nameTooLong else none

/-! ## Trees -/

/-- What is at a place. -/
inductive Entry where
  | directory
  | file (content : Bytes)
  deriving Repr, DecidableEq, Inhabited

/-- Entries by their places. -/
structure Tree where
  entries : List (Location × Entry) := []
  deriving Repr, DecidableEq, Inhabited

namespace Tree

/-- What is at a place. -/
def get? (t : Tree) (l : Location) : Option Entry :=
  if l = [] then some .directory else (t.entries.find? (·.1 = l)).map (·.2)

/-- Puts an entry at a place, in the stead of one that is there. -/
def put (t : Tree) (l : Location) (e : Entry) : Tree :=
  ⟨t.entries.filter (·.1 ≠ l) ++ [(l, e)]⟩

/-- What was put at a place is there. -/
theorem get?_put_self {t : Tree} {l : Location} {e : Entry} (h : l ≠ []) :
    (t.put l e).get? l = some e := by
  have absent : (t.entries.filter (·.1 ≠ l)).find? (·.1 = l) = none := by
    rw [List.find?_eq_none]
    intro entry kept
    simpa using (List.mem_filter.mp kept).2
  simp only [get?, put, if_neg h, List.find?_append, absent]
  simp

/-- Putting an entry at a place changes no other place. -/
theorem get?_put_of_ne {t : Tree} {l other : Location} {e : Entry} (h : other ≠ l) :
    (t.put l e).get? other = t.get? other := by
  have kept : (t.entries.filter (·.1 ≠ l)).find? (·.1 = other) =
      t.entries.find? (·.1 = other) := by
    rw [List.find?_filter]
    congr 1
    funext entry
    by_cases same : entry.1 = other
    · simp [same, h]
    · simp [same]
  simp only [get?, put, List.find?_append, kept]
  cases t.entries.find? (·.1 = other) <;> simp [Ne.symm h]

/-- Removes a place with all below it. -/
def removeBelow (t : Tree) (l : Location) : Tree :=
  ⟨t.entries.filter fun e => !l.isPrefixOf e.1⟩

/-- Whether there is a directory at a place. -/
def isDirectory (t : Tree) (l : Location) : Bool :=
  t.get? l = some .directory

/-- The content of the file at a place. -/
def content? (t : Tree) (l : Location) : Option Bytes :=
  match t.get? l with
  | some (.file content) => some content
  | _ => none

/-- The entries below a place, with their places seen from there. -/
def below (t : Tree) (l : Location) : List (Location × Entry) :=
  t.entries.filterMap fun (place, e) =>
    if l.isPrefixOf place ∧ l ≠ place then some (place.drop l.length, e) else none

/-! ## Walking -/

/-- What is under a name in a directory.  A name that is too long stands for nothing, and asking for
it is a fault. -/
def lookUp (t : Tree) (l : Location) (name : String) : Except FaultKind (Option Entry) :=
  match t.get? (l ++ [name]) with
  | some entry => .ok (some entry)
  | none => if maxName < name.utf8ByteSize then .error .nameTooLong else .ok none

/-- The directory that parts lead to from a directory, all of which have to be there. -/
def walk (t : Tree) : Location → List String → Except FaultKind Location
  | l, [] => .ok l
  | l, part :: rest =>
    if part = ".." then t.walk l.dropLast rest
    else
      match t.lookUp l part with
      | .ok (some .directory) => t.walk (l ++ [part]) rest
      | .ok (some (.file _)) => .error .notDirectory
      | .ok none => .error .missing
      | .error kind => .error kind

/-- What parts lead to from a directory. -/
def find (t : Tree) (start : Location) (parts : List String) : Except FaultKind Entry := do
  let l ← t.walk start parts.dropLast
  match parts.getLast? with
  | none => .ok .directory
  | some ".." => .ok .directory
  | some name =>
    match ← t.lookUp l name with
    | some entry => .ok entry
    | none => .error .missing

/-- What comes of making directories: the tree, and the kind of a fault with the parts that it is
about. -/
structure Way where
  tree : Tree
  fault : Option (FaultKind × List String) := none

/-- Makes the directories that are missing on a way, of which a part is walked already, if there is
room for so many.  A fault is about the whole way, but once a directory has been made it is about
the way up to it. -/
def makeWay (room : Nat) (t : Tree) (made : Bool) (l : Location) (walked : List String) :
    List String → Way
  | [] => { tree := t }
  | part :: rest =>
    let walked := walked ++ [part]
    let blamed := if made then walked else walked ++ rest
    if part = ".." then makeWay room t made l.dropLast walked rest
    else
      match t.lookUp l part with
      | .ok (some .directory) => makeWay room t made (l ++ [part]) walked rest
      | .ok (some (.file _)) =>
        let kind : FaultKind := if made || rest.isEmpty then .exists else .notDirectory
        { tree := t, fault := some (kind, blamed) }
      | .ok none =>
        if !made && decide (room ≤ rest.length) then
          { tree := t, fault := some (.tooDeep, blamed) }
        else makeWay room (t.put (l ++ [part]) .directory) true (l ++ [part]) walked rest
      | .error kind => { tree := t, fault := some (kind, blamed) }

/-! ## Operations on paths -/

/-- What an operation makes of a tree.  A fault takes nothing back. -/
structure Outcome where
  tree : Tree
  fault : Option Fault := none

/-- The directory from which a path leads on. -/
def startOf (workingDirectory : Location) (p : Path) : Location :=
  if p.isAbsolute then [] else workingDirectory

/-- Makes a directory and those above it, as far as they are missing. -/
def makeDirectories (room : Nat) (t : Tree) (workingDirectory : Location) (p : Path) : Outcome :=
  match p.fault? with
  | some kind => { tree := t, fault := some ⟨kind, p⟩ }
  | none =>
    let way := makeWay room t false (startOf workingDirectory p) [] p.parts
    { tree := way.tree
      fault := way.fault.map fun (kind, parts) => ⟨kind, { p with parts }⟩ }

/-- Whether there is something at a path. -/
def hasPath (t : Tree) (workingDirectory : Location) (p : Path) : Bool :=
  match t.find (startOf workingDirectory p) p.parts with
  | .ok _ => true
  | .error _ => false

/-- The place where a file can be written that a path leads to. -/
def placeFor (t : Tree) (workingDirectory : Location) (p : Path) : Except FaultKind Location := do
  let l ← t.walk (startOf workingDirectory p) p.parts.dropLast
  match p.parts.getLast? with
  | none => .error .isDirectory
  | some ".." => .error .isDirectory
  | some name =>
    match ← t.lookUp l name with
    | some .directory => .error .isDirectory
    | _ => .ok (l ++ [name])

/-- Writes a file into a directory that has to be there. -/
def write (t : Tree) (workingDirectory : Location) (p : Path) (content : Bytes) : Outcome :=
  match p.fault? with
  | some kind => { tree := t, fault := some ⟨kind, p⟩ }
  | none =>
    match t.placeFor workingDirectory p with
    | .ok place => { tree := t.put place (.file content) }
    | .error kind => { tree := t, fault := some ⟨kind, p⟩ }

/-- The content of the file at the place of a path, if there is a file.  Two points in the path lead
up whatever is there, and a fault is about the place. -/
def read (t : Tree) (workingDirectory : Location) (p : Path) : Except Fault (Option Bytes) :=
  let place := p.resolve workingDirectory
  let found : Except FaultKind Entry :=
    match p.nullFault? <|> place.toPath.fault? with
    | some kind => .error kind
    | none => t.find [] place
  match found with
  | .ok (.file content) => .ok (some content)
  | .ok .directory => .ok none
  | .error .missing => .ok none
  | .error .notDirectory => .ok none
  | .error kind => .error ⟨kind, place.toPath⟩

end Tree

end HoneypotAudit.Files
