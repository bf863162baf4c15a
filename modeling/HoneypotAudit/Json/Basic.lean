import HoneypotAudit.Number.Decimal

/-!
# JSON values

A value is null, a truth value, an integer, a floating-point number, a text, a list or an object.
Integers and floating-point numbers are told apart as the text told them apart.  An object is the
list of its members in order, each key once (`Json.insert` keeps this).

The escapes of JSON can spell half of a UTF-16 pair alone, which is no character.  A text with such
halves is kept apart as `garbled`, by its code numbers.
-/

namespace HoneypotAudit

/-- A JSON value. -/
inductive Json where
  | null
  | bool (b : Bool)
  | int (n : Int)
  | float (x : Number.Binary64)
  | str (s : String)
  | garbled (codes : List Nat)
  | arr (items : List Json)
  | obj (members : List (String × Json))
  deriving Inhabited, Repr

namespace Json

/-- The members of an object. -/
abbrev Members := List (String × Json)

/-- The value of a key. -/
def find? (key : String) : Members → Option Json
  | [] => none
  | (k, v) :: rest => if k = key then some v else find? key rest

/-- Sets a key: in its place if it is there, else at the end. -/
def insert (key : String) (value : Json) : Members → Members
  | [] => [(key, value)]
  | (k, v) :: rest => if k = key then (k, value) :: rest else (k, v) :: insert key value rest

/-- The members of an object that a sequence of keys and values describes: the last value of a key
counts, in the place of its first one. -/
def ofPairs (pairs : Members) : Members :=
  pairs.foldl (fun ms p => insert p.1 p.2 ms) []

/-- The member of a value, if it is an object that has it. -/
def get? (key : String) : Json → Option Json
  | .obj members => find? key members
  | _ => none

/-- Null, false, zero and what is empty count as false. -/
def isTrue : Json → Bool
  | .null => false
  | .bool b => b
  | .int n => n != 0
  | .float x => !x.isZero
  | .str s => !s.isEmpty
  | .garbled codes => !codes.isEmpty
  | .arr items => !items.isEmpty
  | .obj members => !members.isEmpty

/-- Whether a value is null. -/
def isNull : Json → Bool
  | .null => true
  | _ => false

/-- The member of an object; one that is not there is null. -/
def member (key : String) (v : Json) : Json :=
  (v.get? key).getD .null

/-- The character of a code number; half of a UTF-16 pair becomes the replacement character. -/
def charOfCode (n : Nat) : Char :=
  if n.isValidChar then Char.ofNat n else '\uFFFD'

/-- The text of code numbers. -/
def textOfCodes (codes : List Nat) : String :=
  String.ofList (codes.map charOfCode)

/-- The mark in names that are kept. -/
def nameMark : Char := '\uFFFD'

/-- A name in which no code number is lost.  The mark is doubled, and halves of UTF-16 pairs are
marked characters for private use. -/
def keptName (codes : List Nat) : String :=
  String.ofList (codes.flatMap fun n =>
    if n = nameMark.toNat then [nameMark, nameMark]
    else if n.isValidChar then [Char.ofNat n]
    else [nameMark, Char.ofNat (n - 0xD800 + 0xE000)])

/-- The text of a name that was kept, unless it has halves of UTF-16 pairs in it. -/
def nameText? : List Char → Option (List Char)
  | [] => some []
  | c :: cs =>
    if c = nameMark then
      match cs with
      | d :: rest => if d = nameMark then (nameText? rest).map (nameMark :: ·) else none
      | [] => none
    else (nameText? cs).map (c :: ·)

/-- A name that was kept as messages show it, with the replacement character for each half. -/
def nameShown : List Char → List Char
  | [] => []
  | [c] => [c]
  | c :: d :: cs => if c = nameMark then c :: nameShown cs else c :: nameShown (d :: cs)

/-- The value that a text of code numbers is. -/
def ofCodes (codes : List Nat) : Json :=
  if codes.all fun n => n.isValidChar then .str (textOfCodes codes) else .garbled codes

/-- The text in a value, empty for all but texts. -/
def text : Json → String
  | .str s => s
  | .garbled codes => textOfCodes codes
  | _ => ""

/-- The items of a list, none for all but lists. -/
def items : Json → List Json
  | .arr vs => vs
  | _ => []

/-- The members of an object, none for all but objects. -/
def members : Json → Members
  | .obj ms => ms
  | _ => []

/-! ## Depth -/

mutual

/-- How deep the parts of a value are nested; a value without parts has depth one. -/
def depth : Json → Nat
  | .arr items => depthOfItems items + 1
  | .obj members => depthOfMembers members + 1
  | _ => 1

/-- The depth of the deepest item, or zero. -/
def depthOfItems : List Json → Nat
  | [] => 0
  | v :: rest => max (depth v) (depthOfItems rest)

/-- The depth of the deepest member, or zero. -/
def depthOfMembers : List (String × Json) → Nat
  | [] => 0
  | (_, v) :: rest => max (depth v) (depthOfMembers rest)

end

/-! ## Equality -/

mutual

/-- Whether two values are the same. -/
def same : Json → Json → Bool
  | .null, .null => true
  | .bool a, .bool b => a == b
  | .int m, .int n => m == n
  | .float x, .float y => decide (x = y)
  | .str s, .str t => s == t
  | .garbled codes, .garbled codes' => codes == codes'
  | .arr items, .arr items' => sameItems items items'
  | .obj members, .obj members' => sameMembers members members'
  | _, _ => false

/-- Whether two lists have the same items. -/
def sameItems : List Json → List Json → Bool
  | [], [] => true
  | v :: vs, w :: ws => same v w && sameItems vs ws
  | _, _ => false

/-- Whether two objects have the same members in the same order. -/
def sameMembers : List (String × Json) → List (String × Json) → Bool
  | [], [] => true
  | (k, v) :: ms, (l, w) :: ns => k == l && same v w && sameMembers ms ns
  | _, _ => false

end

mutual

theorem same_iff : ∀ v w : Json, same v w = true ↔ v = w
  | .null, w | .bool _, w | .int _, w | .float _, w | .str _, w | .garbled _, w => by
    cases w <;> simp [same]
  | .arr items, w => by cases w <;> simp [same, sameItems_iff items]
  | .obj members, w => by cases w <;> simp [same, sameMembers_iff members]

theorem sameItems_iff : ∀ vs ws : List Json, sameItems vs ws = true ↔ vs = ws
  | [], ws => by cases ws <;> simp [sameItems]
  | v :: vs, ws => by cases ws <;> simp [sameItems, same_iff v, sameItems_iff vs]

theorem sameMembers_iff : ∀ ms ns : List (String × Json), sameMembers ms ns = true ↔ ms = ns
  | [], ns => by cases ns <;> simp [sameMembers]
  | (k, v) :: ms, ns => by
    cases ns <;> simp [sameMembers, same_iff v, sameMembers_iff ms, Prod.ext_iff]

end

instance : DecidableEq Json := fun v w => decidable_of_iff (same v w = true) (same_iff v w)

/-! ## Members -/

@[simp] theorem find?_insert_self (key : String) (value : Json) (ms : Members) :
    find? key (insert key value ms) = some value := by
  induction ms with
  | nil => simp [insert, find?]
  | cons m ms ih =>
    obtain ⟨k, v⟩ := m
    by_cases h : k = key <;> simp [insert, find?, h, ih]

theorem find?_insert_of_ne {key other : String} (h : other ≠ key) (value : Json) (ms : Members) :
    find? other (insert key value ms) = find? other ms := by
  induction ms with
  | nil => simp [insert, find?, Ne.symm h]
  | cons m ms ih =>
    obtain ⟨k, v⟩ := m
    by_cases hk : k = key
    · subst hk
      simp [insert, find?, Ne.symm h]
    · rw [insert, if_neg hk]
      by_cases ho : k = other <;> simp [find?, ho, ih]

end Json

end HoneypotAudit
