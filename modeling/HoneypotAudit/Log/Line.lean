import HoneypotAudit.Log.Record
import HoneypotAudit.Rooms
import HoneypotAudit.Text.Lines

/-!
# Log lines

A record is written at a `Timestamp` in one of two formats: as a JSON object on one line, for
machines, or as a coloured line with the time of day, for people.
-/

namespace HoneypotAudit.Log

open HoneypotAudit.Text

/-! ## Time -/

/-- A moment in coordinated universal time. -/
structure Timestamp where
  year : Nat := 1970
  month : Nat := 1
  day : Nat := 1
  hour : Nat := 0
  minute : Nat := 0
  second : Nat := 0
  microsecond : Nat := 0
  deriving Repr, DecidableEq, Inhabited

/-- A number in so many digits. -/
def digits (width n : Nat) : String :=
  String.ofList (padLeft width '0' (decimal n))

/-- The time of day. -/
def Timestamp.timeOfDay (t : Timestamp) : String :=
  ":".intercalate [digits 2 t.hour, digits 2 t.minute, digits 2 t.second]

/-- Date and time; a fraction of a second is only shown if there is one. -/
def Timestamp.text (t : Timestamp) : String :=
  "-".intercalate [digits 4 t.year, digits 2 t.month, digits 2 t.day] ++ "T" ++ t.timeOfDay ++
    (if t.microsecond = 0 then "" else "." ++ digits 6 t.microsecond) ++ "+00:00"

/-- The seconds of a day. -/
def secondsPerDay : Nat := 86400

/-- The days from the first of March of the year zero to the first of January 1970. -/
def daysToEpoch : Nat := 719468

/-- The days of four hundred years. -/
def daysPerEra : Nat := 146097

/-- The moment so many seconds and microseconds after the start of 1970.  Years are counted from
March on, so that the day that only leap years have is the last one. -/
def Timestamp.ofUnix (seconds microsecond : Nat) : Timestamp :=
  let days := seconds / secondsPerDay + daysToEpoch
  let dayOfEra := days % daysPerEra
  let yearOfEra := (dayOfEra - dayOfEra / 1460 + dayOfEra / 36524 - dayOfEra / 146096) / 365
  let dayOfYear := dayOfEra - (365 * yearOfEra + yearOfEra / 4 - yearOfEra / 100)
  let monthFromMarch := (5 * dayOfYear + 2) / 153
  let year := yearOfEra + 400 * (days / daysPerEra)
  let rest := seconds % secondsPerDay
  { year := if 10 ≤ monthFromMarch then year + 1 else year
    month := if 10 ≤ monthFromMarch then monthFromMarch - 9 else monthFromMarch + 3
    day := dayOfYear - (153 * monthFromMarch + 2) / 5 + 1
    hour := rest / 3600
    minute := rest / 60 % 60
    second := rest % 60
    microsecond }

/-! ## Faults -/

/-- Why a record is not written. -/
inductive LineFault where
  /-- The name of the level is a number, of a kind that is named. -/
  | numberedLevel (kind : String)
  /-- A part is of a kind that it cannot have. -/
  | unsuited
  /-- An integer has more digits than are written. -/
  | longInteger
  /-- A value is nested too deep to be written. -/
  | tooDeep
  /-- What stands in the place of the error is a mapping. -/
  | mappedError
  /-- What stands in the place of the error has too few parts. -/
  | shortError
  /-- What stands in the place of the error has parts that are those of no error. -/
  | noError
  deriving Repr, DecidableEq

/-- The wording of a fault. -/
def LineFault.message : LineFault → String
  | .numberedLevel kind => "Unknown format code 's' for object of type '" ++ kind ++ "'"
  | .unsuited => "a part of the record is of an unsuited kind"
  | .longInteger => Integer.unwritableMessage
  | .tooDeep => "a value is nested too deep"
  | .mappedError => "a mapping stands in the place of the error"
  | .shortError => "the error has too few parts"
  | .noError => "the parts of the error are those of no error"

/-- The fault of a record in which a value is not written. -/
def LineFault.ofWrite : Json.WriteFault → LineFault
  | .longInteger => .longInteger
  | .tooDeep => .tooDeep

/-! ## Errors -/

/-- The formats of log lines. -/
inductive Format where
  | json
  | colored
  deriving Repr, DecidableEq

/-- The parts of a text or a list. -/
def partsOf? : Json → Option (List Json)
  | .str s => some (s.toList.map fun c => .str (String.singleton c))
  | .garbled codes => some (codes.map fun n => Json.ofCodes [n])
  | .arr items => some items
  | _ => none

/-- Why a value cannot stand in the place of an error; there is none if it counts as no error.  An
error has three parts, and the second one says whether there is one.  JSON lines ask for the name of
the first part before they ask for the third one. -/
def Format.errorFault? (f : Format) (v : Json) : Option LineFault :=
  if !v.isTrue then none
  else match v, partsOf? v with
    | .obj _, _ => some .mappedError
    | _, none => some .unsuited
    | _, some (first :: second :: rest) =>
      if !second.isTrue then none
      else if f = .json ∧ first.isTrue then some .noError
      else if rest.isEmpty then some .shortError
      else some .noError
    | _, some _ => some .shortError

/-- Why the error of a record is not written.  Only an attribute in its place can be the reason. -/
def Record.errorFault? (f : Format) (r : Record) : Option LineFault :=
  (Json.find? "exc_info" r.attributes).bind f.errorFault?

/-- The error of a record, unless an attribute takes it away. -/
def Record.error? (r : Record) : Option Raised :=
  match Json.find? "exc_info" r.attributes with
  | some _ => none
  | none => r.raised

/-! ## JSON -/

/-- The attributes that are written if a record has them, in order. -/
def measures : List String :=
  ["duration_ms", "verdicts", "block_number", "fork_url", "returncode"]

/-- The base name of a path without its last extension.  Leading points start no extension. -/
def moduleName (path : String) : String :=
  let base := afterLast '/' path.toList
  match cutLast? '.' base with
  | some (before, _) =>
    if before.all (· == '.') then String.ofList base else String.ofList before
  | none => String.ofList base

/-- The name of the level of a record. -/
def Record.levelName (r : Record) : Json :=
  r.part "levelname" (.str (Log.levelName r.level))

/-- An attribute of a record if it is there and says something. -/
def Record.spoken? (r : Record) (key : String) : Option Json :=
  (Json.find? key r.attributes).filter Json.isTrue

/-- A member with the value of an optional one. -/
def member? (key : String) (v : Option Json) : Json.Members :=
  (v.map fun v => (key, v)).toList

/-- The members of a record in the JSON format. -/
def Record.members (time : Timestamp) (r : Record) : Json.Members :=
  [("timestamp", .str time.text), ("level", r.levelName), ("logger", r.part "name" (.str r.logger)),
    ("message", .str r.message)] ++
  (if (r.part "pathname" (.str r.path)).isTrue then
    [("module", r.part "module" (.str (moduleName r.path))),
      ("function", r.part "funcName" ((r.function.map Json.str).getD .null)),
      ("line", r.part "lineno" (.int r.line))]
  else []) ++
  member? "contract_name" (r.spoken? "contract_name") ++
  member? "tx_hash" (r.spoken? "tx_hash") ++
  member? "exception" (r.error?.map fun e =>
    .obj [("type", .str e.type), ("message", .str e.message), ("traceback", .str e.text)]) ++
  measures.flatMap fun key => member? key (Json.find? key r.attributes)

/-- A record in the JSON format, where at most `room` lists and objects may be inside one another,
that of the whole record included. -/
def Record.jsonLine (room : Nat) (time : Timestamp) (r : Record) : Except LineFault String :=
  let entry := .obj (r.members time)
  match r.errorFault? .json with
  | some fault => .error fault
  | none =>
    match entry.writeFault? room with
    | none => .ok (Json.line entry)
    | some cause => .error (.ofWrite cause)

/-! ## Colours -/

/-- The sequence that ends a colour. -/
def resetColor : String := "\x1b[0m"

/-- The sequence that starts the colour of a level by its name. -/
def levelColor (name : String) : String :=
  (levelColors.lookup name).getD ""
where
  /-- The levels that have a colour. -/
  levelColors : List (String × String) :=
    [("DEBUG", "\x1b[36m"), ("INFO", "\x1b[32m"), ("WARNING", "\x1b[33m"), ("ERROR", "\x1b[31m"),
      ("CRITICAL", "\x1b[35m")]

/-- The name of the level of a record as a text. -/
def Record.levelText (r : Record) : Except LineFault String :=
  match r.levelName with
  | .str s => .ok s
  | .bool _ => .error (.numberedLevel "bool")
  | .int _ => .error (.numberedLevel "int")
  | .float _ => .error (.numberedLevel "float")
  | _ => .error .unsuited

/-- A part of a record as people read it. -/
def shownPart (room : Nat) (v : Json) : Except LineFault String :=
  match v.writeFault? room with
  | none => .ok v.plain
  | some cause => .error (.ofWrite cause)

/-- The part of a transaction's hash that is shown. -/
def shownHash : Nat := 10

/-- The start of a transaction's hash in front of a message. -/
def Record.transactionMark (room : Nat) (r : Record) : Except LineFault String :=
  match r.spoken? "tx_hash" with
  | none => .ok ""
  | some (.str s) => .ok ("[" ++ String.ofList (s.toList.take shownHash) ++ "] ")
  | some (.arr items) =>
    (shownPart room (.arr (items.take shownHash))).map fun start => "[" ++ start ++ "] "
  | some _ => .error .unsuited

/-- A record in the format for people. -/
def Record.coloredLine (room : Nat) (time : Timestamp) (r : Record) : Except LineFault String := do
  let level ← r.levelText
  let mark ← r.transactionMark room
  let name ← shownPart room (r.part "name" (.str r.logger))
  if let some fault := r.errorFault? .colored then throw fault
  .ok (levelColor level ++ time.timeOfDay ++ " [" ++ String.ofList (padLeft 8 ' ' level.toList) ++
    "]" ++ resetColor ++ " " ++ name ++ ": " ++ mark ++ r.message ++
    (match r.error? with
      | some e => "\n" ++ e.text
      | none => ""))

/-! ## Set-up -/

/-- A record in a format. -/
def Format.line (rooms : Rooms) (f : Format) (time : Timestamp) (r : Record) :
    Except LineFault String :=
  match f with
  | .json => r.jsonLine rooms.logged time
  | .colored => r.coloredLine rooms.shown time

/-- How records are written: the least level and the format. -/
structure Setup where
  level : Int := info
  format : Format := .colored
  deriving Repr, DecidableEq

/-- A character in upper case, as far as that is made of ASCII letters; all others stay as they
are. -/
def upperChar (c : Char) : List Char :=
  match c with
  | 'ı' => ['I']
  | 'ſ' => ['S']
  | 'ß' => ['S', 'S']
  | 'ﬀ' => ['F', 'F']
  | 'ﬁ' => ['F', 'I']
  | 'ﬂ' => ['F', 'L']
  | 'ﬃ' => ['F', 'F', 'I']
  | 'ﬄ' => ['F', 'F', 'L']
  | 'ﬅ' => ['S', 'T']
  | 'ﬆ' => ['S', 'T']
  | c => [c.toUpper]

/-- A name in upper case. -/
def upperName (name : String) : String :=
  String.ofList (name.toList.flatMap upperChar)

/-- The levels by the names that settings use. -/
def namedLevels : List (String × Int) :=
  [("CRITICAL", 50), ("FATAL", 50), ("ERROR", 40), ("WARNING", 30), ("WARN", 30), ("INFO", 20),
    ("DEBUG", 10), ("NOTSET", 0)]

/-- A name that the log keeps for something else cannot stand for a level. -/
inductive LevelFault where
  /-- The name stands for a pattern of lines. -/
  | pattern
  /-- The name stands for a table of styles. -/
  | table
  deriving Repr, DecidableEq

/-- The names that the log keeps for something else. -/
def keptNames : List (String × LevelFault) :=
  [("BASIC_FORMAT", .pattern), ("_STYLES", .table)]

/-- The wording of a fault. -/
def LevelFault.message : LevelFault → String
  | .pattern => "Unknown level: '%(levelname)s:%(name)s:%(message)s'"
  | .table => "the name of a level stands for a table of styles"

/-- The level of a name in any case; an unknown name stands for the usual level. -/
def levelOf (name : String) : Except LevelFault Int :=
  let name := upperName name
  match keptNames.lookup name with
  | some fault => .error fault
  | none => .ok ((namedLevels.lookup name).getD info)

/-- The format for an environment. -/
def Format.ofEnvironment (environment : String) : Format :=
  if environment = "staging" ∨ environment = "production" then .json else .colored

/-- The set-up for an environment and the name of a level. -/
def Setup.of (environment level : String) : Except LevelFault Setup :=
  (levelOf level).map fun level => { level, format := .ofEnvironment environment }

/-- The level from which on other libraries are heard. -/
def libraryLevel : Int := warning

/-- A record in a format with the end of its line; one that cannot be written has no line. -/
def Format.write (rooms : Rooms) (f : Format) (time : Timestamp) (r : Record) : String :=
  match f.line rooms time r with
  | .ok line => line ++ "\n"
  | .error _ => ""

/-- The lines of the records that are written. -/
def Setup.write (rooms : Rooms) (s : Setup) (time : Timestamp) (records : List Record) : String :=
  String.join ((records.filter (s.level ≤ ·.level)).map (s.format.write rooms time))

end HoneypotAudit.Log
