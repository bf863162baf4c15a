import HoneypotAudit.Log.Line
import HoneypotAudit.Proofs.Json.LineReading
import HoneypotAudit.Proofs.Json.PrintedLines
import HoneypotAudit.Proofs.Text.Lines

/-!
# Log entries

A record that carries values of JSON is written unless an integer of its entry is too long or the
entry is nested deeper than there is room for; what is written is one line of printable ASCII, from
which an object is read that tells what the record says (`one_line_tells`).  A whole log is read
line by line (`read_lines_write`).

The keys of an entry are all different (`nodup_keys_members`), so no attribute of a record stands in
the way of another one or of what the record says itself.  In particular the contract and the
transaction that a record is said to be about are read back (`read_context_about`).
-/

namespace HoneypotAudit.Log

open HoneypotAudit.Json HoneypotAudit.Number HoneypotAudit.Text

/-! ## Members -/

section Members

variable {key k : String} {v : Json}

lemma mem_member? {value : Option Json} :
    (key, v) ∈ member? k value ↔ key = k ∧ value = some v := by
  cases value with
  | none => simp [member?]
  | some w => simp [member?, eq_comm]

lemma keys_member?_sublist (k : String) (value : Option Json) :
    ((member? k value).map (·.1)).Sublist [k] := by
  cases value with
  | none => exact List.nil_sublist _
  | some v => exact List.Sublist.refl _

variable {value : String → Option Json} {keys : List String}

lemma mem_flatMap_member? :
    (key, v) ∈ keys.flatMap (fun k => member? k (value k)) ↔ key ∈ keys ∧ value key = some v := by
  simp only [List.mem_flatMap, mem_member?]
  constructor
  · rintro ⟨k, hk, rfl, hv⟩
    exact ⟨hk, hv⟩
  · rintro ⟨hkey, hv⟩
    exact ⟨key, hkey, rfl, hv⟩

lemma keys_flatMap_member?_sublist (value : String → Option Json) (keys : List String) :
    ((keys.flatMap fun k => member? k (value k)).map (·.1)).Sublist keys := by
  induction keys with
  | nil => exact List.Sublist.refl _
  | cons k keys ih =>
    rw [List.flatMap_cons, List.map_append]
    exact (keys_member?_sublist k (value k)).append ih

end Members

/-! ## Entries -/

/-- All keys of entries, in order. -/
def entryKeys : List String :=
  ["timestamp", "level", "logger", "message"] ++ ["module", "function", "line"] ++
    ["contract_name"] ++ ["tx_hash"] ++ ["exception"] ++ measures

/-- The error of a record as an entry shows it. -/
def shownError (e : Raised) : Json :=
  .obj [("type", .str e.type), ("message", .str e.message), ("traceback", .str e.text)]

section Entry

variable {time : Timestamp} {r : Record}

lemma keys_members_sublist (time : Timestamp) (r : Record) :
    ((r.members time).map (·.1)).Sublist entryKeys := by
  unfold Record.members entryKeys
  simp only [List.map_append]
  -- each part of the entry has its own part of the keys, or none of them
  refine .append (.append (.append (.append (.append (.refl _) ?_) ?_) ?_) ?_) ?_
  · split
    · exact .refl _
    · exact List.nil_sublist _
  · exact keys_member?_sublist _ _
  · exact keys_member?_sublist _ _
  · exact keys_member?_sublist _ _
  · exact keys_flatMap_member?_sublist _ _

lemma nodup_keys_members (time : Timestamp) (r : Record) :
    ((r.members time).map (·.1)).Nodup := by
  have hall : entryKeys.Nodup := by decide
  exact hall.sublist (keys_members_sublist time r)

lemma mem_members_iff {key : String} {v : Json} : (key, v) ∈ r.members time ↔
    (key, v) ∈ [("timestamp", .str time.text), ("level", r.levelName),
      ("logger", r.part "name" (.str r.logger)), ("message", .str r.message)] ∨
    ((r.part "pathname" (.str r.path)).isTrue = true ∧
      (key, v) ∈ [("module", r.part "module" (.str (moduleName r.path))),
        ("function", r.part "funcName" ((r.function.map Json.str).getD .null)),
        ("line", r.part "lineno" (.int r.line))]) ∨
    (key = "contract_name" ∧ r.spoken? "contract_name" = some v) ∨
    (key = "tx_hash" ∧ r.spoken? "tx_hash" = some v) ∨
    (key = "exception" ∧ r.error?.map shownError = some v) ∨
    (key ∈ measures ∧ find? key r.attributes = some v) := by
  have hlocation : ∀ located : Members,
      (key, v) ∈ (if (r.part "pathname" (.str r.path)).isTrue then located else []) ↔
        (r.part "pathname" (.str r.path)).isTrue = true ∧ (key, v) ∈ located := by
    intro located
    split <;> simp [*]
  simp only [Record.members, List.mem_append, hlocation, mem_member?, mem_flatMap_member?,
    or_assoc]
  rfl

end Entry

/-! ## What an entry tells -/

/-- An entry tells what a record says: its message, its level and its logger, the contract and the
transaction if they are not empty, the error if there is one, and the measures that it has.  It has
no attributes beyond these. -/
structure Tells (entry : Members) (r : Record) : Prop where
  message : find? "message" entry = some (.str r.message)
  level : find? "level" entry = some r.levelName
  logger : find? "logger" entry = some (r.part "name" (.str r.logger))
  context : ∀ key ∈ ["contract_name", "tx_hash"], ∀ v,
    find? key entry = some v ↔ find? key r.attributes = some v ∧ v.isTrue = true
  error : find? "exception" entry = r.error?.map shownError
  measures : ∀ key ∈ measures, find? key entry = find? key r.attributes
  keys : ∀ m ∈ entry, m.1 ∈ entryKeys

lemma spoken?_eq_some_iff {r : Record} {key : String} {v : Json} :
    r.spoken? key = some v ↔ find? key r.attributes = some v ∧ v.isTrue = true :=
  Option.filter_eq_some_iff

lemma tells_members (time : Timestamp) (r : Record) : Tells (r.members time) r := by
  -- no key occurs twice, so every member that is there is the one that is found
  have hfind : ∀ {key : String} {v : Json},
      find? key (r.members time) = some v ↔ (key, v) ∈ r.members time :=
    find?_eq_some_iff_mem (nodup_keys_members time r)
  constructor
  case message => simp [hfind, mem_members_iff]
  case level => simp [hfind, mem_members_iff]
  case logger => simp [hfind, mem_members_iff]
  case context =>
    intro key hkey v
    rw [hfind, mem_members_iff, ← spoken?_eq_some_iff]
    simp only [List.mem_cons, List.not_mem_nil, or_false] at hkey
    rcases hkey with rfl | rfl <;> simp [measures]
  case error =>
    ext v
    simp [hfind, mem_members_iff, measures]
  case measures =>
    intro key hkey
    ext v
    rw [hfind, mem_members_iff]
    simp only [measures, List.mem_cons, List.not_mem_nil, or_false] at hkey
    rcases hkey with rfl | rfl | rfl | rfl | rfl <;> simp [measures]
  case keys => exact fun m hm => (keys_members_sublist time r).subset (List.mem_map_of_mem hm)

/-! ## Records that carry values of JSON -/

/-- The attributes that entries show. -/
def shownAttributes : List String :=
  ["levelname", "name", "module", "funcName", "lineno", "contract_name", "tx_hash"] ++ measures

/-- The attributes that an entry shows of a record are values of JSON.  Where an attribute stands in
the place of the error, it counts as none. -/
structure Record.CarriesJson (r : Record) : Prop where
  attributes : ∀ key ∈ shownAttributes, ∀ v, find? key r.attributes = some v → Proper v
  error : ∀ v, find? "exc_info" r.attributes = some v → v.isTrue = false

section Carried

variable {room : Nat} {time : Timestamp} {r : Record}

lemma Record.CarriesJson.part (h : r.CarriesJson) {name : String} (hname : name ∈ shownAttributes)
    {own : Json} (hown : Proper own) : Proper (r.part name own) := by
  unfold Record.part
  cases hfound : find? name r.attributes with
  | none => exact hown
  | some v => exact h.attributes name hname v hfound

lemma proper_shownError (e : Raised) : Proper (shownError e) := by
  refine .obj (by simp) ?_
  simp only [List.forall_mem_cons]
  exact ⟨.str _, .str _, .str _, List.forall_mem_nil _⟩

/-- Each member of an entry is a value of JSON. -/
lemma Record.CarriesJson.proper_of_mem (h : r.CarriesJson) {key : String} {v : Json}
    (hmem : (key, v) ∈ r.members time) : Proper v := by
  have hspoken : ∀ {key : String}, key ∈ shownAttributes → r.spoken? key = some v → Proper v :=
    fun hkey hv => h.attributes _ hkey v (spoken?_eq_some_iff.mp hv).1
  have hfunction : Proper ((r.function.map Json.str).getD .null) := by
    cases r.function with
    | none => exact .null
    | some name => exact .str name
  have hlevel : Proper r.levelName := h.part (by decide) (.str _)
  have hlogger : Proper (r.part "name" (.str r.logger)) := h.part (by decide) (.str _)
  rcases mem_members_iff.mp hmem with
    hown | ⟨-, hlocated⟩ | ⟨-, hv⟩ | ⟨-, hv⟩ | ⟨-, hv⟩ | ⟨hkey, hv⟩
  · simp only [List.mem_cons, Prod.mk.injEq, List.not_mem_nil, or_false] at hown
    rcases hown with ⟨-, rfl⟩ | ⟨-, rfl⟩ | ⟨-, rfl⟩ | ⟨-, rfl⟩
    · exact .str _
    · exact hlevel
    · exact hlogger
    · exact .str _
  · simp only [List.mem_cons, Prod.mk.injEq, List.not_mem_nil, or_false] at hlocated
    rcases hlocated with ⟨-, rfl⟩ | ⟨-, rfl⟩ | ⟨-, rfl⟩
    · exact h.part (by decide) (.str _)
    · exact h.part (by decide) hfunction
    · exact h.part (by decide) (.int _)
  · exact hspoken (by decide) hv
  · exact hspoken (by decide) hv
  · obtain ⟨e, -, rfl⟩ := Option.map_eq_some_iff.mp hv
    exact proper_shownError e
  · exact h.attributes key (List.mem_append_right _ hkey) v hv

/-- What an entry that fits is made of is held by texts. -/
lemma Record.CarriesJson.held_entry (h : r.CarriesJson)
    (hfits : (Json.obj (r.members time)).Fits room) : Held (.obj (r.members time)) where
  proper := .obj (nodup_keys_members time r) fun _ hm => h.proper_of_mem hm
  short := hfits.short

/-- A record is written just if its entry fits. -/
lemma Record.CarriesJson.jsonLine_eq_ok_iff (h : r.CarriesJson) {line : String} :
    r.jsonLine room time = .ok line ↔
      (Json.obj (r.members time)).Fits room ∧ line = Json.line (.obj (r.members time)) := by
  have hfault : r.errorFault? .json = none := by
    refine Option.bind_eq_none_iff.mpr fun v hv => ?_
    simp [Format.errorFault?, h.error v hv]
  unfold Record.jsonLine
  rw [hfault, ← writeFault?_eq_none_iff]
  cases hwrite : (Json.obj (r.members time)).writeFault? room <;> simp [hwrite, eq_comm]

end Carried

/-! ## Lines -/

lemma not_isLineBreak {c : Char} (h : IsPrintableAscii c) : isLineBreak c = false := by
  by_contra hbreak
  rcases isLineBreak_cases (Bool.not_eq_false _ ▸ hbreak) with hlow | hseparator
  · have := h.1
    omega
  · simp only [separators, List.mem_cons, List.not_mem_nil, or_false] at hseparator
    rcases hseparator with rfl | rfl | rfl <;> exact absurd h (by decide)

lemma unbroken_line (v : Json) : ∀ c ∈ (Json.line v).toList, isLineBreak c = false :=
  fun c hc => not_isLineBreak (printed_line v c hc)

lemma lines_line_obj (members : Members) :
    Text.lines (Json.line (.obj members)).toList = [(Json.line (.obj members)).toList] := by
  have hne : (Json.line (.obj members)).toList ≠ [] := by simp [Json.line, lineOf]
  have hlines := lines_of_unbroken hne (unbroken_line _) (.inl rfl)
  rwa [List.append_nil] at hlines

/-- **A record is written just if no integer of its entry is too long and the entry is not nested
deeper than there is room for.  What is written is one line of printable ASCII, from which an object
is read that tells what the record says.** -/
theorem one_line_tells (room : Nat) (time : Timestamp) {r : Record} (h : r.CarriesJson) :
    ((∃ line, r.jsonLine room time = .ok line) ↔ (Json.obj (r.members time)).Fits room) ∧
      ∀ line, r.jsonLine room time = .ok line →
        Printed line.toList ∧ Text.lines line.toList = [line.toList] ∧
          Json.read line.toList = .ok (.obj (r.members time)) ∧ Tells (r.members time) r := by
  constructor
  · exact ⟨fun ⟨_, hline⟩ => (h.jsonLine_eq_ok_iff.mp hline).1,
      fun hfits => ⟨_, h.jsonLine_eq_ok_iff.mpr ⟨hfits, rfl⟩⟩⟩
  · intro line hline
    obtain ⟨hfits, rfl⟩ := h.jsonLine_eq_ok_iff.mp hline
    exact ⟨printed_line _, lines_line_obj _, read_line (h.held_entry hfits),
      tells_members time r⟩

/-- A record with all that lines have to escape, in its message and in its attributes. -/
def awkwardRecord : Record where
  logger := "honeyprobe.\"cli\""
  level := warning
  message := "no 𝔘nit in \"C:\\Vault\":\n\tunexpected \x00 or \u2028"
  path := "/opt/honeyprobe/cli.v2.py"
  function := some "main"
  line := 42
  raised := some (.ofType "KeyError" "line\nbreak")
  attributes := [("contract_name", .str "Vault\r\n"), ("tx_hash", .str ""),
    ("duration_ms", .float (.ofDecimal false 125 (-1))), ("block_number", .null),
    ("verdicts", .obj [("message", .arr [.str "FAIL", .garbled [0xD83D, 0x41]]),
      ("level", .int (-1))])]

lemma carriesJson_awkwardRecord : awkwardRecord.CarriesJson := by
  have hverdicts : Proper (.obj [("message", .arr [.str "FAIL", .garbled [0xD83D, 0x41]]),
      ("level", .int (-1))]) := by
    refine .obj (by simp) ?_
    simp only [List.forall_mem_cons]
    refine ⟨.arr ?_, .int _, List.forall_mem_nil _⟩
    simp only [List.forall_mem_cons]
    exact ⟨.str _, .garbled ⟨by decide, by decide⟩ ⟨0xD83D, by decide, by decide⟩,
      List.forall_mem_nil _⟩
  have hattributes : ∀ m ∈ awkwardRecord.attributes, Proper m.2 := by
    simp only [awkwardRecord, List.forall_mem_cons]
    exact ⟨.str _, .str _, .float (Binary64.isRounded_ofDecimal _ _ _), .null, hverdicts,
      List.forall_mem_nil _⟩
  exact {
    attributes := fun _ _ _ hv => hattributes _ (mem_of_find? hv)
    error := by simp [awkwardRecord, find?] }

/-- Three levels are room enough for the awkward record: the entry, the verdicts and the list in
them. -/
theorem one_line_tells_awkwardRecord : awkwardRecord.CarriesJson ∧
    (Json.obj (awkwardRecord.members {})).Fits 3 ∧
      ∃ line, awkwardRecord.jsonLine 3 {} = .ok line ∧ Printed line.toList ∧
        Text.lines line.toList = [line.toList] ∧
          Json.read line.toList = .ok (.obj (awkwardRecord.members {})) ∧
            Tells (awkwardRecord.members {}) awkwardRecord := by
  obtain ⟨hwritten, htold⟩ := one_line_tells 3 {} carriesJson_awkwardRecord
  have hfits : (Json.obj (awkwardRecord.members {})).Fits 3 :=
    (writeFault?_eq_none_iff 3 _).mp (by decide +kernel)
  obtain ⟨line, hline⟩ := hwritten.mpr hfits
  exact ⟨carriesJson_awkwardRecord, hfits, line, hline, htold line hline⟩

/-! ## Records that are not written, and attributes that are not told -/

/-- A record that carries one attribute. -/
def carrying (key : String) (v : Json) : Record where
  logger := "honeyprobe"
  message := "done"
  attributes := [(key, v)]

lemma carriesJson_carrying {key : String} {v : Json} (hkey : key ≠ "exc_info") (h : Proper v) :
    (carrying key v).CarriesJson where
  attributes k _ w hw := by
    have hmem : (k, w) ∈ [(key, v)] := mem_of_find? hw
    cases List.mem_singleton.mp hmem
    exact h
  error w hw := by
    have hmem : ("exc_info", w) ∈ [(key, v)] := mem_of_find? hw
    cases List.mem_singleton.mp hmem
    exact absurd rfl hkey

/-- What a record carries as a measure is a member of its entry. -/
lemma mem_members_carrying {key : String} {v : Json} (hkey : key ∈ measures) :
    (key, v) ∈ (carrying key v).members {} :=
  mem_members_iff.mpr (.inr (.inr (.inr (.inr (.inr ⟨hkey, by simp [carrying, find?]⟩)))))

lemma proper_nestedLists (n : Nat) : Proper (nestedLists n) := by
  induction n with
  | zero => exact .arr nofun
  | succ n ih => exact .arr (List.forall_mem_singleton.mpr ih)

/-- **Neither all integers nor all lists are written, and not all attributes are told**: the first
integer of more than 4300 digits never is, and whatever the room, lists that are nested deeper are
not; an attribute that is none of the measures is not in the entry. -/
theorem records_not_told :
    ((carrying "block_number" (.int (10 ^ Integer.maxDigits))).CarriesJson ∧
      ∀ room, ¬∃ line,
        (carrying "block_number" (.int (10 ^ Integer.maxDigits))).jsonLine room {} = .ok line) ∧
    (∀ room, (carrying "verdicts" (nestedLists room)).CarriesJson ∧
      ¬∃ line, (carrying "verdicts" (nestedLists room)).jsonLine room {} = .ok line) ∧
    (carrying "request_id" (.str "7")).CarriesJson ∧
      ∃ line entry, (carrying "request_id" (.str "7")).jsonLine 1 {} = .ok line ∧
        Json.read line.toList = .ok (.obj entry) ∧ find? "request_id" entry = none := by
  have hlong : (carrying "block_number" (.int (10 ^ Integer.maxDigits))).CarriesJson :=
    carriesJson_carrying (by decide) (.int _)
  have hdeep : ∀ room, (carrying "verdicts" (nestedLists room)).CarriesJson := fun room =>
    carriesJson_carrying (by decide) (proper_nestedLists room)
  have hasked : (carrying "request_id" (.str "7")).CarriesJson :=
    carriesJson_carrying (by decide) (.str "7")
  refine ⟨⟨hlong, ?_⟩, fun room => ⟨hdeep room, ?_⟩, hasked, ?_⟩
  · rintro room ⟨line, hline⟩
    have hshort := (hlong.jsonLine_eq_ok_iff.mp hline).1.short (10 ^ Integer.maxDigits)
      (mem_integers_obj.mpr ⟨_, mem_members_carrying (by decide), by simp [integers]⟩)
    rw [Integer.isWritable_pow_maxDigits] at hshort
    cases hshort
  · rintro ⟨line, hline⟩
    have hlevels := (hdeep room).jsonLine_eq_ok_iff.mp hline |>.1.shallow
    rw [levels, Nat.succ_le_iff] at hlevels
    have hmember : (nestedLists room).levels ≤ _ := levelsOfMembers_le_iff.mp le_rfl _
      (mem_members_carrying (by decide : "verdicts" ∈ measures))
    have hlists := lt_levels_nestedLists room
    omega
  · have hfits : (Json.obj ((carrying "request_id" (.str "7")).members {})).Fits 1 :=
      (writeFault?_eq_none_iff 1 _).mp (by decide +kernel)
    refine ⟨_, _, hasked.jsonLine_eq_ok_iff.mpr ⟨hfits, rfl⟩, read_line (hasked.held_entry hfits),
      ?_⟩
    decide +kernel

/-! ## Records about a contract -/

section About

variable {r : Record} {contract transaction : String}

lemma find?_contract_about :
    find? "contract_name" (r.about contract transaction).attributes = some (.str contract) := by
  simp [Record.about, find?_insert_of_ne]

lemma find?_transaction_about :
    find? "tx_hash" (r.about contract transaction).attributes = some (.str transaction) :=
  find?_insert_self _ _ _

lemma find?_about {key : String} (hcontract : key ≠ "contract_name")
    (htransaction : key ≠ "tx_hash") :
    find? key (r.about contract transaction).attributes = find? key r.attributes := by
  rw [Record.about, find?_insert_of_ne htransaction, find?_insert_of_ne hcontract]

/-- Saying what a record is about leaves all that it carries values of JSON. -/
lemma Record.CarriesJson.about (h : r.CarriesJson) (contract transaction : String) :
    (r.about contract transaction).CarriesJson where
  attributes key hkey v hv := by
    by_cases hcontract : key = "contract_name"
    · subst hcontract
      rw [find?_contract_about] at hv
      cases hv
      exact .str contract
    · by_cases htransaction : key = "tx_hash"
      · subst htransaction
        rw [find?_transaction_about] at hv
        cases hv
        exact .str transaction
      · rw [find?_about hcontract htransaction] at hv
        exact h.attributes key hkey v hv
  error v hv := by
    rw [find?_about (by decide) (by decide)] at hv
    exact h.error v hv

/-- A text of the context is told unless it is empty. -/
lemma Tells.find?_text {entry : Members} (h : Tells entry r) {key text : String}
    (hkey : key ∈ ["contract_name", "tx_hash"])
    (htext : find? key r.attributes = some (.str text)) :
    find? key entry = if text = "" then none else some (.str text) := by
  ext v
  rw [h.context key hkey, htext]
  split
  next hempty =>
    subst hempty
    simp only [Option.some.injEq, reduceCtorEq, iff_false, not_and]
    rintro rfl
    decide
  next hne =>
    refine ⟨And.left, fun hv => ⟨hv, ?_⟩⟩
    cases hv
    simpa [Json.isTrue] using hne

lemma Tells.context_about {entry : Members} (h : Tells entry (r.about contract transaction)) :
    find? "contract_name" entry = (if contract = "" then none else some (.str contract)) ∧
      find? "tx_hash" entry = if transaction = "" then none else some (.str transaction) :=
  ⟨h.find?_text (by decide) find?_contract_about,
    h.find?_text (by decide) find?_transaction_about⟩

/-- **The contract and the transaction that a record is about are read back from its line**, each
unless its name is empty. -/
theorem read_context_about {room : Nat} {time : Timestamp} {line : String} (h : r.CarriesJson)
    (hline : (r.about contract transaction).jsonLine room time = .ok line) :
    ∃ entry, Json.read line.toList = .ok (.obj entry) ∧
      find? "contract_name" entry = (if contract = "" then none else some (.str contract)) ∧
        find? "tx_hash" entry = if transaction = "" then none else some (.str transaction) := by
  have habout := h.about contract transaction
  obtain ⟨hfits, rfl⟩ := habout.jsonLine_eq_ok_iff.mp hline
  exact ⟨_, read_line (habout.held_entry hfits), (tells_members time _).context_about⟩

end About

/-! ## Logs -/

/-- **A log is read line by line**: each record of a level that is written has a line of its own, in
order, and an entry is read from it. -/
theorem read_lines_write {rooms : Rooms} {s : Setup} (hformat : s.format = .json)
    (time : Timestamp) {records : List Record} (h : ∀ r ∈ records, r.CarriesJson)
    (hfits : ∀ r ∈ records, (Json.obj (r.members time)).Fits rooms.logged) :
    (Text.lines (s.write rooms time records).toList).map Json.read =
      (records.filter (s.level ≤ ·.level)).map fun r => .ok (.obj (r.members time)) := by
  have hwritten : ∀ r ∈ records.filter (s.level ≤ ·.level),
      r.CarriesJson ∧ (Json.obj (r.members time)).Fits rooms.logged := fun r hr =>
    ⟨h r (List.mem_of_mem_filter hr), hfits r (List.mem_of_mem_filter hr)⟩
  rw [Setup.write, hformat, String.toList_join]
  generalize records.filter (s.level ≤ ·.level) = written at hwritten
  induction written with
  | nil => rfl
  | cons r written ih =>
    obtain ⟨⟨hr, hfits⟩, hwritten⟩ := List.forall_mem_cons.mp hwritten
    have hline : (Format.json.write rooms time r).toList =
        (Json.line (.obj (r.members time))).toList ++ ['\n'] := by
      simp [Format.write, Format.line, hr.jsonLine_eq_ok_iff.mpr ⟨hfits, rfl⟩]
    rw [List.map_cons, List.flatMap_cons, hline, List.append_assoc, List.singleton_append,
      lines_append_of_unbroken (unbroken_line _), List.map_cons, List.map_cons,
      read_line (hr.held_entry hfits), ih hwritten]

end HoneypotAudit.Log
