import HoneypotAudit.Proofs.Forge.Suites

/-!
# Reports in unknown shapes

A run either has a result for every requested scenario or is refused, as long as its report has the
shape that is provided for.  The shape is never checked as a whole, so this file says what it is.

A report is out of shape in two ways.  Its text may be beyond what the reader reads: an integer with
too many digits, or too many lists and objects within each other (`Overlong`).  Or a suite that is
come to may be misshapen (`Misshapen`): its tests have no members, the entry that counts has none,
the status of that entry is a list or an object, the reason is no text, or the name of the suite is
garbled.

The main statement is `completes_or_refuses_iff`: a run gives all results or is refused exactly when
nothing of this is met.  That a misshapen report breaks the run is no accident of a single report;
`misshapen_report_breaks` has the smallest case.
-/

namespace HoneypotAudit.Forge

open HoneypotAudit.Outcome HoneypotAudit.Text

variable {room : Nat}

/-! ## Texts that are not read -/

/-- A text is beyond what is read of JSON. -/
inductive Overlong (room : Nat) (text : List Char) : ShapeFault → Prop
  | oversized {digits : Nat} (h : readReport room text = .error (.oversized digits)) :
      Overlong room text (.oversized digits)
  | tooDeep (h : readReport room text = .error .tooDeep) : Overlong room text .tooDeep

/-- A line is passed in the search for the report: it does not start like an object, or is no
JSON. -/
def IsNoise (room : Nat) (line : List Char) : Prop :=
  line.head? = some '{' → readReport room line = .error .malformed

lemma reportOnLine_cons_of_noise {line : List Char} (h : IsNoise room line)
    (rest : List (List Char)) :
    reportOnLine room (line :: rest) = reportOnLine room rest := by
  by_cases hbrace : line.head? = some '{'
  · simp only [reportOnLine, if_pos hbrace, h hbrace]
  · simp only [reportOnLine, if_neg hbrace]

/-- A line that is not passed ends the search. -/
lemma reportOnLine_cons_eq_error_iff {line : List Char} (h : ¬IsNoise room line)
    {rest : List (List Char)} {cause : ShapeFault} :
    reportOnLine room (line :: rest) = .error cause ↔ Overlong room line cause := by
  obtain ⟨hbrace, hread⟩ := Classical.not_imp.mp h
  simp only [reportOnLine, if_pos hbrace]
  constructor
  · intro hcause
    split at hcause
    next => cases hcause
    next => cases hcause
    next hmalformed => exact absurd hmalformed hread
    next hdigits =>
      cases hcause
      exact .oversized hdigits
    next hdeep =>
      cases hcause
      exact .tooDeep hdeep
  · rintro (h | h) <;> simp only [h]

/-- What keeps the report in an output from being read: the output as a whole is beyond what is
read, or else the last line that is not passed is. -/
inductive Unreadable (room : Nat) (stdout : List Char) (cause : ShapeFault) : Prop
  | whole (h : Overlong room stdout cause)
  | line {before after : List (List Char)} {line : List Char}
      (hwhole : readReport room stdout = .error .malformed)
      (hlines : lines stdout = before ++ line :: after)
      (hafter : ∀ l ∈ after, IsNoise room l) (hline : ¬IsNoise room line)
      (h : Overlong room line cause)

/-- The search of the lines fails at the first line that is not passed. -/
lemma reportOnLine_eq_error_iff {ls : List (List Char)} {cause : ShapeFault} :
    reportOnLine room ls = .error cause ↔
      ∃ before line after, ls = before ++ line :: after ∧ (∀ l ∈ before, IsNoise room l) ∧
        ¬IsNoise room line ∧ Overlong room line cause := by
  induction ls with
  | nil => simp [reportOnLine]
  | cons l ls ih =>
    by_cases hl : IsNoise room l
    · rw [reportOnLine_cons_of_noise hl, ih]
      constructor
      · rintro ⟨before, line, after, rfl, hbefore, h⟩
        exact ⟨l :: before, line, after, rfl, by simpa using ⟨hl, hbefore⟩, h⟩
      · rintro ⟨before, line, after, hsplit, hbefore, h⟩
        cases before with
        | nil =>
          obtain ⟨rfl, -⟩ := List.cons.inj hsplit
          exact absurd hl h.1
        | cons b before =>
          obtain ⟨rfl, hrest⟩ := List.cons.inj hsplit
          exact ⟨before, line, after, hrest, fun x hx => hbefore x (by simp [hx]), h⟩
    · rw [reportOnLine_cons_eq_error_iff hl]
      constructor
      · intro h
        exact ⟨[], l, ls, rfl, by simp, hl, h⟩
      · rintro ⟨before, line, after, hsplit, hbefore, h⟩
        cases before with
        | nil =>
          obtain ⟨rfl, -⟩ := List.cons.inj hsplit
          exact h.2
        | cons b before =>
          obtain ⟨rfl, -⟩ := List.cons.inj hsplit
          exact absurd (hbefore _ List.mem_cons_self) hl

/-- No report can be told from an output exactly when the output is not readable. -/
theorem findReport_eq_error_iff {stdout : List Char} {cause : ShapeFault} :
    findReport room stdout = .error cause ↔ Unreadable room stdout cause := by
  constructor
  · intro hcause
    unfold findReport at hcause
    split at hcause
    next => cases hcause
    next => cases hcause
    next hwhole =>
      obtain ⟨after, line, before, hlines, hafter, hline, h⟩ :=
        reportOnLine_eq_error_iff.mp hcause
      have hsplit : lines stdout = before.reverse ++ line :: after.reverse := by
        rw [← List.reverse_reverse (lines stdout), hlines]
        simp
      exact .line hwhole hsplit (by simpa using hafter) hline h
    next hdigits =>
      cases hcause
      exact .whole (.oversized hdigits)
    next hdeep =>
      cases hcause
      exact .whole (.tooDeep hdeep)
  · rintro (h | ⟨hwhole, hlines, hafter, hline, h⟩)
    · rcases h with h | h <;> simp only [findReport, h]
    · simp only [findReport, hwhole, hlines]
      rw [reportOnLine_eq_error_iff, List.reverse_append, List.reverse_cons, List.append_assoc]
      exact ⟨_, _, _, rfl, by simpa using hafter, hline, h⟩

/-! ## Names of suites -/

/-- The name of a suite that was kept has halves of UTF-16 pairs in it. -/
def IsGarbledName (name : String) : Prop := Json.nameText? name.toList = none

lemma ofNat_ne_nameMark {n : Nat} (h : n ≠ 0xFFFD) : Char.ofNat n ≠ Json.nameMark := by
  intro hmark
  by_cases hvalid : n.isValidChar
  · rw [Char.ofNat, dif_pos hvalid] at hmark
    exact h (congrArg Char.toNat hmark)
  · rw [Char.ofNat, dif_neg hvalid] at hmark
    exact absurd hmark (by decide)

/-- Besides the mark, the characters of a kept name are read one by one. -/
lemma nameText?_cons {c : Char} (h : c ≠ Json.nameMark) (cs : List Char) :
    Json.nameText? (c :: cs) = (Json.nameText? cs).map (c :: ·) := by
  cases cs <;> simp [Json.nameText?, h]

/-- A kept name gives back its text, unless a code number is no character. -/
theorem nameText?_keptName (codes : List Nat) :
    Json.nameText? (Json.keptName codes).toList =
      if ∀ n ∈ codes, n.isValidChar then some (codes.map Char.ofNat) else none := by
  simp only [Json.keptName, String.toList_ofList]
  induction codes with
  | nil => rfl
  | cons n codes ih =>
    simp only [List.flatMap_cons, List.forall_mem_cons]
    by_cases hmark : n = Json.nameMark.toNat
    · have hvalid : n.isValidChar := hmark ▸ by decide
      have hchar : Char.ofNat n = Json.nameMark := hmark ▸ rfl
      simp only [if_pos hmark, List.cons_append, List.nil_append, Json.nameText?, if_true, ih,
        hvalid, true_and, List.map_cons, hchar]
      split <;> rfl
    · by_cases hvalid : n.isValidChar
      · rw [if_neg hmark, if_pos hvalid, List.singleton_append,
          nameText?_cons (ofNat_ne_nameMark hmark), ih]
        simp only [hvalid, true_and, List.map_cons]
        split <;> rfl
      · have hhalf : Char.ofNat (n - 0xD800 + 0xE000) ≠ Json.nameMark := by
          refine ofNat_ne_nameMark ?_
          simp only [Nat.isValidChar] at hvalid
          omega
        simp only [if_neg hmark, List.cons_append, List.nil_append, Json.nameText?,
          if_true, if_neg hhalf, false_and, if_false, hvalid]

/-! ## Misshapen suites -/

/-- A reason is in a shape that is not taken. -/
inductive MisshapenReason : Json → ShapeFault → Prop
  /-- It is no text, nor false, null or empty. -/
  | kind {v : Json} (htrue : v.isTrue = true) (htext : ∀ s, v ≠ .str s)
      (hgarbled : ∀ codes, v ≠ .garbled codes) : MisshapenReason v .reasonKind
  /-- It has halves of UTF-16 pairs in it. -/
  | garbled {codes : List Nat} : MisshapenReason (.garbled codes) .reasonGarbled

/-- An entry of a suite is in a shape that no result is read from. -/
inductive MisshapenEntry (suite : String) : Json → ShapeFault → Prop
  /-- It is no object. -/
  | noMembers {v : Json} (h : ∀ members, v ≠ .obj members) : MisshapenEntry suite v .noMembers
  /-- Its status is a list. -/
  | statusList {members : Json.Members} {items : List Json}
      (h : Json.find? "status" members = some (.arr items)) :
      MisshapenEntry suite (.obj members) .statusKind
  /-- Its status is an object. -/
  | statusObject {members parts : Json.Members}
      (h : Json.find? "status" members = some (.obj parts)) :
      MisshapenEntry suite (.obj members) .statusKind
  /-- Beside a known status, the name of the suite is garbled. -/
  | name {members : Json.Members} {status : Json} {verdict : Verdict}
      (hstatus : Json.find? "status" members = some status)
      (hverdict : verdictOf? status = some verdict) (hname : IsGarbledName suite) :
      MisshapenEntry suite (.obj members) .reasonGarbled
  /-- Beside a known status and under a name that is not garbled, its reason is misshapen. -/
  | reason {members : Json.Members} {status v : Json} {verdict : Verdict} {cause : ShapeFault}
      (hstatus : Json.find? "status" members = some status)
      (hverdict : verdictOf? status = some verdict) (hname : ¬IsGarbledName suite)
      (hv : Json.find? "reason" members = some v) (h : MisshapenReason v cause) :
      MisshapenEntry suite (.obj members) cause

/-- A suite is in a shape that no result is read from. -/
inductive Misshapen (x : SuiteEntry) : ShapeFault → Prop
  /-- The tests have no members, and are not false, null or empty. -/
  | tests {v : Json} (h : Json.find? "test_results" x.members = some v) (htrue : v.isTrue = true)
      (hv : ∀ members, v ≠ .obj members) : Misshapen x .noMembers
  /-- The entry that counts is misshapen. -/
  | entry {v : Json} {cause : ShapeFault} (hv : x.counting? = some v)
      (h : MisshapenEntry x.name v cause) : Misshapen x cause

lemma suiteOf_eq_error_iff {name : String} {cause : ShapeFault} :
    suiteOf name = .error cause ↔ cause = .reasonGarbled ∧ IsGarbledName name := by
  unfold suiteOf IsGarbledName
  cases Json.nameText? name.toList <;> simp [eq_comm]

lemma reasonOf_eq_error_iff {members : Json.Members} {cause : ShapeFault} :
    reasonOf members = .error cause ↔
      ∃ v, Json.find? "reason" members = some v ∧ MisshapenReason v cause := by
  constructor
  · intro h
    cases hv : Json.find? "reason" members with
    | none => simp [reasonOf, hv, Json.isTrue] at h
    | some v =>
      refine ⟨v, rfl, ?_⟩
      simp only [reasonOf, hv, Option.getD_some] at h
      split at h
      next => cases h
      next =>
        cases h
        exact .garbled
      next htext hgarbled =>
        split at h <;> cases h
        exact .kind ‹_› htext hgarbled
  · rintro ⟨v, hv, ⟨htrue, htext, hgarbled⟩ | _⟩
    · cases v with
      | str s => exact absurd rfl (htext s)
      | garbled codes => exact absurd rfl (hgarbled codes)
      | _ => simp only [reasonOf, hv, Option.getD_some, if_pos htrue]
    · simp only [reasonOf, hv, Option.getD_some]

/-- Judging an entry breaks off exactly when the entry is misshapen. -/
lemma judgeEntry_eq_broken_iff {s : Scenario} {suite : String} {v : Json} {cause : ShapeFault} :
    judgeEntry s suite v = .error (.broken cause) ↔ MisshapenEntry suite v cause := by
  constructor
  · intro hbroken
    cases v with
    | obj members =>
      simp only [judgeEntry] at hbroken
      split at hbroken
      next verdict hverdict =>
        obtain ⟨status, hstatus, hverdict⟩ := exists_status hverdict
        split at hbroken <;> cases hbroken
        next hsuite =>
          obtain ⟨rfl, hname⟩ := suiteOf_eq_error_iff.mp hsuite
          exact .name hstatus hverdict hname
        next hsuite hreason =>
          obtain ⟨r, hr, h⟩ := reasonOf_eq_error_iff.mp hreason
          have hname : ¬IsGarbledName suite := fun hname => by
            cases hsuite.symm.trans (suiteOf_eq_error_iff.mpr ⟨rfl, hname⟩)
          exact .reason hstatus hverdict hname hr h
      next =>
        cases hstatus : Json.find? "status" members with
        | none => simp [hstatus] at hbroken
        | some status =>
          rw [hstatus, Option.getD_some] at hbroken
          split at hbroken <;> cases hbroken
          · exact .statusList hstatus
          · exact .statusObject hstatus
    | _ =>
      simp only [judgeEntry, Except.error.injEq, RunFault.broken.injEq] at hbroken
      subst hbroken
      exact .noMembers (by simp)
  · rintro (h | h | h | ⟨hstatus, hverdict, hname⟩ | ⟨hstatus, hverdict, hname, hv, h⟩)
    · cases v <;> simp [judgeEntry] at h ⊢
    · simp [judgeEntry, h, verdictOf?]
    · simp [judgeEntry, h, verdictOf?]
    · simp [judgeEntry, hstatus, hverdict, suiteOf_eq_error_iff.mpr ⟨rfl, hname⟩]
    · cases hsuite : suiteOf suite with
      | error cause => exact absurd (suiteOf_eq_error_iff.mp hsuite).2 hname
      | ok name =>
        simp [judgeEntry, hstatus, hverdict, hsuite, reasonOf_eq_error_iff.mpr ⟨_, hv, h⟩]

lemma membersOf_eq_error_iff {v : Json} {cause : ShapeFault} :
    membersOf v = .error cause ↔
      cause = .noMembers ∧ v.isTrue = true ∧ ∀ members, v ≠ .obj members := by
  cases v with
  | obj members => simp [membersOf]
  | _ =>
    constructor
    · intro h
      simp only [membersOf] at h
      split at h <;> cases h
      exact ⟨rfl, ‹_›, by simp⟩
    · rintro ⟨rfl, htrue, -⟩
      simp only [membersOf, if_pos htrue]

/-- Where an entry counts, it gives the result of the suite. -/
lemma SuiteEntry.judge_of_counting? {x : SuiteEntry} {v : Json} (h : x.counting? = some v) :
    x.judge = judgeEntry x.scenario x.name v := by
  have htests : membersOf ((Json.find? "test_results" x.members).getD .null) = .ok x.tests := by
    unfold counting? tests at h
    cases hv : (Json.find? "test_results" x.members).getD .null <;>
      simp [hv, tests, Json.members, membersOf, entryOf?] at h ⊢
  unfold counting? at h
  simp only [judge, judgeSuite, htests, h]

/-- Judging a suite breaks off exactly when the suite is misshapen. -/
theorem SuiteEntry.judge_eq_broken_iff {x : SuiteEntry} {cause : ShapeFault} :
    x.judge = .error (.broken cause) ↔ Misshapen x cause := by
  constructor
  · intro hbroken
    cases hcounting : x.counting? with
    | some v =>
      rw [judge_of_counting? hcounting, judgeEntry_eq_broken_iff] at hbroken
      exact .entry hcounting hbroken
    | none =>
      simp only [judge, judgeSuite] at hbroken
      split at hbroken
      next c htests =>
        simp only [Except.error.injEq, RunFault.broken.injEq] at hbroken
        subst hbroken
        cases hv : Json.find? "test_results" x.members with
        | none => simp [hv, membersOf, Json.isTrue] at htests
        | some v =>
          obtain ⟨rfl, htrue, hobj⟩ := membersOf_eq_error_iff.mp (by simpa [hv] using htests)
          exact .tests hv htrue hobj
      next tests htests =>
        have hx : x.tests = tests := (membersOf_eq_ok htests).symm
        rw [counting?, hx] at hcounting
        simp [hcounting] at hbroken
  · rintro (⟨h, htrue, hv⟩ | ⟨hv, h⟩)
    · simp only [judge, judgeSuite, h, Option.getD_some,
        membersOf_eq_error_iff.mpr ⟨rfl, htrue, hv⟩]
    · rw [judge_of_counting? hv, judgeEntry_eq_broken_iff.mpr h]

/-! ## Runs out of shape -/

/-- The report in an output has a shape that no run is read from.  Of its suites only the first one
without a result matters. -/
inductive OutOfShape (room : Nat) (output : Output) (cause : ShapeFault) : Prop
  /-- The report is not read from the output. -/
  | text (h : Unreadable room output.stdout.toList cause)
  /-- A suite is misshapen, and those in front of it have results. -/
  | suite {report : Json.Members} {before after : List SuiteEntry} {x : SuiteEntry}
      (hreport : findReport room output.stdout.toList = .ok (some report))
      (hsuites : suites report = before ++ x :: after)
      (hbefore : ∀ y ∈ before, ∃ r, y.judge = .ok r) (h : Misshapen x cause)

/-- A run breaks off exactly when it went through its tests and its report is out of shape. -/
theorem ofOutput_eq_broken_iff {output : Output} {requested : List Scenario}
    {cause : ShapeFault} :
    SuiteRun.ofOutput room output requested = .error (.broken cause) ↔
      output.status ∈ completedStatuses ∧ OutOfShape room output cause := by
  simp only [SuiteRun.ofOutput]
  split
  next hstatus => simp [hstatus]
  next hstatus =>
    simp only [not_not] at hstatus
    simp only [hstatus, true_and]
    constructor
    · intro hbroken
      split at hbroken
      next hfind =>
        cases hbroken
        exact .text (findReport_eq_error_iff.mp hfind)
      next => cases hbroken
      next report hfind =>
        rcases bind_eq_error_iff.mp hbroken with hjudge | ⟨results, -, hcollect⟩
        · obtain ⟨before, x, after, hsuites, hbefore, hx⟩ := judge_eq_error_iff.mp hjudge
          exact .suite hfind hsuites hbefore (SuiteEntry.judge_eq_broken_iff.mp hx)
        · split at hcollect <;> cases hcollect
    · rintro (h | ⟨hfind, hsuites, hbefore, h⟩)
      · rw [findReport_eq_error_iff.mpr h]
      · have hjudge := judge_eq_error_iff.mpr
          ⟨_, _, _, hsuites, hbefore, SuiteEntry.judge_eq_broken_iff.mpr h⟩
        simp only [hfind, hjudge, error_bind]

/-- **All or nothing.**  A run has results for exactly the requested scenarios in their order, or is
refused, unless it went through its tests and left a report that is out of shape. -/
theorem completes_or_refuses_iff (room : Nat) (output : Output) (requested : List Scenario) :
    ((∃ run, SuiteRun.ofOutput room output requested = .ok run ∧
          run.results.map (·.scenario) = requested.eraseDups) ∨
        ∃ cause, SuiteRun.ofOutput room output requested = .error (.refused cause)) ↔
      ¬(output.status ∈ completedStatuses ∧ ∃ cause, OutOfShape room output cause) := by
  constructor
  · rintro h ⟨hstatus, cause, hshape⟩
    have hbroken : SuiteRun.ofOutput room output requested = .error (.broken cause) :=
      ofOutput_eq_broken_iff.mpr ⟨hstatus, hshape⟩
    rcases h with ⟨run, hrun, -⟩ | ⟨refusal, hrefused⟩
    · cases hbroken.symm.trans hrun
    · cases hbroken.symm.trans hrefused
  · intro hshape
    cases hrun : SuiteRun.ofOutput room output requested with
    | ok run => exact .inl ⟨run, rfl, scenarios_of_ofOutput hrun⟩
    | error fault =>
      cases fault with
      | refused cause => exact .inr ⟨cause, rfl⟩
      | broken cause =>
        obtain ⟨hstatus, h⟩ := ofOutput_eq_broken_iff.mp hrun
        exact absurd ⟨hstatus, cause, h⟩ hshape

/-- A report whose only suite has a list of tests in place of an object. -/
def listedTests : Output :=
  { stdout := "\x7b\"DynamicHoneypotTest\": \x7b\"test_results\": [1]\x7d\x7d" }

/-- A run on a misshapen report neither has results nor is refused. -/
theorem misshapen_report_breaks :
    ¬((∃ run, SuiteRun.ofOutput 8 listedTests [.honeypot] = .ok run ∧
          run.results.map (·.scenario) = [.honeypot]) ∨
        ∃ cause, SuiteRun.ofOutput 8 listedTests [.honeypot] = .error (.refused cause)) := by
  have h : SuiteRun.ofOutput 8 listedTests [.honeypot] = .error (.broken .noMembers) := by
    decide +kernel
  simp [h]

end HoneypotAudit.Forge
