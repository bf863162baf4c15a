import HoneypotAudit.Forge.Report
import HoneypotAudit.Proofs.Outcome

/-!
# The suites of a report

`Forge.judge` walks over the members of a report and leaves out what is no suite of a scenario.
This file takes the two apart: `suites` are the members that are judged, each with its scenario,
and `SuiteEntry.judge` judges one of them.  A report is judged well exactly when each of its suites
is (`judge_eq_ok_iff`), and fails with the first suite that does not (`judge_eq_error_iff`).

Two statements tie this to whole runs: `ofOutput_eq_ok_iff` says what has to hold for a run to have
results, and `latest?_eq_some_iff` which suite the result of a scenario comes from, namely the last
one of that scenario.
-/

namespace HoneypotAudit.Forge

open HoneypotAudit.Outcome

/-! ## Suites of scenarios -/

/-- A suite of a report, with the scenario that its name maps to. -/
structure SuiteEntry where
  scenario : Scenario
  name : String
  members : Json.Members

namespace SuiteEntry

/-- A member of a report as a suite, if it is one. -/
def ofMember? : String × Json → Option SuiteEntry
  | (name, .obj members) => (Scenario.ofSuite? name).map fun s => ⟨s, name, members⟩
  | _ => none

/-- The result of a suite. -/
def judge (x : SuiteEntry) : Except RunFault ScenarioResult :=
  judgeSuite x.scenario x.name x.members

/-- The tests that a suite lists. -/
def tests (x : SuiteEntry) : Json.Members :=
  ((Json.find? "test_results" x.members).getD .null).members

/-- The entry of a suite that counts: that of the invariant, else that of the set-up. -/
def counting? (x : SuiteEntry) : Option Json :=
  entryOf? x.scenario.invariantName x.tests <|> entryOf? "setUp" x.tests

end SuiteEntry

/-- The suites of a report that map to a scenario, in their order. -/
def suites (report : Json.Members) : List SuiteEntry :=
  report.filterMap SuiteEntry.ofMember?

/-- A member that is a suite is judged before the members behind it. -/
lemma judge_cons_suite {member : String × Json} {x : SuiteEntry}
    (h : SuiteEntry.ofMember? member = some x) (rest : Json.Members) :
    judge (member :: rest) = x.judge >>= fun r => judge rest >>= fun rs => .ok (r :: rs) := by
  obtain ⟨name, value⟩ := member
  cases value with
  | obj members =>
    simp only [SuiteEntry.ofMember?, Option.map_eq_some_iff] at h
    obtain ⟨s, hs, rfl⟩ := h
    simp only [judge, hs, SuiteEntry.judge]
  | _ => simp [SuiteEntry.ofMember?] at h

/-- A member that is no suite does not matter. -/
lemma judge_cons_other {member : String × Json} (h : SuiteEntry.ofMember? member = none)
    (rest : Json.Members) : judge (member :: rest) = judge rest := by
  obtain ⟨name, value⟩ := member
  cases value with
  | obj members =>
    simp only [SuiteEntry.ofMember?, Option.map_eq_none_iff] at h
    simp only [judge, h]
  | _ => cases hs : Scenario.ofSuite? name <;> simp [judge, hs]

/-! ## Judging all suites -/

/-- A report is judged well exactly when each of its suites is. -/
theorem judge_eq_ok_iff {report : Json.Members} {results : List ScenarioResult} :
    judge report = .ok results ↔
      List.Forall₂ (fun x r => SuiteEntry.judge x = .ok r) (suites report) results := by
  induction report generalizing results with
  | nil => simp [judge, suites, eq_comm]
  | cons member rest ih =>
    cases hx : SuiteEntry.ofMember? member with
    | none =>
      rw [judge_cons_other hx, ih]
      simp [suites, hx]
    | some x =>
      have hsuites : suites (member :: rest) = x :: suites rest := by simp [suites, hx]
      rw [judge_cons_suite hx, hsuites, List.forall₂_cons_left_iff]
      simp only [bind_eq_ok_iff]
      constructor
      · rintro ⟨r, hr, rs, hrs, h⟩
        cases h
        exact ⟨r, rs, hr, ih.mp hrs, rfl⟩
      · rintro ⟨r, rs, hr, hrs, rfl⟩
        exact ⟨r, hr, rs, ih.mpr hrs, rfl⟩

/-- Judging a report fails with the first of its suites that fails. -/
theorem judge_eq_error_iff {report : Json.Members} {fault : RunFault} :
    judge report = .error fault ↔
      ∃ before x after, suites report = before ++ x :: after ∧
        (∀ y ∈ before, ∃ r, y.judge = .ok r) ∧ x.judge = .error fault := by
  induction report with
  | nil => simp [judge, suites]
  | cons member rest ih =>
    cases hx : SuiteEntry.ofMember? member with
    | none =>
      rw [judge_cons_other hx, ih]
      simp [suites, hx]
    | some x =>
      have hsuites : suites (member :: rest) = x :: suites rest := by simp [suites, hx]
      rw [judge_cons_suite hx, hsuites, bind_eq_error_iff]
      constructor
      · rintro (hr | ⟨r, hr, hrest⟩)
        · exact ⟨[], x, suites rest, rfl, by simp, hr⟩
        · obtain ⟨before, y, after, hsplit, hbefore, hy⟩ :=
            ih.mp (by simpa [bind_eq_error_iff] using hrest)
          refine ⟨x :: before, y, after, by simp [hsplit], ?_, hy⟩
          simpa using ⟨⟨r, hr⟩, hbefore⟩
      · rintro ⟨before, y, after, hsplit, hbefore, hy⟩
        cases before with
        | nil =>
          obtain ⟨rfl, -⟩ := List.cons.inj hsplit
          exact .inl hy
        | cons z before =>
          obtain ⟨rfl, hrest⟩ := List.cons.inj hsplit
          obtain ⟨r, hr⟩ := hbefore x (by simp)
          refine .inr ⟨r, hr, ?_⟩
          rw [bind_eq_error_iff]
          exact .inl (ih.mpr ⟨before, y, after, hrest, fun w hw => hbefore w (by simp [hw]), hy⟩)

/-! ## The result of one suite -/

/-- The members of a value that has them, or counts as empty. -/
lemma membersOf_eq_ok {v : Json} {members : Json.Members} (h : membersOf v = .ok members) :
    members = v.members := by
  cases v <;> simp [membersOf, Json.isTrue, Json.members] at h ⊢ <;> grind

/-- A known status is there. -/
lemma exists_status {members : Json.Members} {verdict : Verdict}
    (h : verdictOf? ((Json.find? "status" members).getD (.str "")) = some verdict) :
    ∃ status, Json.find? "status" members = some status ∧ verdictOf? status = some verdict := by
  cases hstatus : Json.find? "status" members with
  | none => simp [hstatus, verdictOf?] at h
  | some status => exact ⟨status, rfl, by simpa [hstatus] using h⟩

/-- What a result tells about the suite that it comes from: its scenario, its name, and the status
of the entry that counts. -/
theorem SuiteEntry.judge_eq_ok {x : SuiteEntry} {r : ScenarioResult} (h : x.judge = .ok r) :
    r.scenario = x.scenario ∧ suiteOf x.name = .ok r.suite ∧
      ∃ entry status, x.counting? = some (.obj entry) ∧
        Json.find? "status" entry = some status ∧ verdictOf? status = some r.verdict := by
  simp only [SuiteEntry.judge, judgeSuite] at h
  split at h
  · cases h
  next tests htests =>
    have hx : x.tests = tests := (membersOf_eq_ok htests).symm
    rw [← hx] at h
    split at h
    next entry hentry =>
      cases entry with
      | obj entry =>
        simp only [judgeEntry] at h
        split at h
        next verdict hverdict =>
          obtain ⟨status, hstatus, hverdict⟩ := exists_status hverdict
          split at h
          next hsuite _ =>
            cases h
            exact ⟨rfl, hsuite, entry, status, hentry, hstatus, hverdict⟩
          · cases h
          · cases h
        · split at h <;> cases h
      | _ => simp [judgeEntry] at h
    · cases h

/-! ## The result of a scenario -/

/-- The last result of a scenario. -/
theorem latest?_eq_some_iff {results : List ScenarioResult} {s : Scenario} {r : ScenarioResult} :
    latest? results s = some r ↔
      r.scenario = s ∧ ∃ before after, results = before ++ r :: after ∧
        ∀ y ∈ after, y.scenario ≠ s := by
  rw [latest?, List.find?_eq_some_iff_append]
  simp only [decide_eq_true_eq, Bool.not_eq_eq_eq_not, Bool.not_true, decide_eq_false_iff_not]
  constructor
  · rintro ⟨hr, after, before, hsplit, hafter⟩
    have hresults : results = before.reverse ++ r :: after.reverse := by
      rw [← List.reverse_reverse results, hsplit]
      simp
    exact ⟨hr, before.reverse, after.reverse, hresults, by simpa using hafter⟩
  · rintro ⟨hr, before, after, rfl, hafter⟩
    exact ⟨hr, after.reverse, before.reverse, by simp, by simpa using hafter⟩

/-! ## Runs -/

/-- Results are collected exactly when every requested scenario has one and a failed run has a
failed suite. -/
theorem collect_eq_ok_iff {output : Output} {requested : List Scenario}
    {results : List ScenarioResult} {run : SuiteRun} :
    collect output requested results = .ok run ↔
      (∀ s ∈ requested, (latest? results s).isSome) ∧
        (output.status = 0 ∨ anyFailure results = true) ∧
        run = { results := requested.eraseDups.filterMap (latest? results),
                status := output.status } := by
  have hmissing : (requested.filter fun s => (latest? results s).isNone) = [] ↔
      ∀ s ∈ requested, (latest? results s).isSome := by
    simp [List.filter_eq_nil_iff, Option.ne_none_iff_isSome]
  simp only [collect]
  by_cases hall : ∀ s ∈ requested, (latest? results s).isSome
  · rw [hmissing.mpr hall]
    by_cases hguard : output.status = 0 ∨ anyFailure results = true
    · have hpassed : ¬(output.status ≠ 0 ∧ (!anyFailure results) = true) := by
        rcases hguard with h | h <;> simp [h]
      simp only [List.isEmpty_nil, Bool.not_true, Bool.false_eq_true, if_false, if_neg hpassed]
      exact ⟨fun h => ⟨hall, hguard, (Except.ok.inj h).symm⟩, fun h => by rw [h.2.2]⟩
    · have hrefused : output.status ≠ 0 ∧ (!anyFailure results) = true := by
        simpa using hguard
      simp only [List.isEmpty_nil, Bool.not_true, Bool.false_eq_true, if_false, if_pos hrefused]
      exact ⟨fun h => (by cases h), fun h => absurd h.2.1 hguard⟩
  · have hne : (requested.filter fun s => (latest? results s).isNone) ≠ [] :=
      fun h => hall (hmissing.mp h)
    simp [hall, List.isEmpty_eq_false_iff.mpr hne]

/-- A run has results exactly when it went through its tests and left a report that is judged well
and covers the request. -/
theorem ofOutput_eq_ok_iff {room : Nat} {output : Output} {requested : List Scenario}
    {run : SuiteRun} : SuiteRun.ofOutput room output requested = .ok run ↔
      output.status ∈ completedStatuses ∧
        ∃ report results, findReport room output.stdout.toList = .ok (some report) ∧
          judge report = .ok results ∧ collect output requested results = .ok run := by
  simp only [SuiteRun.ofOutput]
  split
  next h => simp [h]
  next h =>
    simp only [not_not] at h
    split
    next hfind => simp [hfind]
    next hfind => simp [hfind]
    next report hfind =>
      simp only [h, hfind, true_and, Except.ok.injEq, Option.some.injEq, exists_and_left,
        exists_eq_left', bind_eq_ok_iff]
      refine exists_congr fun results => and_congr_right fun _ => ?_
      cases collect output requested results <;> simp

/-- A run that has results has one for each requested scenario, in their order. -/
theorem scenarios_of_ofOutput {room : Nat} {output : Output} {requested : List Scenario}
    {run : SuiteRun} (h : SuiteRun.ofOutput room output requested = .ok run) :
    run.results.map (·.scenario) = requested.eraseDups := by
  obtain ⟨-, report, results, -, -, hcollect⟩ := ofOutput_eq_ok_iff.mp h
  obtain ⟨hall, -, rfl⟩ := collect_eq_ok_iff.mp hcollect
  have hscenario : ∀ s ∈ requested.eraseDups,
      (latest? results s).map (·.scenario) = some s := by
    intro s hs
    obtain ⟨r, hr⟩ := Option.isSome_iff_exists.mp (hall s (List.mem_eraseDups.mp hs))
    rw [hr, Option.map_some, (latest?_eq_some_iff.mp hr).1]
  rw [List.map_filterMap, List.filterMap_congr hscenario]
  exact List.filterMap_some

/-- A run that has results has the status of its output, which is that of tests gone through. -/
lemma status_of_ofOutput {room : Nat} {output : Output} {requested : List Scenario} {run : SuiteRun}
    (h : SuiteRun.ofOutput room output requested = .ok run) :
    run.status = output.status ∧ (output.status = 0 ∨ output.status = 1) := by
  obtain ⟨hstatus, report, results, -, -, hcollect⟩ := ofOutput_eq_ok_iff.mp h
  obtain ⟨-, -, rfl⟩ := collect_eq_ok_iff.mp hcollect
  exact ⟨rfl, by simpa [completedStatuses] using hstatus⟩

end HoneypotAudit.Forge
