import HoneypotAudit.Proofs.Forge.Backing

/-!
# Failures in reports

A scenario failed in a report if the entry that counts in its last suite did (`FailedIn`).  A run
that ended with a failure has such a scenario among all those of its report, and has a failing
result exactly if one of these was asked for (`exists_fail_iff`).
-/

namespace HoneypotAudit.Forge

open HoneypotAudit.Outcome

/-- A scenario failed in a report: so did the entry that counts in its last suite. -/
def FailedIn (report : Json.Members) (s : Scenario) : Prop :=
  ∃ earlier last entry, suitesOf s report = earlier ++ [last] ∧
    last.counting? = some entry ∧ hasStatus "Failure" entry = true

/-- A suite fails exactly if the entry that counts does. -/
lemma SuiteEntry.verdict_eq_fail_iff {x : SuiteEntry} {r : ScenarioResult} {entry : Json}
    (h : x.judge = .ok r) (hentry : x.counting? = some entry) :
    r.verdict = .fail ↔ hasStatus "Failure" entry = true := by
  obtain ⟨-, -, members, status, hcounting, hstatus, hverdict⟩ := SuiteEntry.judge_eq_ok h
  obtain rfl : entry = .obj members := Option.some.inj (hentry.symm.trans hcounting)
  have hlookup : (Json.obj members).get? "status" = some status := hstatus
  unfold verdictOf? at hverdict
  split at hverdict
  all_goals simp [hasStatus, hlookup] at hverdict ⊢
  all_goals simp [← hverdict]

/-- A suite of a judged report has a result that counts for its scenario. -/
lemma exists_latest?_of_mem {report : Json.Members} {results : List ScenarioResult}
    {x : SuiteEntry} (hjudge : judge report = .ok results) (hx : x ∈ suites report) :
    ∃ r, latest? results x.scenario = some r := by
  obtain ⟨r, hr, hjudged⟩ := exists_of_mem_left (judge_eq_ok_iff.mp hjudge) hx
  have hscenario : r.scenario = x.scenario := (SuiteEntry.judge_eq_ok hjudged).1
  have hsome : (latest? results x.scenario).isSome := by
    rw [latest?, List.find?_isSome]
    exact ⟨r, List.mem_reverse.mpr hr, decide_eq_true hscenario⟩
  exact Option.isSome_iff_exists.mp hsome

/-- In a judged report a scenario failed exactly if the result that counts for it is a failure. -/
lemma failedIn_iff {report : Json.Members} {results : List ScenarioResult} {s : Scenario}
    (hjudge : judge report = .ok results) :
    FailedIn report s ↔ ∃ r, latest? results s = some r ∧ r.verdict = .fail := by
  constructor
  · rintro ⟨earlier, last, entry, hsuites, hentry, hfailed⟩
    have hlast : last ∈ suitesOf s report := by
      rw [hsuites]
      exact List.mem_append_right earlier List.mem_cons_self
    obtain ⟨hmem, hscenario⟩ := List.mem_filter.mp hlast
    obtain rfl : last.scenario = s := of_decide_eq_true hscenario
    obtain ⟨r, hr⟩ := exists_latest?_of_mem hjudge hmem
    obtain ⟨earlier', last', hsuites', hjudged⟩ := exists_last_of_latest? hjudge hr
    obtain ⟨-, hsame⟩ := List.append_inj' (hsuites.symm.trans hsuites') rfl
    obtain rfl : last = last' := List.singleton_inj.mp hsame
    exact ⟨r, hr, (SuiteEntry.verdict_eq_fail_iff hjudged hentry).mpr hfailed⟩
  · rintro ⟨r, hr, hfail⟩
    obtain ⟨earlier, last, hsuites, hjudged⟩ := exists_last_of_latest? hjudge hr
    obtain ⟨-, -, members, -, hentry, -⟩ := SuiteEntry.judge_eq_ok hjudged
    exact ⟨earlier, last, _, hsuites, hentry,
      (SuiteEntry.verdict_eq_fail_iff hjudged hentry).mp hfail⟩

/-- **A run has a failing result exactly if a requested scenario failed in its report**, and a run
that ended with a failure has some scenario that failed, requested or not. -/
theorem exists_fail_iff {room : Nat} {output : Output} {requested : List Scenario} {run : SuiteRun}
    (h : SuiteRun.ofOutput room output requested = .ok run) :
    ∃ report, findReport room output.stdout.toList = .ok (some report) ∧
      ((∃ r ∈ run.results, r.verdict = .fail) ↔ ∃ s ∈ requested, FailedIn report s) ∧
      (run.status ≠ 0 → ∃ s, FailedIn report s) := by
  obtain ⟨-, report, results, hfind, hjudge, hcollect⟩ := ofOutput_eq_ok_iff.mp h
  obtain ⟨-, hguard, rfl⟩ := collect_eq_ok_iff.mp hcollect
  refine ⟨report, hfind, ?_, ?_⟩
  · simp only [failedIn_iff hjudge, List.mem_filterMap, List.mem_eraseDups]
    constructor
    · rintro ⟨r, ⟨s, hs, hr⟩, hfail⟩
      exact ⟨s, hs, r, hr, hfail⟩
    · rintro ⟨s, hs, r, hr, hfail⟩
      exact ⟨r, ⟨s, hs, hr⟩, hfail⟩
  · intro hstatus
    have hany : anyFailure results = true := hguard.resolve_left hstatus
    obtain ⟨s, -, hs⟩ := List.any_eq_true.mp hany
    obtain ⟨r, hr, hfail⟩ := (Option.any_eq_true ..).mp hs
    exact ⟨s, (failedIn_iff hjudge).mpr ⟨r, hr, of_decide_eq_true hfail⟩⟩

end HoneypotAudit.Forge
