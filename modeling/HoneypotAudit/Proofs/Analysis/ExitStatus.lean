import HoneypotAudit.Proofs.Analysis.Reports
import HoneypotAudit.Proofs.Forge.Failures

/-!
# Exit statuses and verdicts

A test run that exits with a failure has a failing suite, but that need not be a suite that was
asked for: the report is searched for failures before it is restricted to the requested scenarios.
`failing_result_iff` says when the exit status and the verdicts agree, for a run and for the
report of an analysis, and `failed_run_without_failing_result` is a run where they do not.
-/

namespace HoneypotAudit.Analysis

open HoneypotAudit.Session HoneypotAudit.Solidity HoneypotAudit.Forge

/-- A tested contract is safe exactly if no scenario that applies to it failed in the report of the
tests. -/
lemma isSafe_iff_of_tested {room : Nat} {facts : Facts} {output : Output} {run : SuiteRun}
    {r : Report} (htested : r.status = .tested) (happlicable : facts.isApplicable = true)
    (hrun : SuiteRun.ofOutput room output (Suite.scenariosFor facts) = .ok run)
    (hresults : r.results = run.results.map fun x => (x.scenario, x)) :
    r.isSafe = true ↔ ¬∃ x ∈ run.results, x.verdict = .fail := by
  have hsome : r.results ≠ [] := results_ne_nil happlicable hrun hresults
  have hverdicts : (∀ x ∈ r.results, x.2.verdict ≠ .fail) ↔
      ¬∃ x ∈ run.results, x.verdict = .fail := by
    simp [hresults]
  rw [isSafe_iff, hverdicts]
  exact ⟨fun h => h.2.2, fun h => ⟨htested, hsome, h⟩⟩

/-- **When exit status and verdicts agree.**  A run that exited with a failure always has a scenario
that failed in its report; it has a failing result exactly if such a scenario was asked for.  So a
safe report comes from a run that exited well, unless the run did not and only scenarios failed that
do not apply to the contract. -/
theorem failing_result_iff (output : Output) (requested : List Scenario) (a : Analyzer) (t : Task) :
    (∀ room run, SuiteRun.ofOutput room output requested = .ok run → run.status ≠ 0 →
      ∃ report, findReport room output.stdout.toList = .ok (some report) ∧
        (∃ s, FailedIn report s) ∧
        ((∃ x ∈ run.results, x.verdict = .fail) ↔ ∃ s ∈ requested, FailedIn report s)) ∧
    (∀ s s' r, Ends (analyze a t) s (.ok r) s' → r.status = .tested →
      ∃ facts before call tested report, Finds a t s facts ∧ Makes (before ++ [call]) s s' ∧
        call.command = .test ∧
        ((s.forge.behind before).next .test).1.outcome "" = .finished tested ∧
        findReport s.rooms.reported tested.stdout.toList = .ok (some report) ∧
        ((r.isSafe = true → tested.status = 0) ↔
          tested.status = 0 ∨ ∃ x ∈ Suite.scenariosFor facts, FailedIn report x)) := by
  constructor
  · intro room run hrun hstatus
    obtain ⟨report, hreport, hfail, hsome⟩ := exists_fail_iff hrun
    exact ⟨report, hreport, hsome hstatus, hfail⟩
  · intro s s' r hends htested
    obtain ⟨calls, hcalls, hanalyzed⟩ := ends_analyze_ok hends
    obtain ⟨facts, before, call, tested, run, hfinds, happlicable, rfl, htest, hfinished, hrun,
      hresults, -⟩ := hanalyzed.of_tested htested
    obtain ⟨report, hreport, hfail, -⟩ := exists_fail_iff hrun
    refine ⟨facts, before, call, tested, report, hfinds, hcalls, htest, hfinished, hreport, ?_⟩
    rw [isSafe_iff_of_tested htested happlicable hrun hresults, hfail, or_iff_not_imp_right]

/-- A failed run on two suites, of which the second one failed. -/
def secondFailed : Output where
  status := 1
  stdout := "\x7b\"DynamicHoneypotTest\": \x7b\"test_results\": " ++
    "\x7b\"invariant_transfer()\": \x7b\"status\": \"Success\"\x7d\x7d\x7d, " ++
    "\"DynamicHiddenMintsTest\": \x7b\"test_results\": " ++
    "\x7b\"invariant_totalsupply()\": \x7b\"status\": \"Failure\"\x7d\x7d\x7d\x7d"

theorem failing_result_iff_hiddenMint :
    (∃ run report, SuiteRun.ofOutput 8 secondFailed [.hiddenMint] = .ok run ∧ run.status ≠ 0 ∧
      findReport 8 secondFailed.stdout.toList = .ok (some report) ∧
      ((∃ x ∈ run.results, x.verdict = .fail) ↔ ∃ s ∈ [Scenario.hiddenMint], FailedIn report s)) ∧
    ∃ r s' facts report, ∃ tested : Output, Ends (analyze {} ownedTask) ownedSession (.ok r) s' ∧
      r.status = .tested ∧ Finds {} ownedTask ownedSession facts ∧
      findReport 8 tested.stdout.toList = .ok (some report) ∧
      ((r.isSafe = true → tested.status = 0) ↔
        tested.status = 0 ∨ ∃ x ∈ Suite.scenariosFor facts, FailedIn report x) := by
  obtain ⟨hruns, hreports⟩ := failing_result_iff secondFailed [.hiddenMint] {} ownedTask
  constructor
  · have hrun : SuiteRun.ofOutput 8 secondFailed [.hiddenMint] = .ok
        { results := [⟨.hiddenMint, .fail, "DynamicHiddenMintsTest", ""⟩], status := 1 } := by
      decide +kernel
    obtain ⟨report, hreport, -, hiff⟩ := hruns _ _ hrun (by decide)
    exact ⟨_, report, hrun, by decide, hreport, hiff⟩
  · obtain ⟨r, s', hends, htested⟩ := exists_owned_report
    obtain ⟨facts, before, call, tested, report, hfinds, -, -, -, hreport, hiff⟩ :=
      hreports _ _ _ hends htested
    exact ⟨r, s', facts, report, tested, hends, htested, hfinds, hreport, hiff⟩

/-- A run that exited with a failure and has no failing result: the suite that failed was not asked
for. -/
theorem failed_run_without_failing_result :
    ¬∀ (room : Nat) (output : Output) (requested : List Scenario) (run : SuiteRun),
      SuiteRun.ofOutput room output requested = .ok run → run.status ≠ 0 →
        ∃ x ∈ run.results, x.verdict = .fail := by
  intro h
  have hrun : SuiteRun.ofOutput 8 secondFailed [.honeypot] = .ok
      { results := [⟨.honeypot, .pass, "DynamicHoneypotTest", ""⟩], status := 1 } := by
    decide +kernel
  have hfail := h _ _ _ _ hrun (by decide)
  revert hfail
  decide

end HoneypotAudit.Analysis
