import HoneypotAudit.Proofs.Forge.Suites

/-!
# What stands behind a pass

A scenario passes by one entry of the report: the entry that counts in the last suite of the
scenario (`exists_last_suite`).  Everything else that the report lists for the scenario is passed
over, whatever it says: the entries of earlier suites, later entries of the same name, and the
set-up beside an invariant.

One expects more of a pass: that the invariant of the scenario itself succeeded in some suite, and
that nothing listed for the scenario failed.  `Backed` says so.  `backed_iff_of_pass` tells exactly
when a pass is backed.  It need not be, as a set-up counts in place of a missing invariant also when
it succeeded (`pass_without_invariant`).
-/

namespace HoneypotAudit.Forge

open HoneypotAudit.Outcome

/-! ## Entries -/

/-- An entry of a suite has a status. -/
def hasStatus (status : String) (entry : Json) : Bool :=
  match entry.get? "status" with
  | some (.str s) => s == status
  | _ => false

namespace SuiteEntry

/-- The entries that a suite lists under the name of a test, in order. -/
def entries (x : SuiteEntry) (name : String) : List Json :=
  (x.tests.filter fun test => testName test.1 = name).map (·.2)

/-- Whether a suite lists a test with a status. -/
def lists (x : SuiteEntry) (name status : String) : Bool :=
  (x.entries name).any (hasStatus status)

/-- The entries of a suite that are looked at: those of the invariant and those of the set-up. -/
def watched (x : SuiteEntry) : List Json :=
  x.entries x.scenario.invariantName ++ x.entries "setUp"

/-- Whether it is the invariant of a suite that counts. -/
def invariantCounts (x : SuiteEntry) : Bool :=
  (entryOf? x.scenario.invariantName x.tests).isSome

/-- The entries of a suite that are looked at and do not count. -/
def passedOver (x : SuiteEntry) : List Json :=
  if x.invariantCounts then (x.entries x.scenario.invariantName).tail ++ x.entries "setUp"
  else x.entries x.scenario.invariantName ++ (x.entries "setUp").tail

/-- The entry of a name that counts stands first among the entries of the name. -/
lemma entries_of_entryOf? {x : SuiteEntry} {name : String} {entry : Json}
    (h : entryOf? name x.tests = some entry) :
    x.entries name = entry :: (x.entries name).tail := by
  have hhead : (x.entries name).head? = some entry := by
    simp only [entries, List.head?_map, List.head?_filter]
    unfold entryOf? at h
    split at h
    · cases h
    next heq =>
      cases h
      simp [heq]
    · cases h
  exact List.eq_cons_of_mem_head? hhead

/-- The entries that are looked at are the one that counts and those that are passed over. -/
lemma watched_perm {x : SuiteEntry} {entry : Json} (h : x.counting? = some entry) :
    x.watched.Perm (entry :: x.passedOver) := by
  unfold counting? at h
  cases hinv : entryOf? x.scenario.invariantName x.tests with
  | some e =>
    obtain rfl : e = entry := by simpa [hinv] using h
    have hfirst := entries_of_entryOf? hinv
    rw [watched, passedOver, if_pos (by simp [invariantCounts, hinv]), hfirst]
    simp
  | none =>
    have hsetUp : entryOf? "setUp" x.tests = some entry := by simpa [hinv] using h
    have hfirst := entries_of_entryOf? hsetUp
    rw [watched, passedOver, if_neg (by simp [invariantCounts, hinv]), hfirst]
    exact List.perm_middle

end SuiteEntry

/-! ## The suite that a result comes from -/

/-- The suites of a report for a scenario, in order. -/
def suitesOf (s : Scenario) (report : Json.Members) : List SuiteEntry :=
  (suites report).filter (·.scenario = s)

/-- The result that counts for a scenario is that of its last suite. -/
lemma exists_last_of_latest? {report : Json.Members} {results : List ScenarioResult}
    {s : Scenario} {r : ScenarioResult} (hjudge : judge report = .ok results)
    (hlatest : latest? results s = some r) :
    ∃ earlier last, suitesOf s report = earlier ++ [last] ∧ last.judge = .ok r := by
  obtain ⟨rfl, before, after, rfl, hafter⟩ := latest?_eq_some_iff.mp hlatest
  -- the suites split where the results do
  have hjudged := judge_eq_ok_iff.mp hjudge
  have hdrop := List.forall₂_drop_append _ before (r :: after) hjudged
  obtain ⟨last, later, hlast, hlater, hsplit⟩ := List.forall₂_cons_right_iff.mp hdrop
  have hscenario : r.scenario = last.scenario := (SuiteEntry.judge_eq_ok hlast).1
  have hnone : later.filter (·.scenario = r.scenario) = [] := by
    rw [List.filter_eq_nil_iff]
    intro y hy
    obtain ⟨r', hr', hjudge'⟩ := exists_of_mem_left hlater hy
    simpa [(SuiteEntry.judge_eq_ok hjudge').1] using hafter r' hr'
  obtain ⟨earlier, hsuites⟩ : ∃ earlier, suites report = earlier ++ last :: later :=
    ⟨(suites report).take before.length, by rw [← hsplit, List.take_append_drop]⟩
  refine ⟨earlier.filter (·.scenario = r.scenario), last, ?_, hlast⟩
  rw [suitesOf, hsuites, List.filter_append, List.filter_cons, hnone]
  simp [hscenario]

/-- Each result of a run is that of the last suite of its scenario. -/
theorem exists_last_suite {room : Nat} {output : Output} {requested : List Scenario}
    {run : SuiteRun}
    {r : ScenarioResult} (hrun : SuiteRun.ofOutput room output requested = .ok run)
    (hr : r ∈ run.results) :
    ∃ report earlier last, findReport room output.stdout.toList = .ok (some report) ∧
      suitesOf r.scenario report = earlier ++ [last] ∧ last.judge = .ok r := by
  obtain ⟨-, report, results, hfind, hjudge, hcollect⟩ := ofOutput_eq_ok_iff.mp hrun
  obtain ⟨-, -, rfl⟩ := collect_eq_ok_iff.mp hcollect
  obtain ⟨s, -, hlatest⟩ := List.mem_filterMap.mp hr
  obtain ⟨rfl, -⟩ := latest?_eq_some_iff.mp hlatest
  obtain ⟨earlier, last, hsuites, hlast⟩ := exists_last_of_latest? hjudge hlatest
  exact ⟨report, earlier, last, hfind, hsuites, hlast⟩

/-- The entry by which a scenario passes succeeded. -/
lemma exists_success_of_pass {x : SuiteEntry} {r : ScenarioResult} (h : x.judge = .ok r)
    (hpass : r.verdict = .pass) :
    ∃ entry, x.counting? = some entry ∧ hasStatus "Success" entry = true := by
  obtain ⟨-, -, members, status, hcounting, hstatus, hverdict⟩ := SuiteEntry.judge_eq_ok h
  refine ⟨_, hcounting, ?_⟩
  rw [hpass] at hverdict
  unfold verdictOf? at hverdict
  split at hverdict <;> simp [hasStatus, Json.get?, hstatus] at hverdict ⊢

/-! ## Backed passes -/

/-- A pass of a scenario is backed by a report: the invariant succeeded in a suite of the scenario,
and neither the invariant nor the set-up failed in any. -/
structure Backed (report : Json.Members) (s : Scenario) : Prop where
  success : ∃ x ∈ suitesOf s report, x.lists s.invariantName "Success" = true
  noFailure : ∀ x ∈ suitesOf s report,
    x.lists s.invariantName "Failure" = false ∧ x.lists "setUp" "Failure" = false

instance (report : Json.Members) (s : Scenario) : Decidable (Backed report s) :=
  decidable_of_iff
    ((∃ x ∈ suitesOf s report, x.lists s.invariantName "Success" = true) ∧
      ∀ x ∈ suitesOf s report,
        x.lists s.invariantName "Failure" = false ∧ x.lists "setUp" "Failure" = false)
    ⟨fun h => ⟨h.1, h.2⟩, fun h => ⟨h.1, h.2⟩⟩

/-- Nothing listed for a scenario failed exactly when none of the entries that are looked at did. -/
lemma noFailure_iff {s : Scenario} {xs : List SuiteEntry} (hs : ∀ x ∈ xs, x.scenario = s) :
    (∀ x ∈ xs, x.lists s.invariantName "Failure" = false ∧ x.lists "setUp" "Failure" = false) ↔
      ∀ entry ∈ xs.flatMap SuiteEntry.watched, hasStatus "Failure" entry = false := by
  simp only [SuiteEntry.lists, List.any_eq_false, Bool.not_eq_true, List.mem_flatMap,
    forall_exists_index, and_imp]
  constructor
  · intro h entry x hx hentry
    rw [SuiteEntry.watched, hs x hx, List.mem_append] at hentry
    rcases hentry with hentry | hentry
    · exact (h x hx).1 entry hentry
    · exact (h x hx).2 entry hentry
  · intro h x hx
    constructor <;> intro entry hentry <;> refine h entry x hx ?_ <;>
      simp [SuiteEntry.watched, hs x hx, hentry]

/-- **When a pass is backed.**  The result of a passed scenario comes from the last suite of the
scenario in the report.  The pass is backed exactly when it was the invariant of that suite that
counted, or some suite lists the invariant with success all the same, and no entry that was passed
over has failed. -/
theorem backed_iff_of_pass {room : Nat} {output : Output} {requested : List Scenario}
    {run : SuiteRun} {r : ScenarioResult}
    (hrun : SuiteRun.ofOutput room output requested = .ok run)
    (hr : r ∈ run.results) (hpass : r.verdict = .pass) :
    ∃ report earlier last, findReport room output.stdout.toList = .ok (some report) ∧
      suitesOf r.scenario report = earlier ++ [last] ∧
      (Backed report r.scenario ↔
        (last.invariantCounts = true ∨ ∃ x ∈ suitesOf r.scenario report,
          x.lists r.scenario.invariantName "Success" = true) ∧
        ∀ entry ∈ earlier.flatMap SuiteEntry.watched ++ last.passedOver,
          hasStatus "Failure" entry = false) := by
  obtain ⟨report, earlier, last, hfind, hsuites, hlast⟩ := exists_last_suite hrun hr
  refine ⟨report, earlier, last, hfind, hsuites, ?_⟩
  obtain ⟨entry, hcounting, hsuccess⟩ := exists_success_of_pass hlast hpass
  have hof : ∀ x ∈ suitesOf r.scenario report, x.scenario = r.scenario := by
    intro x hx
    simpa using (List.mem_filter.mp hx).2
  have hscenario : last.scenario = r.scenario := hof last (by simp [hsuites])
  -- the entry that counts has succeeded, so only those passed over can have failed
  have hwatched : (∀ e ∈ (suitesOf r.scenario report).flatMap SuiteEntry.watched,
        hasStatus "Failure" e = false) ↔
      ∀ e ∈ earlier.flatMap SuiteEntry.watched ++ last.passedOver,
        hasStatus "Failure" e = false := by
    have hentry : hasStatus "Failure" entry = false := by
      unfold hasStatus at hsuccess ⊢
      split at hsuccess <;> simp_all
    rw [hsuites, List.flatMap_append, List.flatMap_singleton]
    simp only [List.mem_append, or_imp, forall_and, (SuiteEntry.watched_perm hcounting).mem_iff,
      List.mem_cons, forall_eq, hentry, true_and]
  constructor
  · intro h
    exact ⟨.inr h.success, hwatched.mp ((noFailure_iff hof).mp h.noFailure)⟩
  · rintro ⟨hsound | hlisted, hnone⟩
    · refine ⟨⟨last, by simp [hsuites], ?_⟩, (noFailure_iff hof).mpr (hwatched.mpr hnone)⟩
      -- the invariant counts, so the entry that counts is listed under its name
      obtain ⟨e, he⟩ := Option.isSome_iff_exists.mp hsound
      obtain rfl : e = entry := by simpa [SuiteEntry.counting?, he] using hcounting
      rw [← hscenario, SuiteEntry.lists, SuiteEntry.entries_of_entryOf? he, List.any_cons, hsuccess,
        Bool.true_or]
    · exact ⟨hlisted, (noFailure_iff hof).mpr (hwatched.mpr hnone)⟩

/-- A report whose only suite lists an invariant that held. -/
def invariantHeld : Output :=
  { stdout := "\x7b\"test/test.sol:DynamicHoneypotTest\": \x7b\"test_results\": " ++
      "\x7b\"invariant_transfer()\": \x7b\"status\": \"Success\"\x7d\x7d\x7d\x7d" }

/-- A pass on the word of the invariant. -/
theorem backed_iff_of_pass_invariantHeld :
    ∃ run r, SuiteRun.ofOutput 8 invariantHeld [.honeypot] = .ok run ∧ r ∈ run.results ∧
      r.verdict = .pass ∧
      ∃ report earlier last,
        findReport 8 invariantHeld.stdout.toList = .ok (some report) ∧
        suitesOf r.scenario report = earlier ++ [last] ∧
        (Backed report r.scenario ↔
          (last.invariantCounts = true ∨ ∃ x ∈ suitesOf r.scenario report,
            x.lists r.scenario.invariantName "Success" = true) ∧
          ∀ entry ∈ earlier.flatMap SuiteEntry.watched ++ last.passedOver,
            hasStatus "Failure" entry = false) := by
  have hrun : SuiteRun.ofOutput 8 invariantHeld [.honeypot] = .ok
      { results := [⟨.honeypot, .pass, "test/test.sol:DynamicHoneypotTest", ""⟩] } := by
    decide +kernel
  have hmem := List.mem_singleton_self
    (⟨.honeypot, .pass, "test/test.sol:DynamicHoneypotTest", ""⟩ : ScenarioResult)
  exact ⟨_, _, hrun, hmem, rfl, backed_iff_of_pass hrun hmem rfl⟩

/-- A report whose only suite lists a set-up that succeeded. -/
def setUpOnly : Output :=
  { stdout := "\x7b\"test/test.sol:DynamicHoneypotTest\": \x7b\"test_results\": " ++
      "\x7b\"setUp()\": \x7b\"status\": \"Success\"\x7d\x7d\x7d\x7d" }

/-- The report of an output, if it has one. -/
def reportOf? (room : Nat) (output : Output) : Option Json.Members :=
  match findReport room output.stdout.toList with
  | .ok report => report
  | .error _ => none

/-- A scenario passes on the word of its set-up alone, without its invariant being listed. -/
theorem pass_without_invariant :
    SuiteRun.ofOutput 8 setUpOnly [.honeypot] = .ok
        { results := [⟨.honeypot, .pass, "test/test.sol:DynamicHoneypotTest", ""⟩] } ∧
      ((reportOf? 8 setUpOnly).any fun report => !decide (Backed report .honeypot)) = true := by
  constructor <;> decide +kernel

end HoneypotAudit.Forge
