import HoneypotAudit.Proofs.Analysis.Reports
import HoneypotAudit.Proofs.Forge.Shape
import HoneypotAudit.Proofs.Json.Texts
import HoneypotAudit.Proofs.Json.Writing

/-!
# Reports on synthesized suites

The suites of a contract are synthesized in one place and the report on them is read in another.
The two know each other by names only: that of the test contract, that of its invariant, and the
order of the scenarios.

A `Finding` is what the tests of one suite come to.  `Lists` says that a suite of a report lists a
finding, and `Covers` that a report lists one for each of some scenarios, in any order and among
any other members.  `ofOutput_of_covers` is the main statement: a run on such a report has
exactly these findings as its results, in the order of the synthesized suites.

That the text of the report can be read is a premise, and the texts of a finding have no halves of
UTF-16 pairs in them.  Neither can be left out (`covering_report_without_results`).
-/

namespace HoneypotAudit.Forge

open HoneypotAudit.Outcome HoneypotAudit.Text HoneypotAudit.Solidity HoneypotAudit.Analysis

/-! ## Findings -/

/-- The status that stands for a verdict in a report. -/
def statusText : Verdict → String
  | .pass => "Success"
  | .fail => "Failure"
  | .skip => "Skipped"

/-- What the tests of a suite come to. -/
structure Finding where
  verdict : Verdict
  reason : Option String := none
  /-- What stands in front of the name of the test contract, with a colon between the two. -/
  path : Option String := none

namespace Finding

/-- The name of the suite of a scenario. -/
def suiteName (f : Finding) (s : Scenario) : String :=
  match f.path with
  | some path => path ++ ":" ++ s.suiteName
  | none => s.suiteName

/-- A finding about a scenario as a result; no reason is an empty one. -/
def result (f : Finding) (s : Scenario) : ScenarioResult :=
  ⟨s, f.verdict, f.suiteName s, f.reason.getD ""⟩

/-- An entry of a test says a finding by its status and its reason, which may be null. -/
structure SaidBy (f : Finding) (entry : Json.Members) : Prop where
  status : Json.find? "status" entry = some (.str (statusText f.verdict))
  reason : Json.find? "reason" entry = some (f.reason.elim .null .str)

end Finding

/-- The suite of a scenario lists a finding: among its tests one says it, which is the invariant, or
else the set-up if it is not about a success.  The other tests are neither of the two. -/
inductive Lists (s : Scenario) (f : Finding) (suite : Json.Members) : Prop
  | intro {before after entry : Json.Members} {listed : String}
      (tests : Json.find? "test_results" suite =
        some (.obj (before ++ (listed, .obj entry) :: after)))
      (named : testName listed = s.invariantName ∨ f.verdict ≠ .pass ∧ testName listed = "setUp")
      (others : ∀ test ∈ before ++ after,
        testName test.1 ≠ s.invariantName ∧ testName test.1 ≠ "setUp")
      (said : f.SaidBy entry)

/-- A name as the members of a report have it. -/
def memberName (name : String) : String :=
  Json.keptName (name.toList.map Char.toNat)

/-- A report has a suite for each of some scenarios, in their order, that lists what was found about
it.  Members that map to no scenario may stand anywhere and be anything. -/
inductive Covers (findings : Scenario → Finding) : List Scenario → Json.Members → Prop
  | nil : Covers findings [] []
  | suite {s : Scenario} {order : List Scenario} {suite report : Json.Members}
      (lists : Lists s (findings s) suite) (rest : Covers findings order report) :
      Covers findings (s :: order) ((memberName ((findings s).suiteName s), .obj suite) :: report)
  | other {order : List Scenario} {name : String} {value : Json} {report : Json.Members}
      (unmapped : Scenario.ofSuite? name = none) (rest : Covers findings order report) :
      Covers findings order ((name, value) :: report)

/-! ## Names of suites -/

/-- A name that was kept is read back. -/
lemma suiteOf_memberName (name : String) : suiteOf (memberName name) = .ok name := by
  have hvalid : ∀ n ∈ name.toList.map Char.toNat, n.isValidChar := by
    intro n hn
    obtain ⟨c, -, rfl⟩ := List.mem_map.mp hn
    exact c.valid
  have hchars : (name.toList.map Char.toNat).map Char.ofNat = name.toList := by
    simp [Function.comp_def]
  simp only [suiteOf, memberName, nameText?_keptName, if_pos hvalid, hchars, String.ofList_toList]

/-- A character as a kept name has it. -/
def keptChar (c : Char) : List Char :=
  if c = Json.nameMark then [Json.nameMark, Json.nameMark] else [c]

lemma toList_memberName (name : String) :
    (memberName name).toList = name.toList.flatMap keptChar := by
  rw [memberName, Json.keptName, String.toList_ofList, List.flatMap_map]
  refine congrArg (name.toList.flatMap ·) (funext fun c => ?_)
  have hvalid : c.toNat.isValidChar := c.valid
  by_cases hmark : c = Json.nameMark
  · rw [keptChar, if_pos hmark, if_pos (congrArg Char.toNat hmark)]
  · have hcode : c.toNat ≠ Json.nameMark.toNat := fun h => hmark (Char.toNat_inj.mp h)
    rw [keptChar, if_neg hmark, if_neg hcode, if_pos hvalid, Char.ofNat_toNat]

lemma flatMap_keptChar {cs : List Char} (h : Json.nameMark ∉ cs) : cs.flatMap keptChar = cs := by
  induction cs with
  | nil => rfl
  | cons c cs ih =>
    simp only [List.mem_cons, not_or] at h
    rw [List.flatMap_cons, ih h.2, keptChar, if_neg (Ne.symm h.1), List.singleton_append]

/-- The name of a test contract, with or without a path, maps to its scenario. -/
lemma ofSuite?_memberName (f : Finding) (s : Scenario) :
    Scenario.ofSuite? (memberName (f.suiteName s)) = some s := by
  have hcolon : ':' ∉ s.suiteName.toList := by cases s <;> decide
  have hmark : Json.nameMark ∉ s.suiteName.toList := by cases s <;> decide
  have hname : afterLast ':' (memberName (f.suiteName s)).toList = s.suiteName.toList := by
    cases hpath : f.path with
    | none => simp only [Finding.suiteName, hpath, toList_memberName, flatMap_keptChar hmark,
        afterLast_of_not_mem hcolon]
    | some path =>
      have hsplit : (memberName (f.suiteName s)).toList =
          path.toList.flatMap keptChar ++ ':' :: s.suiteName.toList := by
        simp only [Finding.suiteName, hpath, toList_memberName, String.toList_append,
          List.flatMap_append, flatMap_keptChar hmark, List.append_assoc]
        rfl
      rw [hsplit, afterLast_append hcolon]
  rw [Scenario.ofSuite?, hname, String.ofList_toList]
  cases s <;> decide

/-! ## Suites -/

lemma verdictOf?_statusText (v : Verdict) : verdictOf? (.str (statusText v)) = some v := by
  cases v <;> rfl

/-- An entry that says a finding is judged as the finding. -/
lemma judgeEntry_of_said {f : Finding} {entry : Json.Members} (h : f.SaidBy entry) (s : Scenario) :
    judgeEntry s (memberName (f.suiteName s)) (.obj entry) = .ok (f.result s) := by
  have hreason : reasonOf entry = .ok (f.reason.getD "") := by
    rw [reasonOf, h.reason]
    cases f.reason <;> rfl
  simp only [judgeEntry, h.status, Option.getD_some, verdictOf?_statusText, suiteOf_memberName,
    hreason]
  rfl

lemma entryOf?_eq_none {name : String} {tests : Json.Members}
    (h : ∀ test ∈ tests, testName test.1 ≠ name) : entryOf? name tests = none := by
  have hfind : tests.find? (fun test => testName test.1 = name) = none := by
    simpa [List.find?_eq_none] using h
  rw [entryOf?, hfind]

lemma entryOf?_append {name listed : String} {before after entry : Json.Members}
    (hbefore : ∀ test ∈ before, testName test.1 ≠ name) (hlisted : testName listed = name) :
    entryOf? name (before ++ (listed, .obj entry) :: after) = some (.obj entry) := by
  have hfind : (before ++ (listed, Json.obj entry) :: after).find?
      (fun test => testName test.1 = name) = some (listed, .obj entry) := by
    rw [List.find?_eq_some_iff_append]
    exact ⟨by simpa using hlisted, before, after, rfl, by simpa using hbefore⟩
  rw [entryOf?, hfind]

/-- The entry that says the finding of a suite is the one that counts. -/
lemma judgeSuite_of_lists {s : Scenario} {f : Finding} {suite : Json.Members}
    (h : Lists s f suite) : judgeSuite s (memberName (f.suiteName s)) suite = .ok (f.result s) := by
  obtain @⟨before, after, entry, listed, tests, named, others, said⟩ := h
  have hbefore : ∀ test ∈ before, testName test.1 ≠ s.invariantName ∧ testName test.1 ≠ "setUp" :=
    fun test htest => others test (List.mem_append_left after htest)
  have hcounting : (entryOf? s.invariantName (before ++ (listed, .obj entry) :: after) <|>
      entryOf? "setUp" (before ++ (listed, .obj entry) :: after)) = some (.obj entry) := by
    rcases named with hlisted | ⟨-, hlisted⟩
    · rw [entryOf?_append (fun test htest => (hbefore test htest).1) hlisted]
      rfl
    · have hnone : entryOf? s.invariantName (before ++ (listed, .obj entry) :: after) = none := by
        refine entryOf?_eq_none fun test htest => ?_
        rcases List.mem_append.mp htest with htest | htest
        · exact (hbefore test htest).1
        · rcases List.mem_cons.mp htest with rfl | htest
          · rw [hlisted]
            cases s <;> decide
          · exact (others test (List.mem_append_right before htest)).1
      rw [hnone, entryOf?_append (fun test htest => (hbefore test htest).2) hlisted]
      rfl
  simp only [judgeSuite, tests, Option.getD_some, membersOf, hcounting, judgeEntry_of_said said]

/-! ## Reports -/

/-- The suites of a report are judged as what was found about their scenarios. -/
lemma judge_of_covers {findings : Scenario → Finding} {order : List Scenario}
    {report : Json.Members} (h : Covers findings order report) :
    judge report = .ok (order.map fun s => (findings s).result s) := by
  induction h with
  | nil => rfl
  | suite lists _ ih =>
    rw [judge_cons_suite (x := ⟨_, _, _⟩) (by rw [SuiteEntry.ofMember?, ofSuite?_memberName]; rfl)]
    rw [SuiteEntry.judge, judgeSuite_of_lists lists, ih]
    rfl
  | other unmapped _ ih =>
    rw [judge_cons_other, ih]
    cases ‹Json› <;> simp [SuiteEntry.ofMember?, unmapped]

/-- Of results that follow from their scenarios, that of a scenario counts for it. -/
lemma latest?_map {result : Scenario → ScenarioResult} (hresult : ∀ s, (result s).scenario = s)
    {order : List Scenario} {s : Scenario} (hs : s ∈ order) :
    latest? (order.map result) s = some (result s) := by
  have hsome : (latest? (order.map result) s).isSome := by
    rw [latest?, List.find?_isSome]
    exact ⟨result s, by simpa using ⟨s, hs, rfl⟩, by simp [hresult]⟩
  obtain ⟨r, hr⟩ := Option.isSome_iff_exists.mp hsome
  obtain ⟨hscenario, before, after, hsplit, -⟩ := latest?_eq_some_iff.mp hr
  have hmem : r ∈ order.map result := by rw [hsplit]; simp
  obtain ⟨s', -, rfl⟩ := List.mem_map.mp hmem
  rw [hresult] at hscenario
  rw [hr, hscenario]

/-- **Synthesized suites and the report on them agree.**  Let a report cover the suites of a
contract in any order, among members that map to no scenario, and let the run have ended well, or
with a failure of one of the suites.  Then the run has what was found about the suites as its
results, in the order in which they are synthesized. -/
theorem ofOutput_of_covers {room : Nat} {amounts : Suite.Amounts} {facts : Facts}
    {arguments prelude : List String} {findings : Scenario → Finding} {order : List Scenario}
    {report : Json.Members} {output : Output}
    (horder : order.Perm ((Suite.suitesFor amounts facts arguments prelude).map (·.scenario)))
    (hcovers : Covers findings order report)
    (htext : readReport room output.stdout.toList = .ok (.obj report))
    (hstatus : output.status = 0 ∨
      output.status = 1 ∧ ∃ s ∈ order, (findings s).verdict = .fail) :
    SuiteRun.ofOutput room output (Suite.scenariosFor facts) = .ok
      { results := (Suite.suitesFor amounts facts arguments prelude).map fun suite =>
          (findings suite.scenario).result suite.scenario
        status := output.status } := by
  have hscenarios := scenarios_suitesFor amounts facts arguments prelude
  rw [hscenarios] at horder
  have hlatest : ∀ s ∈ order, latest? (order.map fun s => (findings s).result s) s =
      some ((findings s).result s) :=
    fun s hs => latest?_map (fun _ => rfl) hs
  have hrequested : ∀ s ∈ Suite.scenariosFor facts,
      latest? (order.map fun s => (findings s).result s) s = some ((findings s).result s) :=
    fun s hs => hlatest s (horder.mem_iff.mpr hs)
  have hresults : (Suite.scenariosFor facts).eraseDups.filterMap
        (latest? (order.map fun s => (findings s).result s)) =
      (Suite.suitesFor amounts facts arguments prelude).map fun suite =>
        (findings suite.scenario).result suite.scenario := by
    rw [eraseDups_scenariosFor, List.filterMap_congr hrequested, ← hscenarios,
      List.filterMap_map]
    exact congrFun List.filterMap_eq_map' _
  refine ofOutput_eq_ok_iff.mpr ⟨?_, report, _, ?_, judge_of_covers hcovers,
    collect_eq_ok_iff.mpr ⟨?_, ?_, ?_⟩⟩
  · rcases hstatus with h | ⟨h, -⟩ <;> simp [completedStatuses, h]
  · rw [findReport, htext]
  · intro s hs
    rw [hrequested s hs]
    rfl
  · refine hstatus.imp id ?_
    rintro ⟨-, s, hs, hfail⟩
    refine List.any_eq_true.mpr ⟨s, s.mem_all, ?_⟩
    rw [hlatest s hs]
    exact decide_eq_true hfail
  · rw [hresults]

/-- The facts about a contract that has an owner and is no token. -/
def ownedFacts : Facts :=
  { contract := default, isOwnable := true }

/-- A report on the only suite of such a contract, whose set-up failed, behind a suite of another
kind. -/
def failedSetUp : Json.Members :=
  [("test/Other.t.sol:OtherTest", .arr [.int 1]),
    ("src:test/test.sol:DynamicFakeOwnershipRenunciationTest", .obj [("test_results", .obj [
      ("testExtra()", .obj []),
      ("setUp()", .obj [("status", .str "Failure"), ("reason", .str "revert: é")])])])]

def failedSetUpOutput : Output :=
  { status := 1, stdout := Json.line (.obj failedSetUp) }

/-- What the report says about it. -/
def failedSetUpFinding : Finding :=
  ⟨.fail, some "revert: é", some "src:test/test.sol"⟩

theorem ofOutput_of_covers_failedSetUp :
    [Scenario.fakeOwnershipRenunciation].Perm
        ((Suite.suitesFor {} ownedFacts [] []).map (·.scenario)) ∧
      Covers (fun _ => failedSetUpFinding) [.fakeOwnershipRenunciation] failedSetUp ∧
      readReport 8 failedSetUpOutput.stdout.toList = .ok (.obj failedSetUp) ∧
      SuiteRun.ofOutput 8 failedSetUpOutput (Suite.scenariosFor ownedFacts) = .ok
        { results := [⟨.fakeOwnershipRenunciation, .fail,
            "src:test/test.sol:DynamicFakeOwnershipRenunciationTest", "revert: é"⟩]
          status := 1 } := by
  have hcovers :
      Covers (fun _ => failedSetUpFinding) [.fakeOwnershipRenunciation] failedSetUp := by
    refine .other (by decide +kernel)
      (.suite (@Lists.intro _ _ _ [_] [] _ _ rfl ?_ ?_ ⟨rfl, rfl⟩) .nil)
    · exact .inr ⟨by decide, by decide⟩
    · decide
  have htext : readReport 8 failedSetUpOutput.stdout.toList = .ok (.obj failedSetUp) := by
    rw [failedSetUpOutput, Json.line, String.toList_ofList]
    decide +kernel
  have hrun := @ofOutput_of_covers 8 {} ownedFacts [] [] _ _ _ failedSetUpOutput (.refl _) hcovers
    htext (.inr ⟨rfl, _, List.mem_singleton_self _, rfl⟩)
  exact ⟨.refl _, hcovers, htext, hrun⟩

/-- There is no room for one list more than there is room for. -/
lemma readValue_brackets {named : List Nat → String} {room fuel : Nat} (hfuel : 2 * room < fuel)
    (rest : List Char) :
    Json.readValue named fuel room ('[' :: (List.replicate room '[' ++ rest)) =
      .error .tooDeep := by
  induction room generalizing fuel with
  | zero =>
    obtain ⟨fuel, rfl⟩ := Nat.exists_eq_add_one.mpr hfuel
    rfl
  | succ room ih =>
    obtain ⟨fuel, rfl⟩ : ∃ k, fuel = k + 2 := ⟨fuel - 2, by omega⟩
    have hgap : Json.skipGap ('[' :: (List.replicate room '[' ++ rest)) =
        '[' :: (List.replicate room '[' ++ rest) := rfl
    simp only [List.replicate_succ, List.cons_append, Json.readValue, hgap]
    split
    next hclosed => cases hclosed
    next =>
      rw [Json.readItems, ih (by omega)]
      rfl

/-- Nor is there as the first member of an object. -/
lemma readValue_memberBrackets {named : List Nat → String} {room fuel : Nat}
    (hfuel : 2 * room < fuel) (key rest : List Char) :
    Json.readValue named fuel room ('{' :: (Json.quote Json.lineStyle key ++
      ':' :: ' ' :: '[' :: (List.replicate room '[' ++ rest))) = .error .tooDeep := by
  cases room with
  | zero =>
    obtain ⟨fuel, rfl⟩ := Nat.exists_eq_add_one.mpr hfuel
    rfl
  | succ room =>
    obtain ⟨fuel, rfl⟩ : ∃ k, fuel = k + 2 := ⟨fuel - 2, by omega⟩
    have hname := Json.readText_quoted Json.escapesControls_lineStyle key
      (':' :: ' ' :: '[' :: (List.replicate (room + 1) '[' ++ rest))
    have hcolon (tail : List Char) : Json.skipGap (':' :: tail) = ':' :: tail := rfl
    have hquote (tail : List Char) : Json.skipGap ('"' :: tail) = '"' :: tail := rfl
    have hvalue : Json.readValue named fuel room
        (Json.skipGap (' ' :: '[' :: (List.replicate (room + 1) '[' ++ rest))) =
          .error .tooDeep := by
      rw [List.replicate_succ', List.append_assoc]
      exact readValue_brackets (by omega) _
    simp only [Json.quote, List.cons_append, List.append_assoc, List.nil_append]
    generalize key.flatMap (Json.escapeChar Json.lineStyle) ++ _ = body at hname ⊢
    simp [Json.readValue, Json.readMembers, hname, hcolon, hquote, hvalue]

/-- A report on the only suite of a contract with an owner, behind another value. -/
def reportBehind (other : Json) : Json.Members :=
  [("Other", other), ("DynamicFakeOwnershipRenunciationTest", .obj [("test_results", .obj [
    ("invariant_ownership()", .obj [("status", .str "Success"), ("reason", .null)])])])]

/-- It covers the suite, whatever the other value is. -/
lemma covers_reportBehind (other : Json) :
    Covers (fun _ => ⟨.pass, none, none⟩) [.fakeOwnershipRenunciation] (reportBehind other) := by
  refine .other (by decide +kernel)
    (.suite (@Lists.intro _ _ _ [] [] _ _ rfl ?_ ?_ ⟨rfl, rfl⟩) .nil)
  · exact .inl (by decide)
  · decide

/-- With one list more than there is room for, it is not read. -/
lemma readReport_nestedLists (room : Nat) :
    readReport room (Json.line (.obj (reportBehind (Json.nestedLists room)))).toList =
      .error .tooDeep := by
  obtain ⟨rest, htext⟩ : ∃ rest, (Json.line (.obj (reportBehind (Json.nestedLists room)))).toList =
      '{' :: (Json.quote Json.lineStyle "Other".toList ++
        ':' :: ' ' :: '[' :: (List.replicate room '[' ++ rest)) := by
    simp only [Json.line, String.toList_ofList, reportBehind, Json.lineOf, Json.lineOfMembers,
      Json.lineOf_nestedLists, List.replicate_succ (n := room) (a := '['), List.cons_append,
      List.append_assoc]
    exact ⟨_, rfl⟩
  generalize (Json.line (.obj (reportBehind (Json.nestedLists room)))).toList = text at htext ⊢
  have hgap : Json.skipGap text = text := by rw [htext]; rfl
  have hfuel : 2 * room < 2 * text.length + 2 := by
    simp only [htext, List.length_cons, List.length_append, List.length_replicate]
    omega
  have hvalue := @readValue_memberBrackets Json.keptName room _ hfuel "Other".toList rest
  rw [← htext] at hvalue
  rw [readReport, Json.readWithin, hgap, hvalue]
  rfl

/-- A report on that suite with half of a UTF-16 pair as its reason. -/
def halfReport : Json.Members :=
  [("DynamicFakeOwnershipRenunciationTest", .obj [("test_results", .obj [
      ("invariant_ownership()",
        .obj [("status", .str "Failure"), ("reason", .garbled [0xD800])])])])]

/-- A report that covers the suites need not give results: whatever room there is, there is one
whose text is nested too deep, and there is one with an integer of too many digits.  Nor does a
suite whose reason has half of a UTF-16 pair in it. -/
theorem covering_report_without_results :
    (∀ other, Covers (fun _ => ⟨.pass, none, none⟩) (Suite.scenariosFor ownedFacts)
        (reportBehind other)) ∧
      (∀ room, SuiteRun.ofOutput room
        { stdout := Json.line (.obj (reportBehind (Json.nestedLists room))) }
        (Suite.scenariosFor ownedFacts) = .error (.broken .tooDeep)) ∧
      SuiteRun.ofOutput 8 { stdout := Json.line (.obj (reportBehind (Json.powerOfTen 4300))) }
        (Suite.scenariosFor ownedFacts) = .error (.broken (.oversized 4301)) ∧
      SuiteRun.ofOutput 8 { status := 1, stdout := Json.line (.obj halfReport) }
        (Suite.scenariosFor ownedFacts) = .error (.broken .reasonGarbled) := by
  refine ⟨covers_reportBehind, fun room => ?_, ?_, ?_⟩
  · simp only [SuiteRun.ofOutput, findReport, readReport_nestedLists]
    rfl
  · simp only [SuiteRun.ofOutput, Json.line, String.toList_ofList, reportBehind, Json.lineOf,
      Json.lineOfMembers, Json.lineOf_powerOfTen]
    decide +kernel
  · decide +kernel

end HoneypotAudit.Forge
