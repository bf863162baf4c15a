import HoneypotAudit.Analysis.Run
import HoneypotAudit.Proofs.Analysis.Preparation
import HoneypotAudit.Proofs.Forge.Execution
import HoneypotAudit.Proofs.Forge.Suites

/-!
# Reports of analyses

A report agrees with what the analysis did (`report_consistent`): results are there exactly for
contracts that were tested, a report of a test stands behind a call that ran the tests to their
end, and a contract that was not tested never counts as safe.

The proof follows the analysis.  What a preparation calls is known from `ends_prepare` and what a
test run calls from `ends_run_ok`; everything in between is quiet.
-/

namespace HoneypotAudit.Analysis

open HoneypotAudit.Session HoneypotAudit.Solidity HoneypotAudit.Outcome HoneypotAudit.Steps

variable {a : Analyzer} {t : Task} {s s' : Session}

/-! ## Reports that are begun -/

lemma idles_note (level : Int) (message : String) (attributes : Json.Members) :
    Moves Idles (note level message attributes) :=
  idles_log _

lemma quiet_note (level : Int) (message : String) (attributes : Json.Members) :
    Quiet (note level message attributes) :=
  .of_idles (idles_note level message attributes)

lemma idles_elapsed (start : Number.Binary64) : Moves Idles (elapsed start) :=
  Moves.bind idles_readAnalysisClock fun _ => moves_pure _

lemma quiet_elapsed (start : Number.Binary64) : Quiet (elapsed start) :=
  .of_idles (idles_elapsed start)

lemma reportedBlock_eq_good {block : Option Forge.Block} {named : Option Int}
    (h : reportedBlock block = .good named) : block = named.map .number := by
  match block with
  | none => cases h; rfl
  | some (.number n) => cases h; rfl
  | some .unnamed => cases h

/-- A report begins with its status, without results and without an error, and names the block. -/
lemma blank_eq_ok {seconds : Number.Binary64} {status : ReportStatus} {r : Report}
    (h : (a.blank t seconds status).toExcept = .ok r) :
    r.status = status ∧ r.results = [] ∧ r.error = "" ∧ a.blockFor t = r.block.map .number := by
  rw [Analyzer.blank] at h
  cases hblock : reportedBlock (a.blockFor t) <;>
    cases htransaction : reportedTransaction t.transaction <;>
    simp only [hblock, htransaction, Validation.Checked.map, Validation.Checked.ap,
      Validation.Checked.toExcept, Except.ok.injEq, reduceCtorEq] at h
  subst h
  exact ⟨rfl, rfl, rfl, reportedBlock_eq_good hblock⟩

lemma ends_startReport_ok {start : Number.Binary64} {status : ReportStatus} {r : Report}
    (h : Ends (startReport a t start status) s (.ok r) s') :
    Makes [] s s' ∧ r.status = status ∧ r.results = [] := by
  obtain ⟨seconds, s₁, helapsed, h⟩ := ends_bind_ok_iff.mp h
  have hquiet := (quiet_elapsed start).makes_of_lift helapsed
  cases hblank : (a.blank t seconds status).toExcept with
  | ok report =>
    rw [hblank] at h
    obtain ⟨hr, rfl⟩ := ends_pure_iff.mp h
    obtain rfl := Except.ok.inj hr
    obtain ⟨hstatus, hresults, -⟩ := blank_eq_ok hblank
    exact ⟨hquiet, hstatus, hresults⟩
  | error issues =>
    rw [hblank] at h
    cases (ends_throw_iff.mp h).1

/-- What a report says beside its results: it names the block that the task or else the analyzer
asks for, and a tested contract has no error. -/
structure Headed (a : Analyzer) (t : Task) (r : Report) : Prop where
  block : a.blockFor t = r.block.map .number
  error : r.status = .tested → r.error = ""

lemma gives_startReport (start : Number.Binary64) (status : ReportStatus) :
    Gives (fun r => r.status = status ∧ r.error = "" ∧ a.blockFor t = r.block.map .number)
      (startReport a t start status) := by
  refine gives_bind fun seconds => ?_
  cases hblank : (a.blank t seconds status).toExcept with
  | ok report =>
    obtain ⟨hstatus, -, hrest⟩ := blank_eq_ok hblank
    exact gives_pure ⟨hstatus, hrest⟩
  | error issues => exact gives_throw _

/-- A report that is begun with a status and goes on with what leaves the status alone. -/
lemma gives_report {start : Number.Binary64} {status : ReportStatus} {f : Report → Report}
    (hstatus : ∀ r, (f r).status = r.status) (hblock : ∀ r, (f r).block = r.block)
    (herror : status = .tested → ∀ r, (f r).error = r.error) :
    Gives (Headed a t) (startReport a t start status >>= fun r => pure (f r)) := by
  refine Gives.bind (gives_startReport start status) fun r ⟨hr, hempty, hnamed⟩ => ?_
  refine gives_pure ⟨by rw [hblock, hnamed], fun htested => ?_⟩
  rw [hstatus, hr] at htested
  rw [herror htested, hempty]

lemma gives_test (start : Number.Binary64) (p : Prepared) :
    Gives (Headed a t) (test a t start p) := by
  refine gives_bind fun result => ?_
  cases result with
  | error cause => exact gives_report (fun _ => rfl) (fun _ => rfl) (nomatch ·)
  | ok run =>
    refine Gives.bind (gives_startReport start .tested) fun r ⟨hr, hempty, hnamed⟩ => ?_
    exact gives_bind fun _ => gives_pure ⟨hnamed, fun _ => hempty⟩

/-- **Every report of an analysis is headed as the task says.** -/
theorem gives_analyze (a : Analyzer) (t : Task) : Gives (Headed a t) (analyze a t) := by
  refine gives_bind fun start => gives_bind fun outcome => ?_
  match outcome with
  | .error (.broken b) => exact gives_throw _
  | .error (.rejected cause) =>
    exact gives_bind fun _ => gives_report (fun _ => rfl) (fun _ => rfl) (nomatch ·)
  | .ok p =>
    dsimp only
    split
    · exact gives_test start p
    · exact gives_bind fun _ => gives_report (fun _ => rfl) (fun _ => rfl) (nomatch ·)

/-! ## What an analysis does whatever it comes to -/

/-- What an execution does behind the run of the suites. -/
def finish {α : Type} (outcome : Except Breakdown α) : Action Breakdown α := do
  modify fun s => { s with subject := none }
  match outcome with
  | .ok r => pure r
  | .error b => throw b

lemma idles_subject (subject : Option (String × String)) :
    Moves Idles (modify fun s => { s with subject } : Action Breakdown PUnit).run :=
  fun _ => ⟨rfl, rfl, rfl, rfl, rfl, rfl, rfl⟩

lemma idles_finish {α : Type} (outcome : Except Breakdown α) :
    Moves Idles (finish outcome).run := by
  refine Moves.run_bind (idles_subject none) fun _ => ?_
  cases outcome with
  | ok r => exact moves_run_pure r
  | error b => exact moves_run_throw b

lemma idles_startReport (start : Number.Binary64) (status : ReportStatus) :
    Moves Idles (startReport a t start status).run := by
  refine Moves.run_bind (Moves.run_lift (idles_elapsed start)) fun seconds => ?_
  split
  · exact moves_run_pure _
  · exact moves_run_throw _

/-- What is run for a contract that was made ready. -/
def Analyzer.request (a : Analyzer) (t : Task) (p : Prepared) : Forge.Request where
  code := p.code
  scenarios := p.scenarios
  forkUrl := a.urlFor t
  block := a.blockFor t

section Moves

variable {R : Session → Session → Prop} [IsPreorder Session R]
  (hidle : ∀ s s', Idles s s' → R s s')

include hidle

/-- An execution does what the run of the suites does. -/
lemma moves_execute {p : Prepared}
    (hrun : Moves R (Forge.run a.execution (a.request t p)).run) :
    Moves R (execute a t p).run := by
  have hfinish (result : Except Breakdown (Except Forge.ExecutionFault Forge.SuiteRun)) :
      Moves R (pure result >>= finish).run :=
    Moves.run_bind (moves_run_pure result) fun result => (idles_finish result).mono hidle
  refine Moves.run_bind ((idles_subject _).mono hidle) fun _ => ?_
  refine Moves.run_bind (Moves.run_lift ((idles_note _ _ _).mono hidle)) fun _ => ?_
  refine Moves.run_bind (Moves.run_lift hrun) fun outcome => ?_
  match outcome with
  | .ok run => exact hfinish (.ok (.ok run))
  | .error (.broken b) => exact hfinish (.error b)
  | .error (.failed cause) =>
    refine Moves.run_bind (Moves.run_lift ((idles_note _ _ _).mono hidle)) fun _ => ?_
    exact hfinish (.ok (.error cause))

/-- **An analysis does what its preparation and its test run do**; all else in it idles. -/
lemma moves_analyze (hprepare : Moves R (prepare a.preparing t.source t.arguments).run)
    (hrun : ∀ p, Moves R (Forge.run a.execution (a.request t p)).run) :
    Moves R (analyze a t).run := by
  have hreport (start : Number.Binary64) (status : ReportStatus) (f : Report → Report) :
      Moves R (startReport a t start status >>= fun report => pure (f report)).run :=
    Moves.run_bind ((idles_startReport start status).mono hidle) fun _ => moves_run_pure _
  have hnoted {α : Type} {level : Int} {message : String} {attributes : Json.Members}
      {next : Action Breakdown α} (hnext : Moves R next.run) :
      Moves R (note level message attributes >>= fun _ => next : Action Breakdown α).run :=
    Moves.run_bind (Moves.run_lift ((idles_note _ _ _).mono hidle)) fun _ => hnext
  refine Moves.run_bind (Moves.run_lift (idles_readAnalysisClock.mono hidle)) fun start => ?_
  refine Moves.run_bind (Moves.run_lift hprepare) fun outcome => ?_
  match outcome with
  | .error (.broken b) => exact moves_run_throw _
  | .error (.rejected cause) => exact hnoted (hreport _ _ _)
  | .ok p =>
    dsimp only
    split
    · refine Moves.run_bind (moves_execute hidle (hrun p)) fun result => ?_
      cases result with
      | error cause => exact hreport _ _ _
      | ok run =>
        refine Moves.run_bind ((idles_startReport start _).mono hidle) fun report => ?_
        exact hnoted (moves_run_pure _)
    · exact hnoted (hreport _ _ _)

end Moves

/-! ## Test runs -/

lemma ends_finish_ok {α : Type} {outcome : Except Breakdown α} {result : α}
    (h : Ends (finish outcome) s (.ok result) s') : Makes [] s s' ∧ outcome = .ok result := by
  obtain ⟨_, s₁, hsubject, h⟩ := ends_bind_ok_iff.mp h
  obtain ⟨-, rfl⟩ := ends_modify_iff.mp hsubject
  cases outcome with
  | ok r =>
    obtain ⟨hr, rfl⟩ := ends_pure_iff.mp h
    exact ⟨.none rfl rfl, hr.symm⟩
  | error b => cases (ends_throw_iff.mp h).1

lemma ends_pure_finish_ok {α : Type} {outcome : Except Breakdown α} {result : α}
    (h : Ends (pure outcome >>= finish) s (.ok result) s') :
    Makes [] s s' ∧ outcome = .ok result := by
  obtain ⟨_, s₁, hpure, h⟩ := ends_bind_ok_iff.mp h
  obtain ⟨hok, rfl⟩ := ends_pure_iff.mp hpure
  obtain rfl := Except.ok.inj hok
  exact ends_finish_ok h

/-- Executing the suites is running them: the records and the subject of the log beside it are no
calls. -/
lemma ends_execute_ok {p : Prepared} {result : Except Forge.ExecutionFault Forge.SuiteRun}
    (h : Ends (execute a t p) s (.ok result) s') :
    ∃ calls, Makes calls s s' ∧ (∀ c ∈ calls, c.command ≠ .format) ∧
      ∀ run, result = .ok run →
        Forge.Completes s.rooms.reported s.forge p.scenarios calls run := by
  obtain ⟨_, s₁, hsubject, h⟩ := ends_bind_ok_iff.mp h
  obtain ⟨-, rfl⟩ := ends_modify_iff.mp hsubject
  obtain ⟨_, s₂, hnote, h⟩ := ends_bind_ok_iff.mp h
  obtain ⟨outcome, s₃, hrun, h⟩ := ends_bind_ok_iff.mp h
  have hquiet := (quiet_note _ _ _).makes_of_lift hnote
  have hbefore : Makes [] s s₂ := .none (by simpa using hquiet.trace) hquiet.script
  have hscript : s₂.forge = s.forge := hbefore.script
  have hrooms := Calls.rooms_eq (Calls.run_lift (quiet_note _ _ _)) hnote
  have hrun : Ends (Forge.run _ _) s₂ outcome s₃ := ends_lift_run_iff.mp hrun
  obtain ⟨calls, hcalls, hcommands⟩ := (Forge.calls_run _ _).exists_makes hrun
  have hmakes : Makes calls s s₃ := hbefore.trans hcalls
  -- with the last steps the session and the result are those of the run
  have hlast (hbehind : Makes [] s₃ s') : Makes calls s s' := by
    have hall := hmakes.trans hbehind
    rwa [List.append_nil] at hall
  match outcome with
  | .ok run =>
    have h : Ends (pure (.ok (.ok run)) >>= finish) s₃ (.ok result) s' := h
    obtain ⟨hbehind, hresult⟩ := ends_pure_finish_ok h
    obtain rfl := Except.ok.inj hresult
    refine ⟨calls, hlast hbehind, hcommands, fun run' hrun' => ?_⟩
    obtain rfl := Except.ok.inj hrun'
    obtain ⟨calls', hcalls', hcompletes⟩ := Forge.ends_run_ok hrun
    rw [hcalls.unique hcalls', ← hscript, ← hrooms]
    exact hcompletes
  | .error (.broken b) =>
    have h : Ends (pure (.error b) >>= finish) s₃ (.ok result) s' := h
    cases (ends_pure_finish_ok h).2
  | .error (.failed cause) =>
    obtain ⟨_, s₄, hlog, h⟩ := ends_bind_ok_iff.mp h
    have h : Ends (pure (.ok (.error cause)) >>= finish) s₄ (.ok result) s' := h
    obtain ⟨hbehind, hresult⟩ := ends_pure_finish_ok h
    obtain rfl := Except.ok.inj hresult
    have hbehind' : Makes [] s₃ s' := ((quiet_note _ _ _).makes_of_lift hlog).trans hbehind
    exact ⟨calls, hlast hbehind', hcommands, nofun⟩

/-- A report of a test run either stands behind a completed run, with its results, or says that the
run failed. -/
lemma ends_test_ok {start : Number.Binary64} {p : Prepared} {r : Report}
    (h : Ends (test a t start p) s (.ok r) s') :
    ∃ calls, Makes calls s s' ∧ (∀ c ∈ calls, c.command ≠ .format) ∧
      ((r.status = .executionFailed ∧ r.results = []) ∨
        r.status = .tested ∧
          ∃ run, Forge.Completes s.rooms.reported s.forge p.scenarios calls run ∧
          r.results = run.results.map (fun x => (x.scenario, x)) ∧
          r.metadata = runMetadata p run) := by
  obtain ⟨result, s₁, hexecute, h⟩ := ends_bind_ok_iff.mp h
  obtain ⟨calls, hcalls, hcommands, hcompletes⟩ := ends_execute_ok hexecute
  have hlast (hbehind : Makes [] s₁ s') : Makes calls s s' := by
    have hall := hcalls.trans hbehind
    rwa [List.append_nil] at hall
  cases result with
  | error cause =>
    obtain ⟨report, s₂, hreport, h⟩ := ends_bind_ok_iff.mp h
    obtain ⟨hquiet, hstatus, hresults⟩ := ends_startReport_ok hreport
    obtain ⟨hr, rfl⟩ := ends_pure_iff.mp h
    obtain rfl := Except.ok.inj hr
    exact ⟨calls, hlast hquiet, hcommands, .inl ⟨hstatus, hresults⟩⟩
  | ok run =>
    obtain ⟨report, s₂, hreport, h⟩ := ends_bind_ok_iff.mp h
    obtain ⟨hquiet, hstatus, -⟩ := ends_startReport_ok hreport
    obtain ⟨_, s₃, hnote, h⟩ := ends_bind_ok_iff.mp h
    obtain ⟨hr, rfl⟩ := ends_pure_iff.mp h
    obtain rfl := Except.ok.inj hr
    have hbehind : Makes [] s₁ s' := hquiet.trans ((quiet_note _ _ _).makes_of_lift hnote)
    exact ⟨calls, hlast hbehind, hcommands,
      .inr ⟨hstatus, run, hcompletes run rfl, rfl, rfl⟩⟩

/-! ## Analyses -/

/-- The contract of an analysis was found: its facts were read and there is a place for the
injection, when the source had been formatted once. -/
def Finds (a : Analyzer) (t : Task) (s : Session) (facts : Facts) : Prop :=
  Found a.preparing t.source (readAnalysisClock.run s).2 facts

/-- What an analysis did that ends with a report. -/
inductive Analyzed (a : Analyzer) (t : Task) (s : Session) (r : Report) : List Forge.Call → Prop
  | unread (parseFailed : r.status = .parseFailed) (empty : r.results = []) :
      Analyzed a t s r [a.preparing.formatter.call]
  | untested {facts : Facts} (finds : Finds a t s facts)
      (untested : r.status = .parseFailed ∨ r.status = .notApplicable) (empty : r.results = []) :
      Analyzed a t s r [a.preparing.formatter.call, a.preparing.formatter.call]
  | stopped {facts : Facts} {calls : List Forge.Call} (finds : Finds a t s facts)
      (runs : ∀ c ∈ calls, c.command ≠ .format) (failed : r.status = .executionFailed)
      (empty : r.results = []) :
      Analyzed a t s r ([a.preparing.formatter.call, a.preparing.formatter.call] ++ calls)
  | tested {facts : Facts} {calls : List Forge.Call} {run : Forge.SuiteRun}
      (finds : Finds a t s facts) (runs : ∀ c ∈ calls, c.command ≠ .format)
      (applicable : facts.isApplicable = true) (tested : r.status = .tested)
      (completes : Forge.Completes s.rooms.reported
        (s.forge.behind [a.preparing.formatter.call, a.preparing.formatter.call])
        (Suite.scenariosFor facts) calls run)
      (results : r.results = run.results.map fun x => (x.scenario, x))
      (count : Json.find? "suite_count" r.metadata =
        some (.int (Suite.scenariosFor facts).length)) :
      Analyzed a t s r ([a.preparing.formatter.call, a.preparing.formatter.call] ++ calls)

/-- A report that is not about a test run: a note and the report. -/
lemma ends_notedReport_ok {start : Number.Binary64} {level : Int} {message : String}
    {status : ReportStatus} {f : Report → Report} {r : Report}
    (h : Ends (do
      note level message []
      let report ← startReport a t start status
      pure (f report) : Action Breakdown Report) s (.ok r) s') :
    Makes [] s s' ∧ ∃ report, r = f report ∧ report.status = status ∧ report.results = [] := by
  obtain ⟨_, s₁, hnote, h⟩ := ends_bind_ok_iff.mp h
  obtain ⟨report, s₂, hreport, h⟩ := ends_bind_ok_iff.mp h
  obtain ⟨hquiet, hstatus, hresults⟩ := ends_startReport_ok hreport
  obtain ⟨hr, rfl⟩ := ends_pure_iff.mp h
  exact ⟨((quiet_note _ _ _).makes_of_lift hnote).trans hquiet, report, Except.ok.inj hr,
    hstatus, hresults⟩

lemma ends_analyze_ok {r : Report} (h : Ends (analyze a t) s (.ok r) s') :
    ∃ calls, Makes calls s s' ∧ Analyzed a t s r calls := by
  obtain ⟨start, s₁, hstart, h⟩ := ends_bind_ok_iff.mp h
  have hclock : Makes [] s s₁ := quiet_readAnalysisClock.makes_of_lift hstart
  obtain ⟨-, rfl⟩ := ends_lift_iff.mp hstart
  obtain ⟨outcome, s₂, hprepare, h⟩ := ends_bind_ok_iff.mp h
  have hprepares := ends_lift_run_iff.mp hprepare
  have hrooms := (calls_prepare _ _ _).rooms_eq hprepares
  have hprepare := ends_prepare hprepares
  match outcome with
  | .error (.broken b) => cases (ends_throw_iff.mp h).1
  | .error (.rejected cause) =>
    obtain ⟨hquiet, report, rfl, hstatus, hresults⟩ := ends_notedReport_ok h
    rcases hprepare with ⟨hmakes, -⟩ | ⟨facts, hfound, hmakes, -⟩
    · exact ⟨_, (hclock.trans hmakes).trans hquiet, .unread hstatus hresults⟩
    · exact ⟨_, (hclock.trans hmakes).trans hquiet, .untested hfound (.inl hstatus) hresults⟩
  | .ok p =>
    rcases hprepare with ⟨-, e, he⟩ | ⟨facts, hfound, hmakes, hresult⟩
    · cases he
    obtain ⟨hfacts, hscenarios⟩ := hresult p rfl
    have hcount : p.suites.length = (Suite.scenariosFor facts).length := by
      rw [← hscenarios, Prepared.scenarios, List.length_map]
    dsimp only at h
    split at h
    next happlicable =>
      obtain ⟨calls, hcalls, hruns, hreport⟩ := ends_test_ok h
      have hall := (hclock.trans hmakes).trans hcalls
      rcases hreport with ⟨hstatus, hresults⟩ | ⟨hstatus, run, hcompletes, hresults, hmetadata⟩
      · exact ⟨_, hall, .stopped hfound hruns hstatus hresults⟩
      · rw [(hclock.trans hmakes).script, hrooms, hscenarios] at hcompletes
        refine ⟨_, hall, .tested hfound hruns (hfacts ▸ happlicable) hstatus hcompletes hresults ?_⟩
        rw [hmetadata, ← hcount]
        rfl
    next =>
      obtain ⟨hquiet, report, rfl, hstatus, hresults⟩ := ends_notedReport_ok h
      exact ⟨_, (hclock.trans hmakes).trans hquiet, .untested hfound (.inr hstatus) hresults⟩

lemma isSafe_iff {r : Report} : r.isSafe = true ↔
    r.status = .tested ∧ r.results ≠ [] ∧ ∀ x ∈ r.results, x.2.verdict ≠ .fail := by
  have hfailed : r.failed = [] ↔ ∀ x ∈ r.results, x.2.verdict ≠ .fail := by
    simp [Report.failed, List.filter_eq_nil_iff]
  rw [Report.isSafe, Report.isTested]
  simp only [Bool.and_eq_true, decide_eq_true_eq, Bool.not_eq_true', List.isEmpty_iff,
    List.isEmpty_eq_false_iff, hfailed, and_assoc, ne_eq]

/-- The scenarios of a contract are distinct. -/
lemma eraseDups_scenariosFor (facts : Facts) :
    (Suite.scenariosFor facts).eraseDups = Suite.scenariosFor facts := by
  rw [Suite.scenariosFor]
  cases facts.isToken <;> cases facts.isOwnable <;> decide

lemma scenariosFor_ne_nil {facts : Facts} (h : facts.isApplicable = true) :
    Suite.scenariosFor facts ≠ [] := by
  rw [Facts.isApplicable] at h
  rw [Suite.scenariosFor]
  revert h
  cases facts.isToken <;> cases facts.isOwnable <;> decide

/-- The results of a tested contract are read off what the last call of the tool left behind. -/
lemma Analyzed.of_tested {r : Report} {calls : List Forge.Call} (h : Analyzed a t s r calls)
    (htested : r.status = .tested) :
    ∃ facts before call output run, Finds a t s facts ∧ facts.isApplicable = true ∧
      calls = before ++ [call] ∧ call.command = .test ∧
      ((s.forge.behind before).next .test).1.outcome "" = .finished output ∧
      Forge.SuiteRun.ofOutput s.rooms.reported output (Suite.scenariosFor facts) = .ok run ∧
      r.results = run.results.map (fun x => (x.scenario, x)) ∧
      Json.find? "suite_count" r.metadata = some (.int (Suite.scenariosFor facts).length) := by
  cases h with
  | unread hstatus => cases hstatus.symm.trans htested
  | untested _ hstatus => rcases hstatus with hstatus | hstatus <;> cases hstatus.symm.trans htested
  | stopped _ _ hstatus => cases hstatus.symm.trans htested
  | tested hfinds _ happlicable _ hcompletes hresults hcount =>
    obtain ⟨htest, hfinished, hparsed, hsame, -⟩ := hcompletes
    rw [← Forge.Script.behind_append] at hfinished
    exact ⟨_, _, _, _, _, hfinds, happlicable, (List.append_assoc ..).symm, htest, hfinished,
      hparsed, hsame ▸ hresults, hcount⟩

/-- The results of a run by scenario. -/
lemma keys_of_ofOutput {room : Nat} {output : Forge.Output} {facts : Facts}
    {run : Forge.SuiteRun}
    (h : Forge.SuiteRun.ofOutput room output (Suite.scenariosFor facts) = .ok run) :
    (run.results.map fun x => (x.scenario, x)).map (·.1) = Suite.scenariosFor facts := by
  have hscenarios := Forge.scenarios_of_ofOutput h
  rw [eraseDups_scenariosFor] at hscenarios
  rw [List.map_map]
  exact hscenarios

/-- A tested contract has results, as some scenario applies to it. -/
lemma results_ne_nil {room : Nat} {facts : Facts} {output : Forge.Output} {run : Forge.SuiteRun}
    {r : Report} (happlicable : facts.isApplicable = true)
    (hrun : Forge.SuiteRun.ofOutput room output (Suite.scenariosFor facts) = .ok run)
    (hresults : r.results = run.results.map fun x => (x.scenario, x)) : r.results ≠ [] := by
  intro hempty
  have hkeys := keys_of_ofOutput hrun
  rw [← hresults, hempty] at hkeys
  exact scenariosFor_ne_nil happlicable hkeys.symm

/-- What is known of the results of a report. -/
lemma results_of_analyze (h : Ends (analyze a t) s (.ok r) s') :
    (r.status ≠ .tested → r.results = []) ∧
      (r.status = .tested → ∃ facts, Analysis.Finds a t s facts ∧
        Suite.scenariosFor facts ≠ [] ∧ r.results.map (·.1) = Suite.scenariosFor facts) := by
  obtain ⟨calls, -, hanalyzed⟩ := ends_analyze_ok h
  refine ⟨fun huntested => ?_, fun htested => ?_⟩
  · cases hanalyzed with
    | unread _ hempty => exact hempty
    | untested _ _ hempty => exact hempty
    | stopped _ _ _ hempty => exact hempty
    | tested _ _ _ htested => exact absurd htested huntested
  · obtain ⟨facts, _, _, _, run, hfinds, happlicable, -, -, -, hrun, hresults, -⟩ :=
      hanalyzed.of_tested htested
    exact ⟨facts, hfinds, scenariosFor_ne_nil happlicable, hresults ▸ keys_of_ofOutput hrun⟩

lemma results_ne_nil_of_tested (h : Ends (analyze a t) s (.ok r) s')
    (htested : r.status = .tested) :
    r.results ≠ [] := by
  obtain ⟨facts, -, hsome, hkeys⟩ := (results_of_analyze h).2 htested
  rintro hempty
  rw [hempty] at hkeys
  exact hsome hkeys.symm

/-- **A report agrees with what the analysis did.**

* A tested contract has results for exactly the scenarios that apply to it, in their order, and
  their number is that of the suites; the last call of the tool ran the tests and ended with 0 or 1.
* Every other report has no results.
* Without a test run nothing is called but the formatter, and the formatter is called a second time
  only when the facts and a place for the injection were found after the first call.
* A contract is safe exactly if it was tested and no result is a failure. -/
theorem report_consistent {r : Report} (h : Ends (analyze a t) s (.ok r) s') :
    ∃ calls, Makes calls s s' ∧
      (r.status = .tested →
        ∃ facts, Finds a t s facts ∧ r.results.map (·.1) = Suite.scenariosFor facts ∧
          Json.find? "suite_count" r.metadata = some (.int (Suite.scenariosFor facts).length) ∧
          ∃ before call output, calls = before ++ [call] ∧ call.command = .test ∧
            ((s.forge.behind before).next .test).1.outcome "" = .finished output ∧
            (output.status = 0 ∨ output.status = 1)) ∧
      (r.status ≠ .tested → r.results = []) ∧
      (r.status = .parseFailed ∨ r.status = .notApplicable → ∀ c ∈ calls, c.command = .format) ∧
      (2 ≤ calls.countP (·.command = .format) → ∃ facts, Finds a t s facts) ∧
      (r.isSafe = true ↔ r.status = .tested ∧ ∀ x ∈ r.results, x.2.verdict ≠ .fail) := by
  obtain ⟨calls, hcalls, hanalyzed⟩ := ends_analyze_ok h
  have hformat : a.preparing.formatter.call.command = .format := rfl
  refine ⟨calls, hcalls, ?_, ?_, ?_, ?_, ?_⟩
  · intro htested
    obtain ⟨facts, before, call, output, run, hfinds, -, hlast, htest, hfinished, hrun, hresults,
      hcount⟩ := hanalyzed.of_tested htested
    exact ⟨facts, hfinds, hresults ▸ keys_of_ofOutput hrun, hcount, before, call, output, hlast,
      htest, hfinished, (Forge.status_of_ofOutput hrun).2⟩
  · intro huntested
    cases hanalyzed with
    | unread _ hempty => exact hempty
    | untested _ _ hempty => exact hempty
    | stopped _ _ _ hempty => exact hempty
    | tested _ _ _ htested => exact absurd htested huntested
  · intro hstatus
    cases hanalyzed with
    | unread => simp [hformat]
    | untested => simp [hformat]
    | stopped _ _ hstopped => simp [hstopped] at hstatus
    | tested _ _ _ htested => simp [htested] at hstatus
  · intro htwice
    cases hanalyzed with
    | unread => simp [hformat] at htwice
    | untested hfinds => exact ⟨_, hfinds⟩
    | stopped hfinds => exact ⟨_, hfinds⟩
    | tested hfinds => exact ⟨_, hfinds⟩
  · have hsome (htested : r.status = .tested) : r.results ≠ [] := by
      obtain ⟨facts, _, _, _, run, -, happlicable, -, -, -, hrun, hresults, -⟩ :=
        hanalyzed.of_tested htested
      exact results_ne_nil happlicable hrun hresults
    rw [isSafe_iff]
    constructor
    · rintro ⟨htested, -, hall⟩
      exact ⟨htested, hall⟩
    · rintro ⟨htested, hall⟩
      exact ⟨htested, hsome htested, hall⟩

/-- A function without a body. -/
def bareFunction (name : String) : Json :=
  .obj [("nodeType", .str "FunctionDefinition"), ("name", .str name), ("src", .str "0:1:0")]

/-- The tree of a contract with an owner and nothing else. -/
def ownedTree : Json :=
  .obj [("nodeType", .str "SourceUnit"), ("nodes", .arr [.obj [
    ("nodeType", .str "ContractDefinition"), ("id", .int 1), ("name", .str "C"),
    ("src", .str "0:13:0"),
    ("nodes", .arr [bareFunction "owner", bareFunction "transferOwnership"])]])]

/-- An analysis of that contract. -/
def ownedTask : Task :=
  { source := "contract C \x7b\x7d" }

/-- A session in which its only invariant holds. -/
def ownedSession : Session where
  rooms := .same 8
  compiler := { output := .obj [("sources", .obj [("Contract.sol", .obj [("ast", ownedTree)])])] }
  forge := { testing := [.finished 0 (some ("\x7b\"DynamicFakeOwnershipRenunciationTest\": " ++
    "\x7b\"test_results\": \x7b\"invariant_ownership()\": " ++
    "\x7b\"status\": \"Success\"\x7d\x7d\x7d\x7d")) ""] }

lemma exists_owned_report :
    ∃ r s', Ends (analyze {} ownedTask) ownedSession (.ok r) s' ∧ r.status = .tested := by
  have hrun : (match ((analyze {} ownedTask).run.run ownedSession).1 with
      | .ok r => r.isTested
      | .error _ => false) = true := by
    decide +kernel
  split at hrun
  next r hr => exact ⟨r, _, Prod.ext hr rfl, of_decide_eq_true hrun⟩
  next => cases hrun

theorem report_consistent_owned :
    ∃ r s' calls facts, Ends (analyze {} ownedTask) ownedSession (.ok r) s' ∧
      Makes calls ownedSession s' ∧ r.status = .tested ∧ Finds {} ownedTask ownedSession facts ∧
      r.results.map (·.1) = Suite.scenariosFor facts := by
  obtain ⟨r, s', hends, hstatus⟩ := exists_owned_report
  obtain ⟨calls, hcalls, htested, -⟩ := report_consistent hends
  obtain ⟨facts, hfinds, hkeys, -⟩ := htested hstatus
  exact ⟨r, s', calls, facts, hends, hcalls, hstatus, hfinds, hkeys⟩

end HoneypotAudit.Analysis
