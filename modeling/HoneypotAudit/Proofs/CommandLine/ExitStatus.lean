import HoneypotAudit.Proofs.Analysis.CleanUp
import HoneypotAudit.Proofs.CommandLine.Runs
import HoneypotAudit.Proofs.Report.Table

/-!
# Exit status of the analysis command

The status of a run that analyses a source can be trusted (`exit_status_of_analysis`): it is zero
exactly if the report clears the contract (`Clears`), the table of a contract that was tested ends
with the line that says so exactly then, and no temporary directory stays behind, not even if the
run crashes.

The table of a contract that was not tested can be trusted only if no text in it has a line feed:
what the formatter complains of is printed as it is (`safeLine_printed_for_complaint`).
-/

namespace HoneypotAudit.CommandLine

open HoneypotAudit.Session HoneypotAudit.Steps HoneypotAudit.Text

variable {c c' : Console}

/-! ## Reports that clear -/

/-- A report clears a contract: nothing applied to it, or the tests gave a result for every scenario
that applies, at least for one, and none of them failed. -/
def Clears (a : Analysis.Analyzer) (t : Analysis.Task) (s : Session) (r : Report) : Prop :=
  r.status = .notApplicable ∨
    r.status = .tested ∧
      (∃ facts, Analysis.Finds a t s facts ∧ Suite.scenariosFor facts ≠ [] ∧
        r.results.map (·.1) = Suite.scenariosFor facts) ∧
      ∀ x ∈ r.results, x.2.verdict ≠ .fail

variable {a : Analysis.Analyzer} {t : Analysis.Task} {s s' : Session} {r : Report}

/-- The status of the run is zero exactly for reports that clear. -/
lemma statusOf_eq_zero_iff (h : Ends (Analysis.analyze a t) s (.ok r) s') :
    statusOf r = 0 ↔ Clears a t s r := by
  have hstatus : statusOf r = 0 ↔ r.status = .notApplicable ∨ r.isSafe = true := by
    rw [statusOf]
    split <;> simp_all [success, failure]
  rw [hstatus, Analysis.isSafe_iff, Clears]
  refine or_congr_right ?_
  constructor
  · rintro ⟨htested, -, hpass⟩
    exact ⟨htested, (Analysis.results_of_analyze h).2 htested, hpass⟩
  · rintro ⟨htested, -, hpass⟩
    exact ⟨htested, Analysis.results_ne_nil_of_tested h htested, hpass⟩

lemma statusOf_eq_zero_iff_isSafe (htested : r.status = .tested) :
    statusOf r = 0 ↔ r.isSafe = true := by
  simp [statusOf, htested, success, failure]

/-- The last line of the table of a tested contract says that nothing was found exactly for the
status zero. -/
lemma getLast?_of_tested (quiet : Bool) (h : Ends (Analysis.analyze a t) s (.ok r) s')
    (htested : r.status = .tested) :
    (printedLines (r.table quiet).toList).getLast? = some Report.safeLine.toList ↔
      statusOf r = 0 := by
  rw [Report.getLast?_printedLines_table quiet (Analysis.results_ne_nil_of_tested h htested)
      ((Analysis.gives_analyze a t h).error htested),
    Option.some_inj, String.toList_inj, Report.lastLine_eq_safeLine_iff,
    statusOf_eq_zero_iff_isSafe htested]

/-- If every text of the report is one line, a line of the table says that nothing was found exactly
for tested contracts with the status zero. -/
lemma safeLine_of_analyze (quiet : Bool) (h : Ends (Analysis.analyze a t) s (.ok r) s')
    (hlines : r.IsOneLined) :
    Report.safeLine.toList ∈ printedLines (r.table quiet).toList ↔
      r.status = .tested ∧ statusOf r = 0 := by
  have herror := (Analysis.gives_analyze a t h).error
  have hmem : Report.safeLine.toList ∈ printedLines (r.table quiet).toList ↔
      Report.safeLine ∈ r.tableLines quiet := by
    rw [Report.printedLines_table hlines]
    exact List.mem_map_of_injective fun _ _ => String.toList_inj.mp
  rw [hmem]
  by_cases htested : r.status = .tested
  · rw [Report.safeLine_mem_iff quiet (Analysis.results_ne_nil_of_tested h htested)
      (herror htested), statusOf_eq_zero_iff_isSafe htested, and_iff_right htested]
  · exact iff_of_false
      (Report.safeLine_not_mem quiet ((Analysis.results_of_analyze h).1 htested) herror)
      fun hboth => htested hboth.1

/-! ## Showing -/

/-- From one console to another no directory was made. -/
structure MakesNoDirectory (c c' : Console) : Prop where
  temporaries : c'.session.temporaries = c.session.temporaries
  directory : ∀ place, c'.session.files.get? place = some .directory →
    c.session.files.get? place = some .directory

instance : IsPreorder Console MakesNoDirectory where
  refl _ := ⟨rfl, fun _ h => h⟩
  trans _ _ _ h h' :=
    ⟨h'.temporaries.trans h.temporaries,
      fun place hplace => h.directory place (h'.directory place hplace)⟩

lemma makesNoDirectory_writeText (p : Files.Path) (text : String) :
    Leads MakesNoDirectory (Console.writeText p text).run := by
  refine Leads.run_bind (fun c => ?_) fun outcome => ?_
  · have hwrites : Moves (fun s s' => s'.temporaries = s.temporaries ∧
        ∀ place, s'.files.get? place = some .directory → s.files.get? place = some .directory)
        (Session.writeText p text.toList).run :=
      moves_changeFiles fun s => ⟨rfl, fun _ => Files.Tree.get?_of_write⟩
    exact ⟨(hwrites c.session).1, (hwrites c.session).2⟩
  · split
    · exact leads_run_pure _
    · exact leads_run_throw _

/-- Showing a report makes no directory: it may write a file. -/
lemma makesNoDirectory_showReport (isQuiet : Bool) (o : AnalyzeOptions) (r : Report) :
    Leads MakesNoDirectory (showReport isQuiet o r).run := by
  have hprint (text : String) : Leads MakesNoDirectory (Console.print text).run :=
    fun _ => ⟨rfl, fun _ h => h⟩
  have hprintError (line : String) : Leads MakesNoDirectory (Console.printError line).run :=
    fun _ => ⟨rfl, fun _ h => h⟩
  rw [showReport]
  split
  · cases o.output with
    | none => exact hprint _
    | some path =>
      refine Leads.run_bind (makesNoDirectory_writeText _ _) fun _ => ?_
      split
      · exact hprintError _
      · exact leads_run_pure _
  · exact hprint _

/-- After an analysis, cleaning up, and whatever makes no directory, there is no temporary directory
that was made on the way. -/
lemma isDirectory_eq_false_of_cleanUp {result : Except Breakdown Report} {c₁ : Console}
    (hroot : c.session.files.isDirectory temporaryRoot.parts)
    (hends : Ends (Analysis.analyze a t) c.session result s)
    (hcleans : c₁.session = (Forge.cleanUp.run s).2) (hrest : MakesNoDirectory c₁ c') {n : Nat}
    {place : Files.Location} (hfirst : c.session.temporaries ≤ n)
    (hlt : n < c'.session.temporaries) (hbelow : (temporaryPath n).parts <+: place) :
    c'.session.files.isDirectory place = false := by
  have hholds : Analysis.HoldsOne c.session.temporaries c.session :=
    ⟨of_decide_eq_true hroot, .inl rfl⟩
  rw [hrest.temporaries, hcleans, Analysis.temporaries_after_cleanUp] at hlt
  have hnone := Analysis.get?_after_cleanUp (Analysis.keeps_analyze.of_ends hends hholds) hfirst
    hlt hbelow
  refine decide_eq_false fun hplace => ?_
  have hdirectory := hrest.directory place hplace
  rw [hcleans, hnone] at hdirectory
  cases hdirectory

/-! ## Runs -/

/-- **The exit status of an analysis can be trusted.**  Let a command line ask for an analysis, on a
system with a place for temporary directories.

* No temporary directory that was made stays behind, nor any directory below one, whichever way the
  run ends.
* If the run ends with a status, either nothing was analysed, for want of a source or a node, and
  the status is one; or the status is zero exactly if the report clears the contract.
* If the report is printed as a table and the contract was tested, the last line that is printed
  says that nothing was found exactly for the status zero.  If all that is shown of the report is
  one line each, that line is printed for no other report. -/
theorem exit_status_of_analysis {words : List String} {i : Invocation} {o : AnalyzeOptions}
    {outcome : Except Crash Int} (hwords : Invocation.ofWords words = .ok i)
    (hversion : i.showsVersion = false) (hcommand : i.command = some (.analyze o))
    (hroot : c.session.files.isDirectory temporaryRoot.parts) (h : Runs (run words) c outcome c') :
    (∀ n place, c.session.temporaries ≤ n → n < c'.session.temporaries →
      (temporaryPath n).parts <+: place → c'.session.files.isDirectory place = false) ∧
    ∀ code, outcome = .ok code →
      (code = 1 ∧ c'.session = c.session ∧ c'.stdout = c.stdout) ∨
      ∃ settings source r s, Reads o c settings source ∧
        Ends (Analysis.analyze settings.analyzer (o.task source)) c.session (.ok r) s ∧
        (code = 0 ↔ Clears settings.analyzer (o.task source) c.session r) ∧
        (o.form = .table → c'.stdout = c.stdout ++ r.table i.isQuiet ∧
          (r.status = .tested →
            ((printedLines (r.table i.isQuiet).toList).getLast? = some Report.safeLine.toList ↔
              code = 0)) ∧
          (r.IsOneLined →
            (Report.safeLine.toList ∈ printedLines (r.table i.isQuiet).toList ↔
              r.status = .tested ∧ code = 0))) := by
  have hkept (hstays : Murmurs c c') :
      ∀ n place, c.session.temporaries ≤ n → n < c'.session.temporaries →
        (temporaryPath n).parts <+: place → c'.session.files.isDirectory place = false := by
    intro n place hfirst hlt
    rw [hstays.session] at hlt
    omega
  cases analyzes_of_run hwords hversion hcommand h with
  | refuses hstays =>
    refine ⟨hkept hstays, fun code hcode => .inl ⟨?_, hstays.session, hstays.stdout⟩⟩
    exact (Except.ok.inj hcode).symm
  | fails hstays => exact ⟨hkept hstays, fun _ hcode => nomatch hcode⟩
  | breaks hreads hends hcleans =>
    refine ⟨fun n place => ?_, fun _ hcode => nomatch hcode⟩
    exact isDirectory_eq_false_of_cleanUp hroot hends hcleans (refl_of _ c')
  | @reports settings source r s c₁ shown hreads hends hcleans hsilent hshows =>
    have hrest := (makesNoDirectory_showReport _ _ _).of_runs hshows
    refine ⟨fun n place => isDirectory_eq_false_of_cleanUp hroot hends hcleans hrest,
      fun code hcode => ?_⟩
    cases shown with
    | error e => cases hcode
    | ok shown =>
      obtain rfl : statusOf r = code := Except.ok.inj hcode
      refine .inr ⟨settings, source, r, s, hreads, hends, statusOf_eq_zero_iff hends,
        fun hform => ?_⟩
      refine ⟨?_, getLast?_of_tested i.isQuiet hends, safeLine_of_analyze i.isQuiet hends⟩
      rw [showReport, hform] at hshows
      obtain ⟨-, rfl⟩ := runs_modify_iff.mp hshows
      rw [← hsilent]

/-- A command line that asks for the analysis of a contract with an owner. -/
def ownedWords : List String :=
  ["analyze", "C.sol", "--fork-url", "http://node"]

/-- What that command line asks for. -/
def ownedOptions : AnalyzeOptions :=
  { path := "C.sol", forkUrl := some "http://node" }

/-- A console with the source of the contract, whose only invariant holds. -/
def ownedConsole : Console where
  session := { Analysis.ownedSession with
    files := ⟨[(["tmp"], .directory),
      (["C.sol"], .file (Text.Utf8.encode "contract C \x7b\x7d".toList))]⟩ }

lemma ofWords_ownedWords :
    Invocation.ofWords ownedWords = .ok { command := some (.analyze ownedOptions) } := by
  decide +kernel

theorem exit_status_of_analysis_owned :
    ∃ c' source, ∃ settings : Settings, ∃ r : Report,
      Runs (run ownedWords) ownedConsole (.ok 0) c' ∧
      c'.session.temporaries = 1 ∧
      c'.session.files.isDirectory (temporaryPath 0).parts = false ∧
      Clears settings.analyzer (ownedOptions.task source) ownedConsole.session r ∧
      c'.stdout = r.table false ∧
      (r.status = .tested →
        (printedLines c'.stdout.toList).getLast? = some Report.safeLine.toList) := by
  have hrun : ((run ownedWords).run.run ownedConsole).1.toOption = some 0 ∧
      ((run ownedWords).run.run ownedConsole).2.session.temporaries = 1 := by
    decide +kernel
  generalize hends : (run ownedWords).run.run ownedConsole = ended at hrun
  obtain ⟨outcome, c'⟩ := ended
  obtain ⟨houtcome, hcount⟩ := hrun
  obtain rfl : outcome = .ok 0 := by
    cases outcome with
    | ok code => rw [Option.some.inj houtcome]
    | error cause => cases houtcome
  obtain ⟨hgone, hstatus⟩ :=
    exit_status_of_analysis ofWords_ownedWords rfl rfl (by decide) hends
  rcases hstatus 0 rfl with ⟨hone, -⟩ | ⟨settings, source, r, s, -, -, hclears, htable⟩
  · cases hone
  obtain ⟨hstdout, hsafe, -⟩ := htable rfl
  have hstdout : c'.stdout = r.table false := hstdout.trans String.empty_append
  refine ⟨c', source, settings, r, hends, hcount, hgone 0 _ (Nat.zero_le 0) ?_ (List.prefix_refl _),
    hclears.mp rfl, hstdout, fun htested => ?_⟩
  · rw [hcount]
    exact Nat.zero_lt_one
  · rw [hstdout]
    exact (hsafe htested).mpr rfl

/-- A complaint of the formatter that looks like the end of a table. -/
def complaint : String :=
  "x\n" ++ Terminal.green ++ "  ✓ No honeypot behaviour detected."

/-- The same console, where the formatter fails with that complaint. -/
def complainingConsole : Console :=
  { ownedConsole with
    session := { ownedConsole.session with
      forge := { formatting := [.finished 1 none complaint] } } }

/-- The source cannot be formatted, yet the last line that is printed says that nothing was found.
-/
theorem safeLine_printed_for_complaint :
    ∃ c', Runs (run ownedWords) complainingConsole (.ok 1) c' ∧
      (printedLines c'.stdout.toList).getLast? = some Report.safeLine.toList := by
  have hrun : ((run ownedWords).run.run complainingConsole).1.toOption = some 1 ∧
      (printedLines ((run ownedWords).run.run complainingConsole).2.stdout.toList).getLast? =
        some Report.safeLine.toList := by
    decide +kernel
  generalize hends : (run ownedWords).run.run complainingConsole = ended at hrun
  obtain ⟨outcome, c'⟩ := ended
  obtain ⟨houtcome, hlast⟩ := hrun
  cases outcome with
  | ok code =>
    obtain rfl := Option.some.inj houtcome
    exact ⟨c', hends, hlast⟩
  | error cause => cases houtcome

end HoneypotAudit.CommandLine
