import HoneypotAudit.CommandLine.Run
import HoneypotAudit.Proofs.Session.Runs

/-!
# Runs of the analysis command

What a command line that asks for an analysis does, told by its parts (`Analyzes`): without a source
or a node it complains; else it analyses in the session that it found, cleans up, and shows the
report.  In front of the analysis and beside it nothing is written to the standard output and
nothing is done in the session (`Murmurs`).

The main statement is `analyzes_of_run`.
-/

namespace HoneypotAudit.CommandLine

open HoneypotAudit.Session HoneypotAudit.Steps

variable {c c' : Console}

/-! ## Steps that only murmur -/

/-- From one console to another the session and the standard output stay. -/
structure Murmurs (c c' : Console) : Prop where
  session : c'.session = c.session
  stdout : c'.stdout = c.stdout

instance : IsPreorder Console Murmurs where
  refl _ := ⟨rfl, rfl⟩
  trans _ _ _ h h' := ⟨h'.session.trans h.session, h'.stdout.trans h.stdout⟩

lemma murmurs_printError (line : String) : Leads Murmurs (Console.printError line).run :=
  fun _ => ⟨rfl, rfl⟩

lemma murmurs_readText (p : Files.Path) : Leads Murmurs (Console.readText p).run := by
  refine Leads.run_bind leads_run_get fun c => ?_
  dsimp only
  split
  · exact leads_run_throw _
  · exact leads_run_pure _
  · split
    · exact leads_run_pure _
    · exact leads_run_throw _

lemma murmurs_readSettings : Leads Murmurs Console.readSettings.run := by
  refine Leads.run_bind (murmurs_readText _) fun text => ?_
  refine Leads.run_bind (Leads.run_forIn (fun line _ _ => ?_) _) fun _ => ?_
  · exact Leads.run_bind (murmurs_printError _) fun _ => leads_run_pure _
  refine Leads.run_bind leads_run_get fun c => ?_
  dsimp only
  split
  · exact leads_run_pure _
  · exact leads_run_throw _

lemma murmurs_setUpLog (settings : Settings) (isQuiet : Bool) :
    Leads Murmurs (setUpLog settings isQuiet).run := by
  rw [setUpLog]
  split
  · exact fun _ => ⟨rfl, rfl⟩
  · exact leads_run_throw _

/-- A complaint ends the run with a failure. -/
lemma runs_complain {text : String} {outcome : Except Crash Int}
    (h : Runs (complain text) c outcome c') : outcome = .ok failure ∧ Murmurs c c' := by
  rcases runs_bind_iff.mp h with ⟨e, hfail, -⟩ | ⟨_, c₁, hprint, h⟩
  · cases (runs_modify_iff.mp hfail).1
  · obtain ⟨houtcome, rfl⟩ := runs_pure_iff.mp h
    exact ⟨houtcome, (murmurs_printError _).of_runs hprint⟩

/-! ## Steps in the session -/

/-- What is done in the session is done there, and nothing is shown. -/
lemma runs_perform {α : Type} {m : StateM Session α} {o : Except Crash α}
    (h : Runs (Console.perform m) c o c') :
    o = .ok (m.run c.session).1 ∧ c'.session = (m.run c.session).2 ∧ c'.stdout = c.stdout := by
  cases h
  exact ⟨rfl, rfl, rfl⟩

/-! ## The command -/

/-- What an analysis command analyses. -/
def AnalyzeOptions.task (o : AnalyzeOptions) (source : String) : Analysis.Task where
  source := source
  arguments := blobOf o.arguments
  forkUrl := o.forkUrl
  block := o.block
  transaction := o.transaction

/-- A command line has read the settings and a source. -/
structure Reads (o : AnalyzeOptions) (c : Console) (settings : Settings) (source : String) :
    Prop where
  settings : ∃ c', Runs Console.readSettings c (.ok settings) c'
  source : ∃ c' c'', Murmurs c c' ∧
    Runs (Console.readText (.ofText o.path)) c' (.ok (some source)) c''

/-- How an analysis command ends. -/
inductive Analyzes (isQuiet : Bool) (o : AnalyzeOptions) (c c' : Console) : Except Crash Int → Prop
  /-- There is no source or no node. -/
  | refuses (stays : Murmurs c c') : Analyzes isQuiet o c c' (.ok failure)
  | fails {e : Crash} (stays : Murmurs c c') : Analyzes isQuiet o c c' (.error e)
  /-- The analysis breaks down. -/
  | breaks {settings : Settings} {source : String} {b : Breakdown} {s : Session}
      (reads : Reads o c settings source)
      (analyses : Ends (Analysis.analyze settings.analyzer (o.task source)) c.session
        (.error b) s)
      (cleans : c'.session = (Forge.cleanUp.run s).2) : Analyzes isQuiet o c c' (.error (.broken b))
  | reports {settings : Settings} {source : String} {r : Report} {s : Session} {c₁ : Console}
      {shown : Except Crash Unit} (reads : Reads o c settings source)
      (analyses : Ends (Analysis.analyze settings.analyzer (o.task source)) c.session
        (.ok r) s)
      (cleans : c₁.session = (Forge.cleanUp.run s).2) (silent : c₁.stdout = c.stdout)
      (shows : Runs (showReport isQuiet o r) c₁ shown c') :
      Analyzes isQuiet o c c' (shown.map fun _ => statusOf r)

/-- Behind the analysis the project is cleaned up, whatever the analysis came to. -/
lemma runs_analyzeSource {a : Analysis.Analyzer} {t : Analysis.Task} {outcome : Except Crash Report}
    (h : Runs (analyzeSource a t) c outcome c') :
    ∃ result s, Ends (Analysis.analyze a t) c.session result s ∧
      c'.session = (Forge.cleanUp.run s).2 ∧ c'.stdout = c.stdout ∧
      outcome = result.mapError .broken := by
  rcases runs_bind_iff.mp h with ⟨e, hfail, -⟩ | ⟨result, c₁, hanalyze, h⟩
  · cases (runs_perform hfail).1
  obtain ⟨hresult, hsession, hstdout⟩ := runs_perform hanalyze
  rcases runs_bind_iff.mp h with ⟨e, hfail, -⟩ | ⟨_, c₂, hclean, h⟩
  · cases (runs_perform hfail).1
  obtain ⟨-, hsession', hstdout'⟩ := runs_perform hclean
  have hends : Ends (Analysis.analyze a t) c.session result c₁.session :=
    Prod.ext (Except.ok.inj hresult).symm hsession.symm
  cases result with
  | ok r =>
    obtain ⟨rfl, rfl⟩ := runs_pure_iff.mp h
    exact ⟨_, _, hends, hsession', hstdout'.trans hstdout, rfl⟩
  | error b =>
    obtain ⟨rfl, rfl⟩ := runs_throw_iff.mp h
    exact ⟨_, _, hends, hsession', hstdout'.trans hstdout, rfl⟩

/-- From the analysis on: it is made in the session that the command found. -/
lemma analyzes_of_analyzeSource {settings : Settings} {source : String} {isQuiet : Bool}
    {o : AnalyzeOptions} {outcome : Except Crash Int} {c₀ : Console}
    (hreads : Reads o c₀ settings source) (hmurmurs : Murmurs c₀ c)
    (h : Runs (do
      let report ← analyzeSource settings.analyzer (o.task source)
      showReport isQuiet o report
      pure (statusOf report)) c outcome c') : Analyzes isQuiet o c₀ c' outcome := by
  rcases runs_bind_iff.mp h with ⟨e, hfail, rfl⟩ | ⟨r, c₁, hanalyze, h⟩
  · obtain ⟨result, s, hends, hsession, -, hlast⟩ := runs_analyzeSource hfail
    cases result with
    | ok r => cases hlast
    | error b =>
      obtain rfl := Except.error.inj hlast
      exact .breaks hreads (hmurmurs.session ▸ hends) hsession
  · obtain ⟨result, s, hends, hsession, hstdout, hlast⟩ := runs_analyzeSource hanalyze
    cases result with
    | error b => cases hlast
    | ok r' =>
      obtain rfl := Except.ok.inj hlast
      have hsilent : c₁.stdout = c₀.stdout := hstdout.trans hmurmurs.stdout
      have hreports {shown : Except Crash Unit}
          (hshows : Runs (showReport isQuiet o r) c₁ shown c') :
          Analyzes isQuiet o c₀ c' (shown.map fun _ => statusOf r) :=
        .reports hreads (hmurmurs.session ▸ hends) hsession hsilent hshows
      rcases runs_bind_iff.mp h with ⟨e, hfail, rfl⟩ | ⟨_, c₂, hshow, h⟩
      · exact hreports hfail
      · obtain ⟨rfl, rfl⟩ := runs_pure_iff.mp h
        exact hreports hshow

lemma analyzes_of_analyze {settings : Settings} {isQuiet : Bool} {o : AnalyzeOptions}
    {outcome : Except Crash Int} {c₀ : Console}
    (hsettings : ∃ c', Runs Console.readSettings c₀ (.ok settings) c') (hmurmurs : Murmurs c₀ c)
    (h : Runs (analyze settings isQuiet o) c outcome c') : Analyzes isQuiet o c₀ c' outcome := by
  rcases runs_bind_iff.mp h with ⟨e, hfail, rfl⟩ | ⟨text, c₁, hread, h⟩
  · exact .fails (trans_of _ hmurmurs ((murmurs_readText _).of_runs hfail))
  have hmurmurs' : Murmurs c₀ c₁ := trans_of _ hmurmurs ((murmurs_readText _).of_runs hread)
  have hrefuses {text : String} (h : Runs (complain text) c₁ outcome c') :
      Analyzes isQuiet o c₀ c' outcome := by
    obtain ⟨rfl, hcomplains⟩ := runs_complain h
    exact .refuses (trans_of _ hmurmurs' hcomplains)
  cases text with
  | none =>
    rcases runs_bind_iff.mp h with ⟨e, hfail, -⟩ | ⟨_, c₂, hget, hcomplain⟩
    · cases (runs_get_iff.mp hfail).1
    · obtain ⟨-, rfl⟩ := runs_get_iff.mp hget
      exact hrefuses hcomplain
  | some source =>
    have hreads : Reads o c₀ settings source := ⟨hsettings, c, c₁, hmurmurs, hread⟩
    dsimp only at h
    split at h
    · exact hrefuses h
    split at h
    · rcases runs_bind_iff.mp h with ⟨e, hfail, -⟩ | ⟨_, c₂, hprint, h⟩
      · cases (runs_modify_iff.mp hfail).1
      have hprints := (murmurs_printError _).of_runs hprint
      exact analyzes_of_analyzeSource hreads (trans_of _ hmurmurs' hprints) h
    · exact analyzes_of_analyzeSource hreads hmurmurs' h

/-- **What a command line that asks for an analysis does.** -/
theorem analyzes_of_run {words : List String} {i : Invocation} {o : AnalyzeOptions}
    {outcome : Except Crash Int} (hwords : Invocation.ofWords words = .ok i)
    (hversion : i.showsVersion = false) (hcommand : i.command = some (.analyze o))
    (h : Runs (run words) c outcome c') : Analyzes i.isQuiet o c c' outcome := by
  have h : Runs (perform i.isQuiet (.analyze o)) c outcome c' := by
    simpa [run, hwords, hversion, hcommand] using h
  rcases runs_bind_iff.mp h with ⟨e, hfail, rfl⟩ | ⟨settings, c₁, hsettings, h⟩
  · exact .fails (murmurs_readSettings.of_runs hfail)
  have hread := murmurs_readSettings.of_runs hsettings
  rcases runs_bind_iff.mp h with ⟨e, hfail, rfl⟩ | ⟨_, c₂, hlog, h⟩
  · exact .fails (trans_of _ hread ((murmurs_setUpLog _ _).of_runs hfail))
  · exact analyzes_of_analyze ⟨c₁, hsettings⟩
      (trans_of _ hread ((murmurs_setUpLog _ _).of_runs hlog)) h

end HoneypotAudit.CommandLine
