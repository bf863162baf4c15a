import HoneypotAudit.Proofs.CommandLine.ExitStatus
import HoneypotAudit.Proofs.Files.Trees

/-!
# Targets of commands

A command that brings a text forth prints it, or else writes it into the file that is its target.
Up to that text a run does not know the target (`Delivers`): runs for different targets take the
same steps, and show nothing on the standard output.  So a target takes the text from the standard
output into the file and changes nothing else, if the command heeds it.

The main statement is `run_redirects_iff`.  The table of an analysis is printed whatever the target
is (`table_ignores_target`).
-/

namespace HoneypotAudit

open HoneypotAudit.Text

/-! ## Files that can be written -/

namespace Files.Tree

/-- A file can be written at the place of a path. -/
def CanWrite (t : Tree) (workingDirectory : Location) (p : Path) : Prop :=
  p.fault? = none ∧ (t.placeFor workingDirectory p).isOk

instance (t : Tree) (workingDirectory : Location) (p : Path) :
    Decidable (t.CanWrite workingDirectory p) :=
  inferInstanceAs (Decidable (_ ∧ _))

/-- Whether writing succeeds is no matter of the content. -/
lemma fault_write_eq_none_iff {t : Tree} {workingDirectory : Location} {p : Path}
    {content : Bytes} :
    (t.write workingDirectory p content).fault = none ↔ t.CanWrite workingDirectory p := by
  rw [write, CanWrite]
  cases p.fault? with
  | some kind => simp
  | none => cases t.placeFor workingDirectory p <;> simp [Except.isOk, Except.toBool]

end Files.Tree

namespace CommandLine

open HoneypotAudit.Session HoneypotAudit.Steps HoneypotAudit.Terminal

variable {c c' : Console} {isQuiet : Bool}

/-! ## Commands with targets -/

/-- A command with another target.  Showing the settings has none. -/
def Command.into (target : Target) : Command → Command
  | .inject o => .inject { o with output := target }
  | .synth o => .synth { o with output := target }
  | .analyze o => .analyze { o with output := target }
  | .config => .config

/-- What a command brings forth goes to its target. -/
def Command.HeedsTarget : Command → Prop
  | .inject _ | .synth _ => True
  | .analyze o => o.form = .json
  | .config => False

/-! ## Steps without a text -/

/-- From one console to another nothing was printed. -/
def Silent (c c' : Console) : Prop :=
  c'.stdout = c.stdout

instance : IsPreorder Console Silent where
  refl _ := rfl
  trans _ _ _ h h' := Eq.trans h' h

lemma silent_of_murmurs {α : Type} {m : StateM Console α} (h : Leads Murmurs m) : Leads Silent m :=
  fun c => (h c).stdout

lemma silent_perform {α : Type} (m : StateM Session α) : Leads Silent (Console.perform m).run :=
  fun _ => rfl

lemma silent_complain (text : String) : Leads Silent (complain text).run :=
  Leads.run_bind (silent_of_murmurs (murmurs_printError _)) fun _ => leads_run_pure _

lemma silent_analyzeSource (a : Analysis.Analyzer) (t : Analysis.Task) :
    Leads Silent (analyzeSource a t).run := by
  refine Leads.run_bind (silent_perform _) fun result => ?_
  refine Leads.run_bind (silent_perform _) fun _ => ?_
  cases result with
  | ok r => exact leads_run_pure _
  | error b => exact leads_run_throw _

/-! ## Steps towards a text -/

/-- Whatever the target is, a run either ends alike with nothing printed, or comes alike to a text,
which goes to the target, and to a status. -/
inductive Delivers (isQuiet : Bool) (a : Target → Program Int) (c : Console) : Prop
  | ends {outcome : Except Crash Int} {c' : Console} (silent : Silent c c')
      (runs : ∀ target, Runs (a target) c outcome c')
  | emits {text : String} {status : Int} {c₀ : Console} (silent : Silent c c₀)
      (runs : ∀ target outcome c', Runs (a target) c outcome c' ↔
        Runs (do emit isQuiet text target; pure status) c₀ outcome c')

lemma delivers_silent {m : Program Int} (h : Leads Silent m.run) (c : Console) :
    Delivers isQuiet (fun _ => m) c :=
  .ends (h c) fun _ => rfl

lemma delivers_emit (text : String) (status : Int) (c : Console) :
    Delivers isQuiet (fun target => do emit isQuiet text target; pure status) c :=
  .emits rfl fun _ _ _ => Iff.rfl

/-- Behind a step that does not know the target. -/
lemma Delivers.bind {α : Type} {m : Program α} {next : α → Target → Program Int}
    (hm : Leads Silent m.run) (hnext : ∀ x c, Delivers isQuiet (next x) c) (c : Console) :
    Delivers isQuiet (fun target => m >>= fun x => next x target) c := by
  rcases hrun : m.run.run c with ⟨e | x, c₁⟩
  · exact .ends (hm.of_runs hrun) fun target => runs_bind_iff.mpr (.inl ⟨e, hrun, rfl⟩)
  have hfirst : Silent c c₁ := hm.of_runs hrun
  have hrest {target : Target} {outcome : Except Crash Int} {c' : Console} :
      Runs (m >>= fun x => next x target) c outcome c' ↔ Runs (next x target) c₁ outcome c' := by
    rw [runs_bind_iff]
    constructor
    · rintro (⟨e, hfail, -⟩ | ⟨y, c₂, hy, h⟩)
      · cases hfail.symm.trans hrun
      · cases hy.symm.trans hrun
        exact h
    · exact fun h => .inr ⟨x, c₁, hrun, h⟩
  cases hnext x c₁ with
  | ends hsilent hruns =>
    exact .ends (trans_of Silent hfirst hsilent) fun target => hrest.mpr (hruns target)
  | emits hsilent hruns =>
    exact .emits (trans_of Silent hfirst hsilent) fun target outcome c' =>
      hrest.trans (hruns target outcome c')

lemma Delivers.withSource {path : String} {use : String → Target → Program Int}
    (huse : ∀ source c, Delivers isQuiet (use source) c) (c : Console) :
    Delivers isQuiet (fun target => withSource path fun source => use source target) c := by
  refine Delivers.bind (silent_of_murmurs (murmurs_readText _)) (fun found => ?_) c
  cases found with
  | some source => exact huse source
  | none =>
    exact Delivers.bind leads_run_get fun _ => delivers_silent (silent_complain _)

lemma Delivers.withPrepared {α : Type} {step : Analysis.Step α} {use : α → Target → Program Int}
    (huse : ∀ x c, Delivers isQuiet (use x) c) (c : Console) :
    Delivers isQuiet (fun target => withPrepared step fun x => use x target) c := by
  refine Delivers.bind (silent_perform _) (fun result => ?_) c
  match result with
  | .ok x => exact huse x
  | .error (.rejected _) => exact delivers_silent (silent_complain _)
  | .error (.broken _) => exact delivers_silent (leads_run_throw _)

/-! ## Commands that heed their target -/

lemma delivers_inject (settings : Settings) (o : InjectOptions) (c : Console) :
    Delivers isQuiet (fun target => inject settings isQuiet { o with output := target }) c :=
  Delivers.withSource
    (fun _ => Delivers.withPrepared fun (injected, _) => delivers_emit injected success) c

lemma delivers_synth (settings : Settings) (o : SynthOptions) (c : Console) :
    Delivers isQuiet (fun target => synth settings isQuiet { o with output := target }) c := by
  simp only [synth]
  refine Delivers.withSource (fun _ => Delivers.withPrepared fun p c => ?_) c
  cases isQuiet with
  | true => exact delivers_emit p.code success c
  | false =>
    refine Delivers.bind (Leads.run_forIn (fun line _ _ => ?_) _)
      (fun _ => delivers_emit p.code success) c
    exact Leads.run_bind (silent_of_murmurs (murmurs_printError line)) fun _ => leads_run_pure _

lemma delivers_analyze (settings : Settings) {o : AnalyzeOptions} (hform : o.form = .json)
    (c : Console) :
    Delivers isQuiet (fun target => analyze settings isQuiet { o with output := target }) c := by
  refine Delivers.withSource (fun source => ?_) c
  have hanalysis (c : Console) : Delivers isQuiet (fun target => do
      let report ← analyzeSource settings.analyzer (o.task source)
      showReport isQuiet { o with output := target } report
      pure (statusOf report)) c := by
    refine Delivers.bind (silent_analyzeSource _ _) (fun report => ?_) c
    simp only [showReport, hform]
    exact delivers_emit report.document (statusOf report)
  dsimp only
  by_cases hurl : (settings.analyzer.urlFor (o.task source)).isEmpty = true
  · simp only [AnalyzeOptions.task] at hurl
    simp only [hurl, if_true]
    exact delivers_silent (silent_complain _)
  · simp only [AnalyzeOptions.task] at hurl
    simp only [hurl]
    cases isQuiet with
    | true => exact hanalysis
    | false => exact Delivers.bind (silent_of_murmurs (murmurs_printError _)) fun _ => hanalysis

/-- A command that heeds its target delivers a text to it. -/
lemma delivers_perform {command : Command} (h : command.HeedsTarget) (c : Console) :
    Delivers isQuiet (fun target => perform isQuiet (command.into target)) c := by
  have hsettings {use : Settings → Target → Program Int}
      (huse : ∀ settings c, Delivers isQuiet (use settings) c) :
      Delivers isQuiet (fun target => do
        let settings ← Console.readSettings
        setUpLog settings isQuiet
        use settings target) c :=
    Delivers.bind (silent_of_murmurs murmurs_readSettings) (fun settings =>
      Delivers.bind (silent_of_murmurs (murmurs_setUpLog settings isQuiet)) fun _ =>
        huse settings) c
  cases command with
  | inject o => exact hsettings fun settings => delivers_inject settings o
  | synth o => exact hsettings fun settings => delivers_synth settings o
  | analyze o => exact hsettings fun settings => delivers_analyze settings h
  | config => exact h.elim

/-! ## The table -/

/-- The table of an analysis is printed whatever the target is. -/
lemma table_ignores_target {o : AnalyzeOptions} (hform : o.form = .table)
    (target target' : Target) :
    perform isQuiet (.analyze { o with output := target }) =
      perform isQuiet (.analyze { o with output := target' }) := by
  simp only [perform, analyze, showReport, hform]

lemma tableLines_ne_nil (r : Report) (isQuiet : Bool) : r.tableLines isQuiet ≠ [] := by
  rw [Report.tableLines]
  refine List.append_ne_nil_of_right_ne_nil _ ?_
  split
  · exact List.cons_ne_nil _ _
  split
  · exact List.cons_ne_nil _ _
  · exact List.append_ne_nil_of_right_ne_nil _ (List.cons_ne_nil _ _)

/-- A table ends with the end of a line. -/
lemma exists_table_eq (r : Report) (isQuiet : Bool) : ∃ text, r.table isQuiet = text ++ "\n" := by
  obtain ⟨front, last, hlines⟩ : ∃ front last, r.tableLines isQuiet = front ++ [last] :=
    ⟨_, _, (List.dropLast_append_getLast (tableLines_ne_nil r isQuiet)).symm⟩
  refine ⟨String.join (front.map (· ++ "\n")) ++ last, ?_⟩
  rw [← String.toList_inj, Report.table, hlines]
  simp [String.toList_join]

/-- What a run prints that shows a table. -/
lemma printed_of_table {words : List String} {i : Invocation} {o : AnalyzeOptions} {status : Int}
    (hwords : Invocation.ofWords words = .ok i) (hversion : i.showsVersion = false)
    (hcommand : i.command = some (.analyze o)) (hform : o.form = .table)
    (h : Runs (run words) c (.ok status) c') (hprinted : c'.stdout ≠ c.stdout) :
    ∃ text, c'.stdout = c.stdout ++ text ++ "\n" := by
  generalize houtcome : Except.ok status = outcome at h
  cases analyzes_of_run hwords hversion hcommand h with
  | refuses hstays => exact absurd hstays.stdout hprinted
  | fails hstays => exact absurd hstays.stdout hprinted
  | breaks => cases houtcome
  | @reports _ _ r _ c₁ _ _ _ _ hsilent hshows =>
    rw [showReport, hform] at hshows
    obtain ⟨-, rfl⟩ := runs_modify_iff.mp hshows
    obtain ⟨text, htext⟩ := exists_table_eq r i.isQuiet
    exact ⟨text, by rw [hsilent, htext, String.append_assoc]⟩

/-! ## Texts and their targets -/

/-- The file that a target names was written after a run for that target, and what it holds is the
text that a run without a target prints.  Nothing else is changed: from `c`, one run leads to `c₁`
without a target, the other one to `c₂`. -/
structure Redirects (isQuiet : Bool) (text file : String) (c c₁ c₂ : Console) : Prop where
  written : c₂.session.files.find
      (Files.Tree.startOf c₁.session.workingDirectory (.ofText file))
      (Files.Path.ofText file).parts =
    .ok (.file (Utf8.encode text.toList))
  silent : c₂.stdout = c.stdout
  grows : Files.Tree.Grows {(Files.Path.ofText file).resolve c₁.session.workingDirectory}
    {name | name ∈ (Files.Path.ofText file).parts} c₁.session.files c₂.session.files
  session : c₂.session = { c₁.session with files := c₂.session.files }
  noted : c₂.stderr = c₁.stderr ++
    if isQuiet then "" else "  Written to " ++ paint cyan file ++ "\n"

/-- A text is printed if there is no target. -/
lemma runs_emit_none {text : String} {outcome : Except Crash Unit} :
    Runs (emit isQuiet text none) c outcome c' ↔
      outcome = .ok () ∧ c' = { c with stdout := c.stdout ++ (text ++ "\n") } :=
  runs_modify_iff

/-- Writing a text changes the files alone. -/
lemma runs_writeText {p : Files.Path} {text : String} {outcome : Except Crash Unit}
    (h : Runs (Console.writeText p text) c outcome c') :
    ∃ written,
      written = c.session.files.write c.session.workingDirectory p (Utf8.encode text.toList) ∧
      outcome = written.fault.elim (.ok ()) (fun cause => .error (.broken (.files cause))) ∧
      c' = { c with session := { c.session with files := written.tree } } := by
  refine ⟨_, rfl, ?_⟩
  rcases runs_bind_iff.mp h with ⟨e, hfail, -⟩ | ⟨result, c₁, hperform, h⟩
  · cases (runs_perform hfail).1
  obtain ⟨hresult, hsession⟩ := ends_changeFiles_iff.mp
    (show Ends (Session.writeText p text.toList) c.session _ _ from rfl)
  cases hperform
  rw [hresult] at h
  have hlog : c.logging.write c.session.rooms c.time [] = "" := rfl
  simp only [hsession, List.drop_length, hlog, String.append_empty] at h
  cases hfault :
      (c.session.files.write c.session.workingDirectory p (Utf8.encode text.toList)).fault with
  | none =>
    rw [hfault] at h
    exact runs_pure_iff.mp h
  | some cause =>
    rw [hfault] at h
    exact runs_throw_iff.mp h

/-- A text goes into a file that can be written. -/
lemma redirects_of_emit {text file : String} {outcome : Except Crash Unit}
    (hfits : c.session.files.CanWrite c.session.workingDirectory (.ofText file))
    (h : Runs (emit isQuiet text (some file)) c outcome c') :
    outcome = .ok () ∧
      Redirects isQuiet text file c { c with stdout := c.stdout ++ (text ++ "\n") } c' := by
  have hfault : (c.session.files.write c.session.workingDirectory (.ofText file)
      (Utf8.encode text.toList)).fault = none := Files.Tree.fault_write_eq_none_iff.mpr hfits
  rcases runs_bind_iff.mp h with ⟨e, hfail, -⟩ | ⟨_, c₁, hwrite, h⟩
  · obtain ⟨_, rfl, hcrash, -⟩ := runs_writeText hfail
    rw [hfault] at hcrash
    cases hcrash
  obtain ⟨_, rfl, -, rfl⟩ := runs_writeText hwrite
  have hfound := Files.Tree.find_write hfault
  have hgrows := Files.Tree.grows_write c.session.files c.session.workingDirectory (.ofText file)
    (Utf8.encode text.toList)
  cases isQuiet with
  | true =>
    obtain ⟨rfl, rfl⟩ := runs_pure_iff.mp h
    exact ⟨rfl, hfound, rfl, hgrows, rfl, by simp⟩
  | false =>
    obtain ⟨rfl, rfl⟩ := runs_modify_iff.mp h
    exact ⟨rfl, hfound, rfl, hgrows, rfl, by simp [String.append_assoc]⟩

/-- A file that cannot be written ends the run. -/
lemma fails_of_emit {text file : String} {outcome : Except Crash Unit}
    (hfits : ¬c.session.files.CanWrite c.session.workingDirectory (.ofText file))
    (h : Runs (emit isQuiet text (some file)) c outcome c') : ∃ e, outcome = .error e := by
  rcases runs_bind_iff.mp h with ⟨e, -, hcrash⟩ | ⟨_, c₁, hwrite, -⟩
  · exact ⟨e, hcrash⟩
  · obtain ⟨_, rfl, hdone, -⟩ := runs_writeText hwrite
    cases hfault : (c.session.files.write c.session.workingDirectory (.ofText file)
        (Utf8.encode text.toList)).fault with
    | none => exact absurd (Files.Tree.fault_write_eq_none_iff.mp hfault) hfits
    | some cause =>
      rw [hfault] at hdone
      cases hdone

/-! ## Runs with and without a target -/

/-- What a run does that delivers, once it is known what the run without a target prints. -/
lemma Delivers.redirects_iff {a : Target → Program Int} (ha : Delivers isQuiet a c) {file : String}
    {status : Int} {outcome : Except Crash Int} {c₁ c₂ : Console}
    (h : Runs (a none) c (.ok status) c₁) (hprinted : c₁.stdout ≠ c.stdout)
    (h' : Runs (a (targetOf file)) c outcome c₂) :
    ∃ text, c₁.stdout = c.stdout ++ text ++ "\n" ∧
      (outcome = .ok status ∧ Redirects isQuiet text file c c₁ c₂ ↔
        file ≠ "" ∧ c₁.session.files.CanWrite c₁.session.workingDirectory (.ofText file)) := by
  cases ha with
  | ends hsilent hruns =>
    cases h.symm.trans (hruns none)
    exact absurd hsilent hprinted
  | @emits text status' c₀ hsilent hruns =>
    rw [hruns] at h h'
    rcases runs_bind_iff.mp h with ⟨e, -, hcrash⟩ | ⟨_, _, hprint, h⟩
    · cases hcrash
    obtain ⟨-, rfl⟩ := runs_emit_none.mp hprint
    obtain ⟨hstatus, rfl⟩ := runs_pure_iff.mp h
    obtain rfl := Except.ok.inj hstatus
    refine ⟨text, by rw [hsilent, String.append_assoc], ?_⟩
    by_cases hfile : file = ""
    · subst hfile
      cases h'.symm.trans (runs_bind_iff.mpr (.inr ⟨_, _, hprint, h⟩))
      exact iff_of_false (fun hboth => hprinted hboth.2.silent) fun hboth => hboth.1 rfl
    have htarget : targetOf file = some file := by simp [targetOf, hfile]
    rw [htarget] at h'
    by_cases hfits : c₀.session.files.CanWrite c₀.session.workingDirectory (.ofText file)
    · refine iff_of_true ?_ ⟨hfile, hfits⟩
      rcases runs_bind_iff.mp h' with ⟨e, hfail, -⟩ | ⟨_, _, hwrite, h'⟩
      · cases (redirects_of_emit hfits hfail).1
      obtain ⟨-, hredirects⟩ := redirects_of_emit hfits hwrite
      obtain ⟨rfl, rfl⟩ := runs_pure_iff.mp h'
      exact ⟨rfl, { hredirects with silent := hredirects.silent.trans hsilent }⟩
    · refine iff_of_false ?_ fun hboth => hfits hboth.2
      rintro ⟨rfl, -⟩
      rcases runs_bind_iff.mp h' with ⟨e, -, hcrash⟩ | ⟨_, _, hwrite, -⟩
      · cases hcrash
      · obtain ⟨e, hcrash⟩ := fails_of_emit hfits hwrite
        cases hcrash

lemma runs_run_iff {words : List String} {i : Invocation} {command : Command}
    {outcome : Except Crash Int} (hwords : Invocation.ofWords words = .ok i)
    (hversion : i.showsVersion = false) (hcommand : i.command = some command) :
    Runs (run words) c outcome c' ↔ Runs (perform i.isQuiet command) c outcome c' := by
  simp [run, hwords, hversion, hcommand]

lemma eq_ok_of_toOption {outcome : Except Crash Int} {status : Int}
    (h : outcome.toOption = some status) : outcome = .ok status := by
  cases outcome with
  | ok code => rw [Option.some.inj h]
  | error cause => cases h

/-- **A target takes the text from the standard output into a file, if the command heeds it.**  Let
two command lines ask for one thing but for the target of the command, none and a file, and let the
run without a target end with a status and have printed something.  That is a text and the end of
its last line.  The run for the file ends with the same status, has printed nothing, has written the
text into the file and has changed nothing else exactly if the command heeds its target, the file
has a name, and it can be written. -/
theorem run_redirects_iff {words words' : List String} {i : Invocation} {command : Command}
    {file : String}
    {status : Int} {outcome : Except Crash Int} {c₁ c₂ : Console} (hcommand : command ≠ .config)
    (hwords : Invocation.ofWords words = .ok { i with command := some (command.into none) })
    (hwords' : Invocation.ofWords words' =
      .ok { i with command := some (command.into (targetOf file)) })
    (hversion : i.showsVersion = false) (h : Runs (run words) c (.ok status) c₁)
    (hprinted : c₁.stdout ≠ c.stdout) (h' : Runs (run words') c outcome c₂) :
    ∃ text, c₁.stdout = c.stdout ++ text ++ "\n" ∧
      (outcome = .ok status ∧ Redirects i.isQuiet text file c c₁ c₂ ↔
        command.HeedsTarget ∧ file ≠ "" ∧
          c₁.session.files.CanWrite c₁.session.workingDirectory (.ofText file)) := by
  have hrun := (runs_run_iff hwords hversion rfl).mp h
  have hrun' := (runs_run_iff hwords' hversion rfl).mp h'
  by_cases hheeds : command.HeedsTarget
  · simp only [hheeds, true_and]
    exact (delivers_perform hheeds c).redirects_iff hrun hprinted hrun'
  -- what is left is the table, and there both runs are the same
  obtain ⟨o, rfl, hform⟩ : ∃ o, command = .analyze o ∧ o.form = .table := by
    cases command with
    | inject o => exact absurd trivial hheeds
    | synth o => exact absurd trivial hheeds
    | config => exact absurd rfl hcommand
    | analyze o =>
      refine ⟨o, rfl, ?_⟩
      cases hform : o.form with
      | table => rfl
      | json => exact absurd hform hheeds
  obtain ⟨text, htext⟩ := printed_of_table hwords hversion rfl (by exact hform) h hprinted
  refine ⟨text, htext, iff_of_false (fun hboth => ?_) fun hboth => hheeds hboth.1⟩
  rw [Command.into, table_ignores_target hform none] at hrun
  cases hrun.symm.trans hrun'
  exact hprinted hboth.2.silent

/-- What a command line asks for that shows the report of that analysis as a document. -/
def documentOptions : AnalyzeOptions :=
  { ownedOptions with form := .json }

theorem run_redirects_iff_document :
    ∃ text c₁ c₂, Runs (run (ownedWords ++ ["-f", "json"])) ownedConsole (.ok 0) c₁ ∧
      Runs (run (ownedWords ++ ["-f", "json", "-o", "r.json"])) ownedConsole (.ok 0) c₂ ∧
      c₁.stdout = ownedConsole.stdout ++ text ++ "\n" ∧
      Redirects false text "r.json" ownedConsole c₁ c₂ := by
  have hcommand : Command.analyze documentOptions ≠ .config := by decide
  have hwords : Invocation.ofWords (ownedWords ++ ["-f", "json"]) =
      .ok { command := some (.analyze documentOptions) } := by
    decide +kernel
  have hwords' : Invocation.ofWords (ownedWords ++ ["-f", "json", "-o", "r.json"]) =
      .ok { command := some ((Command.analyze documentOptions).into (targetOf "r.json")) } := by
    decide +kernel
  have hrun : ((run (ownedWords ++ ["-f", "json"])).run.run ownedConsole).1.toOption = some 0 ∧
      ((run (ownedWords ++ ["-f", "json"])).run.run ownedConsole).2.stdout ≠ ownedConsole.stdout ∧
      ((run (ownedWords ++ ["-f", "json"])).run.run ownedConsole).2.session.files.CanWrite
        ((run (ownedWords ++ ["-f", "json"])).run.run ownedConsole).2.session.workingDirectory
        (.ofText "r.json") := by
    decide +kernel
  generalize hends : (run (ownedWords ++ ["-f", "json"])).run.run ownedConsole = ended at hrun
  obtain ⟨outcome, c₁⟩ := ended
  obtain ⟨houtcome, hprinted, hfits⟩ := hrun
  obtain rfl := eq_ok_of_toOption houtcome
  obtain ⟨text, htext, hredirects⟩ :=
    run_redirects_iff (i := {}) hcommand hwords hwords' rfl hends hprinted rfl
  obtain ⟨hstatus, hredirects⟩ := hredirects.mpr ⟨rfl, by decide, hfits⟩
  exact ⟨text, c₁, _, hends, Prod.ext hstatus rfl, htext, hredirects⟩

/-- The table of that analysis is printed although there is a target, and no file is written. -/
theorem table_ignores_file :
    ∃ c₁, Runs (run ownedWords) ownedConsole (.ok 0) c₁ ∧ c₁.stdout ≠ ownedConsole.stdout ∧
      Runs (run (ownedWords ++ ["-o", "r.txt"])) ownedConsole (.ok 0) c₁ ∧
      c₁.session.files.CanWrite c₁.session.workingDirectory (.ofText "r.txt") ∧
      c₁.session.files.find c₁.session.workingDirectory ["r.txt"] = .error .missing := by
  have hrun : ((run ownedWords).run.run ownedConsole).1.toOption = some 0 ∧
      ((run ownedWords).run.run ownedConsole).2.stdout ≠ ownedConsole.stdout ∧
      ((run ownedWords).run.run ownedConsole).2.session.files.CanWrite
        ((run ownedWords).run.run ownedConsole).2.session.workingDirectory (.ofText "r.txt") ∧
      ((run ownedWords).run.run ownedConsole).2.session.files.find
        ((run ownedWords).run.run ownedConsole).2.session.workingDirectory ["r.txt"] =
          .error .missing := by
    decide +kernel
  have hwords : Invocation.ofWords ownedWords =
      .ok { command := some (.analyze ownedOptions) } := by
    decide +kernel
  have hwords' : Invocation.ofWords (ownedWords ++ ["-o", "r.txt"]) =
      .ok { command := some (.analyze { ownedOptions with output := some "r.txt" }) } := by
    decide +kernel
  generalize hends : (run ownedWords).run.run ownedConsole = ended at hrun
  obtain ⟨outcome, c₁⟩ := ended
  obtain ⟨houtcome, hprinted, hfits, hmissing⟩ := hrun
  obtain rfl := eq_ok_of_toOption houtcome
  refine ⟨c₁, hends, hprinted, (runs_run_iff hwords' rfl rfl).mpr ?_, hfits, hmissing⟩
  rw [table_ignores_target (o := ownedOptions) rfl (some "r.txt") none]
  exact (runs_run_iff hwords rfl rfl).mp hends

end CommandLine

end HoneypotAudit
