import HoneypotAudit.Forge.Execution
import HoneypotAudit.Proofs.Session.Runs

/-!
# Runs of the suites

A test run calls the tool to install the library, if it has to, and then to run the tests; it never
formats (`calls_run`).  If it comes to its end, the last call ran the tests to the end, and what the
call left behind was read as the run (`ends_run_ok`).
-/

namespace HoneypotAudit.Forge

open HoneypotAudit.Session HoneypotAudit.Outcome

/-! ## Steps without calls -/

lemma quiet_ofFiles {α : Type} {a : Action Files.Fault α} (h : Quiet a.run) :
    Quiet (Step.ofFiles a).run :=
  Calls.run_adapt h

lemma quiet_projectDirectory : Quiet projectDirectory.run := by
  refine Calls.run_bind quiet_get fun s => ?_
  split
  · exact calls_run_pure _
  · exact calls_run_throw _

/-- The directory of the project, or a breakdown without one. -/
lemma ends_projectDirectory_iff {s s' : Session} {o : Except Stop Files.Path} :
    Ends projectDirectory s o s' ↔
      o = s.project.directory.elim (.error (.broken .noProject)) .ok ∧ s' = s := by
  rw [projectDirectory, ends_get_bind_iff]
  cases s.project.directory with
  | none => exact ends_throw_iff
  | some directory => exact ends_pure_iff

lemma ends_projectDirectory_ok_iff {s s' : Session} {directory : Files.Path} :
    Ends projectDirectory s (.ok directory) s' ↔ s.project.directory = some directory ∧ s' = s := by
  rw [ends_projectDirectory_iff]
  cases s.project.directory <;> simp [eq_comm]

lemma quiet_chooseDirectory (c : Config) : Quiet (chooseDirectory c) := by
  have hkeep (project : Project) : Quiet (do
      modify fun s => { s with project }
      pure (project.directory.getD {}) : StateM Session Files.Path) :=
    Calls.bind (quiet_of_eq (fun _ => rfl) (fun _ => rfl) (fun _ => rfl)) fun _ => calls_pure _
  rw [chooseDirectory]
  split
  · exact Calls.bind (calls_pure _) hkeep
  · exact Calls.bind quiet_makeTemporary fun _ => Calls.bind (calls_pure _) hkeep

lemma quiet_writeSuites (c : Config) (code : String) : Quiet (writeSuites c code).run := by
  refine Calls.run_bind quiet_projectDirectory fun directory => ?_
  refine Calls.run_bind (quiet_ofFiles (quiet_makeDirectories _)) fun _ => ?_
  exact Calls.run_bind (quiet_ofFiles (quiet_changeFiles _)) fun _ => calls_run_pure _

lemma quiet_whole (time : Number.Binary64) : Quiet (whole time).run := by
  rw [whole]
  split
  · exact calls_run_pure _
  · exact calls_run_throw _

/-! ## Projects -/

/-- The call that fetches the library. -/
def installCall (c : Config) (directory : Files.Path) : Call where
  command := .install
  words := c.installWords
  timeout := some c.installTimeout
  directory := some directory.text

lemma calls_install (c : Config) : Calls (·.command = .install) (install c).run := by
  refine Calls.run_bind quiet_projectDirectory.calls fun directory => ?_
  refine Calls.run_bind (Calls.run_lift ?_) fun outcome => ?_
  · exact calls_call (P := (·.command = .install)) rfl _
  split
  · exact calls_run_throw _
  · exact calls_run_throw _
  · split
    · exact calls_run_pure _
    · exact calls_run_throw _

lemma calls_startProject (c : Config) : Calls (·.command = .install) (startProject c).run := by
  have hdirectory (p : Files.Path) : Quiet (Step.ofFiles (makeDirectories p)).run :=
    quiet_ofFiles (quiet_makeDirectories p)
  refine Calls.run_bind (Calls.run_lift (quiet_chooseDirectory c).calls) fun directory => ?_
  refine Calls.run_bind (Calls.run_forIn (fun name _ => ?_) _) fun _ => ?_
  · exact Calls.run_bind (hdirectory _).calls fun _ => calls_run_pure _
  refine Calls.run_bind (quiet_ofFiles (quiet_changeFiles _)).calls fun _ => ?_
  refine Calls.run_bind quiet_get.calls fun s => ?_
  dsimp only
  split
  · exact Calls.run_bind (calls_install c) fun _ => Calls.log_bind fun _ => calls_run_pure _
  · exact Calls.log_bind fun _ => calls_run_pure _

lemma calls_ensureProject (c : Config) : Calls (·.command = .install) (ensureProject c).run := by
  refine Calls.run_bind quiet_get.calls fun s => ?_
  split
  · exact Calls.run_bind (calls_startProject c) fun _ => calls_run_pure _
  · exact calls_run_pure _

/-- A project is made if there is none. -/
lemma ends_ensureProject_iff {c : Config} {s s' : Session} {o : Except Stop Unit} :
    Ends (ensureProject c) s o s' ↔
      if s.project.directory.isNone then
        ∃ o', Ends (startProject c) s o' s' ∧ o = o'.map fun _ => ()
      else o = .ok () ∧ s' = s := by
  rw [ensureProject, ends_get_bind_iff]
  split
  · exact ends_bind_pure_iff
  · exact ends_pure_iff

/-! ## Tests -/

/-- The call that runs the tests. -/
def testCall (c : Config) (r : Request) (directory : Files.Path) : Call where
  command := .test
  words := c.testWords r.forkUrl r.block
  timeout := c.testTimeout
  directory := some directory.text
  environment := some c.environment

/-- The tests are one call in the directory of the project, and what is given back is what the call
left behind. -/
lemma ends_test {c : Config} {r : Request} {s s' : Session}
    {o : Except Stop (Output × Number.Binary64)} (h : Ends (test c r) s o s') :
    (s' = s ∧ ∃ e, o = .error e) ∨
      ∃ directory, s.project.directory = some directory ∧
        Makes [testCall c r directory] s s' ∧ ∀ result, o = .ok result →
          (s.forge.next .test).1.outcome "" = .finished result.1 := by
  rcases ends_bind_iff.mp h with ⟨e, hfail, rfl⟩ | ⟨directory, s₁, hdirectory, hrest⟩
  · exact .inl ⟨(ends_projectDirectory_iff.mp hfail).2, e, rfl⟩
  obtain ⟨hproject, rfl⟩ := ends_projectDirectory_ok_iff.mp hdirectory
  obtain ⟨start, s₂, hstart, h⟩ := ends_lift_bind_iff.mp hrest
  have hbefore : Makes [] s₁ s₂ := quiet_readRunClock.makes_of_lift hstart
  obtain ⟨outcome, s₃, hcall, h⟩ := ends_lift_bind_iff.mp h
  obtain ⟨houtcome, rfl⟩ := ends_lift_iff.mp hcall
  have hmakes := hbefore.trans (makes_call (testCall c r directory) "" s₂)
  refine .inr ⟨directory, hproject, ?_⟩
  cases outcome with
  | missing =>
    obtain ⟨rfl, rfl⟩ := ends_throw_iff.mp h
    exact ⟨hmakes, fun _ he => nomatch he⟩
  | timedOut =>
    obtain ⟨rfl, rfl⟩ := ends_throw_iff.mp h
    exact ⟨hmakes, fun _ he => nomatch he⟩
  | finished output =>
    obtain ⟨finish, s₃, hfinish, h⟩ := ends_lift_bind_iff.mp h
    obtain ⟨rfl, rfl⟩ := ends_pure_iff.mp h
    refine ⟨hmakes.trans (quiet_readRunClock.makes_of_lift hfinish), fun result hresult => ?_⟩
    have hscript : s₂.forge = s₁.forge := hbefore.script
    have hfinished : (s₂.forge.next .test).1.outcome "" = .finished output :=
      (Except.ok.inj houtcome).symm
    rw [← Except.ok.inj hresult, ← hscript, hfinished]

/-- The tests are called at most once, and nothing else is. -/
lemma calls_testCall {P : Call → Prop} {c : Config} {r : Request} (h : ∀ d, P (testCall c r d)) :
    Calls P (test c r).run := by
  refine Calls.run_bind quiet_projectDirectory.calls fun directory => ?_
  refine Calls.run_bind (Calls.run_lift quiet_readRunClock.calls) fun _ => ?_
  refine Calls.run_bind (Calls.run_lift (calls_call (h directory) _)) fun outcome => ?_
  split
  · exact calls_run_throw _
  · exact calls_run_throw _
  · exact Calls.run_bind (Calls.run_lift quiet_readRunClock.calls) fun _ => calls_run_pure _

lemma calls_test (c : Config) (r : Request) : Calls (·.command = .test) (test c r).run :=
  calls_testCall fun _ => rfl

/-! ## Runs -/

/-- What is behind the tests in a run calls nothing. -/
lemma quiet_readResults (room : Nat) (r : Request) (output : Output)
    (milliseconds : Number.Binary64) :
    Quiet (match SuiteRun.ofOutput room output r.scenarios with
      | .ok run => pure { run with executionMilliseconds := milliseconds }
      | .error (.refused cause) => throw (.failed (.refused cause))
      | .error (.broken cause) => throw (.broken (.report cause)) : Step SuiteRun).run := by
  split
  · exact calls_run_pure _
  · exact calls_run_throw _
  · exact calls_run_throw _

/-- From one session to another only the log may differ. -/
def LogsOnly (s s' : Session) : Prop :=
  ∃ records, s' = { s with records }

instance : IsPreorder Session LogsOnly where
  refl s := ⟨s.records, rfl⟩
  trans _ _ _ := by
    rintro ⟨_, rfl⟩ ⟨records, rfl⟩
    exact ⟨records, rfl⟩

lemma logsOnly_log (r : Log.Record) : Moves LogsOnly (Session.log r) :=
  fun _ => ⟨_, rfl⟩

lemma LogsOnly.makesOnly {P : Call → Prop} {s s' : Session} (h : LogsOnly s s') :
    MakesOnly P s s' := by
  obtain ⟨records, rfl⟩ := h
  exact .none rfl rfl rfl

lemma LogsOnly.makes {s s' : Session} (h : LogsOnly s s') : Makes [] s s' :=
  h.makesOnly.makes_nil

/-- How far a run comes: it has no project, or its suites are not written, or it comes to the tests
and then reads what they left behind. -/
inductive Stages (c : Config) (r : Request) (s s' : Session) : Prop
  | unopened {e : Stop} (opens : Ends (ensureProject c) s (.error e) s')
  | unwritten {s₁ : Session} {e : Stop} (opens : Ends (ensureProject c) s (.ok ()) s₁)
      (writes : Ends (writeSuites c r.code) s₁ (.error e) s')
  | tested {s₁ s₂ s₃ : Session} {path : Files.Path} {o : Except Stop (Output × Number.Binary64)}
      (opens : Ends (ensureProject c) s (.ok ()) s₁)
      (writes : Ends (writeSuites c r.code) s₁ (.ok path) s₂)
      (tests : Ends (test c r) s₂ o s₃) (reads : LogsOnly s₃ s')

lemma stages_of_run {c : Config} {r : Request} {s s' : Session} {o : Except Stop SuiteRun}
    (h : Ends (Forge.run c r) s o s') : Stages c r s s' := by
  rcases ends_bind_iff.mp h with ⟨e, hopens, -⟩ | ⟨_, s₁, hopens, h⟩
  · exact .unopened hopens
  rcases ends_bind_iff.mp h with ⟨e, hwrites, -⟩ | ⟨path, s₂, hwrites, h⟩
  · exact .unwritten hopens hwrites
  rcases ends_bind_iff.mp h with ⟨e, htests, -⟩ | ⟨result, s₃, htests, h⟩
  · exact .tested hopens hwrites htests (refl_of _ s')
  refine .tested hopens hwrites htests (Moves.of_ends ?_ h)
  have hwhole : Moves LogsOnly (whole result.2).run := by
    rw [whole]
    split
    · exact moves_run_pure _
    · exact moves_run_throw _
  refine Moves.run_bind hwhole fun rounded => ?_
  refine Moves.run_bind (Moves.run_lift (logsOnly_log _)) fun _ => ?_
  refine Moves.run_bind moves_get fun s => ?_
  split
  · exact moves_run_pure _
  · exact moves_run_throw _
  · exact moves_run_throw _

/-- A run of suites fetches the library and runs the tests, and calls nothing else. -/
lemma calls_run_of {P : Call → Prop} {c : Config} {r : Request}
    (hinstall : ∀ call, call.command = .install → P call) (htest : ∀ d, P (testCall c r d)) :
    Calls P (run c r).run := by
  refine Calls.run_bind ((calls_ensureProject c).mono hinstall) fun _ => ?_
  refine Calls.run_bind (quiet_writeSuites c r.code).calls fun _ => ?_
  refine Calls.run_bind (calls_testCall htest) fun result => ?_
  refine Calls.run_bind (quiet_whole _).calls fun _ => Calls.log_bind fun _ => ?_
  exact Calls.run_bind quiet_get.calls fun s => (quiet_readResults _ r _ _).calls

/-- A run of suites formats nothing. -/
lemma calls_run (c : Config) (r : Request) : Calls (·.command ≠ .format) (run c r).run :=
  calls_run_of (fun call h => by simp [h]) fun directory => by simp [testCall]

/-- The last of some calls ran the tests to their end, and the run was read off what it left
behind, in the room that there is for a report. -/
inductive Completes (room : Nat) (script : Script) (requested : List Scenario) :
    List Call → SuiteRun → Prop
  | intro {before : List Call} {call : Call} {output : Output} {parsed run : SuiteRun}
      (tests : call.command = .test)
      (finishes : ((script.behind before).next .test).1.outcome "" = .finished output)
      (reads : SuiteRun.ofOutput room output requested = .ok parsed)
      (results : run.results = parsed.results) (status : run.status = parsed.status) :
      Completes room script requested (before ++ [call]) run

/-- **A run that has results comes from a call that ran the tests to their end.** -/
theorem ends_run_ok {c : Config} {r : Request} {s s' : Session} {run : SuiteRun}
    (h : Ends (Forge.run c r) s (.ok run) s') :
    ∃ calls, Makes calls s s' ∧ Completes s.rooms.reported s.forge r.scenarios calls run := by
  obtain ⟨_, s₁, hproject, h⟩ := ends_bind_ok_iff.mp h
  obtain ⟨_, s₂, hsuites, h⟩ := ends_bind_ok_iff.mp h
  obtain ⟨⟨output, milliseconds⟩, s₃, htest, h⟩ := ends_bind_ok_iff.mp h
  obtain ⟨rounded, s₄, hrounded, h⟩ := ends_bind_ok_iff.mp h
  obtain ⟨_, s₅, hlog, h⟩ := ends_bind_ok_iff.mp h
  rw [ends_get_bind_iff] at h
  have hrooms : s₅.rooms = s.rooms := by
    have hrounded := (quiet_whole _).rooms_eq hrounded
    have hlog := Calls.rooms_eq (Calls.run_lift (quiet_log _)) hlog
    rw [hlog, hrounded, (calls_test c r).rooms_eq htest,
      (quiet_writeSuites c r.code).rooms_eq hsuites, (calls_ensureProject c).rooms_eq hproject]
  rw [hrooms] at h
  obtain ⟨before, hbefore, -⟩ := (calls_ensureProject c).exists_makes hproject
  have hfront : Makes (before ++ []) s s₂ :=
    hbefore.trans ((quiet_writeSuites c r.code).makes_of_ends hsuites)
  rcases ends_test htest with ⟨-, e, he⟩ | ⟨directory, -, hcall, hfinished⟩
  · cases he
  have hbehind : Makes [] s₃ s' :=
    ((quiet_whole _).makes_of_ends hrounded).trans
      (((quiet_log _).makes_of_lift hlog).trans ((quiet_readResults _ r _ _).makes_of_ends h))
  have hall := (hfront.trans hcall).trans hbehind
  rw [List.append_nil] at hfront
  simp only [List.append_nil] at hall
  have hscript : s₂.forge = s.forge.behind before := hfront.script
  refine ⟨before ++ [testCall c r directory], hall, ?_⟩
  cases houtput : SuiteRun.ofOutput s.rooms.reported output r.scenarios with
  | ok parsed =>
    rw [houtput] at h
    obtain ⟨hrun, -⟩ := ends_pure_iff.mp h
    obtain rfl := Except.ok.inj hrun
    exact .intro rfl (hscript ▸ hfinished _ rfl) houtput rfl rfl
  | error fault =>
    rw [houtput] at h
    cases fault with
    | refused cause => cases (ends_throw_iff.mp h).1
    | broken cause => cases (ends_throw_iff.mp h).1

end HoneypotAudit.Forge
